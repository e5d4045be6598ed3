import Synergy.Net.InputBuffer

/-! What a plain socket takes for the end of its connection,
    over the results of read(2): an answer that there is nothing
yet and the end of the stream reach it as the same value. -/
namespace Synergy
open Lib DataSocket

/-- What a call of read(2) on a non-blocking socket returns: bytes, 0, EAGAIN, EINTR or another error. -/
inductive ReadResult
  | bytes (first : UInt8) (rest : Bytes)
  | endOfStream
  | again
  | interrupted
  | failed (e : ArchNetworkException)
  deriving DecidableEq, Repr

namespace ReadResult

def notYet : ReadResult → Bool
  | again | interrupted => true
  | _ => false

def ended : ReadResult → Bool
  | endOfStream | failed _ => true
  | _ => false

end ReadResult

def ArchNetworkBSD.readSocket : ReadResult → ArchRead
  | .bytes first rest => .data first rest
  | .endOfStream | .again | .interrupted => .nothing
  | .failed e => .thrown e

namespace TCPSocket
open ArchNetworkBSD

/-- A call, and the results of read(2) from then on; after them the stream is at its end. -/
abbrev ReadCall := SocketCall ArchWrite × List ReadResult

def callReading (s : DataSocket) (x : ReadCall) : DataSocket :=
  (methods.call ⟨s, x.2.map readSocket⟩ x.1).socket

/-- The results that `doRead` gets while so much is in the buffer. -/
def readsFrom (size : Nat) : List ReadResult → List ReadResult
  | [] => [.endOfStream]
  | .bytes first rest :: results =>
    .bytes first rest ::
      if inputBufferHighWater ≤ size + (rest.length + 1) then [] else readsFrom (size + (rest.length + 1)) results
  | r :: _ => [r]

/-- The socket when `serviceConnected` comes to read, and whether it reads. -/
def beforeRead (s : DataSocket) : SocketCall ArchWrite → DataSocket × Bool
  | .serviceConnected read write error answer =>
    let written := (tryWrite (doWrite answer) write s).1
    (written, !error && read && written.readable)
  | _ => (s, false)

/-- The results of read(2) in a call. -/
def results (s : DataSocket) (x : ReadCall) : List ReadResult :=
  if (beforeRead s x.1).2 then readsFrom (beforeRead s x.1).1.inputBuffer.length x.2 else []

/-- What is done because of the read in a call. -/
def readEntries (s : DataSocket) (x : ReadCall) : List SocketEntry :=
  if (beforeRead s x.1).2 then
    (tryRead doRead true (x.2.map readSocket) (beforeRead s x.1).1).1.log.drop (beforeRead s x.1).1.log.length
  else []

/-- The job polls for input. -/
def pollsInput (s : DataSocket) : Bool := s.job.any (·.read)

/-- The poll reports input only where it was asked for. -/
def Polled (s : DataSocket) : SocketCall ArchWrite → Prop
  | .serviceConnected read _ _ _ => read = true → pollsInput s
  | _ => True

def Step (s : DataSocket) (x : ReadCall) (s' : DataSocket) : Prop := Polled s x.1 ∧ s' = callReading s x

/-- Only a real end is taken for one, and a socket that has nothing yet goes on. -/
structure OnlyRealClose (s : DataSocket) (x : ReadCall) (s' : DataSocket) : Prop where
  ended : .sent .streamInputShutdown ∈ readEntries s x ∨ .sent .socketDisconnected ∈ readEntries s x →
    ∃ r ∈ results s x, r.ended
  goesOn : (∃ r ∈ results s x, r.notYet) → s'.readable = true ∧ pollsInput s' = true

/-- The first read of a call answers that there is nothing yet. -/
def StartsEarly (s : DataSocket) : ReadCall → Prop
  | (.serviceConnected read write error answer, r :: _) => error = false ∧ read = true ∧ s.readable = true ∧
      (write = true → answer ≠ .thrown .disconnected ∧ answer ≠ .thrown .other) ∧ r.notYet = true
  | _ => False

/-- What the jobs of a socket rely on. -/
structure Inv (s : DataSocket) : Prop where
  socket : s.job ≠ none → s.socket = true
  connected : s.readable = true → s.connected = true
  paused : pollsInput s = true → s.readPaused = false

section
variable {s t : DataSocket}

theorem Inv.lessened (h : Inv s) (hjob : t.job = s.job) (hsocket : t.socket = s.socket)
    (hconnected : t.readable = true → t.connected = true) (hpaused : t.readPaused = true → s.readPaused = true) :
        Inv t where
  socket hsome := by
    rw [hsocket]
    exact h.socket (hjob ▸ hsome)
  connected := hconnected
  paused hpolls := by
    rw [pollsInput, hjob] at hpolls
    have hnot := h.paused hpolls
    rw [← Bool.not_eq_true] at hnot ⊢
    exact fun ht => hnot (hpaused ht)

theorem Inv.of_eq (h : Inv s) (hjob : t.job = s.job) (hsocket : t.socket = s.socket) (hreadable : t.readable =
    s.readable)
    (hconnected : t.connected = s.connected) (hpaused : t.readPaused = s.readPaused) : Inv t :=
  h.lessened hjob hsocket (fun hr => hconnected ▸ h.connected (hreadable ▸ hr)) fun hp => hpaused ▸ hp

theorem newJob_socket (h : newJob s ≠ none) : s.socket = true := by
  by_contra hnone
  rw [Bool.not_eq_true] at hnone
  exact h (by rw [newJob, hnone]; rfl)

/-- A new job polls for input if the socket is readable and the reading has not been paused. -/
theorem newJob_polls (hsocket : s.socket = true) (hconnected : s.readable = true → s.connected = true) :
    (newJob s).any (·.read) = (s.readable && !s.readPaused) := by
  unfold newJob
  rw [hsocket]
  cases hc : s.connected with
  | false =>
    have hunreadable : s.readable = false := by
      rw [← Bool.not_eq_true]
      exact fun hr => absurd (hconnected hr) (by rw [hc]; decide)
    rw [hunreadable]
    cases s.writable <;> rfl
  | true => cases s.readable <;> cases s.readPaused <;> cases s.writable <;> cases s.outputBuffer <;> rfl

theorem inv_newJob (hconnected : t.readable = true → t.connected = true) : Inv (t.setJob (newJob t)) where
  socket hsome := newJob_socket hsome
  connected := hconnected
  paused hpolls := by
    have hpolls : (newJob t).any (·.read) = true := hpolls
    have hsocket : t.socket = true := newJob_socket fun hnone => by rw [hnone] at hpolls; cases hpolls
    rw [newJob_polls hsocket hconnected, Bool.and_eq_true_iff, Bool.not_eq_true'] at hpolls
    exact hpolls.2

/-- What a call may do to the members that the jobs rely on. -/
structure Tame (s t : DataSocket) : Prop where
  job : t.job = s.job
  socket : t.socket = s.socket
  paused : t.readPaused = s.readPaused
  connected : (s.readable = true → s.connected = true) → t.readable = true → t.connected = true

theorem Tame.inv (h : Tame s t) (hs : Inv s) : Inv t :=
  hs.lessened h.job h.socket (h.connected hs.connected) fun hp => h.paused ▸ hp

theorem tame_doWrite (answer : ArchWrite) (s : DataSocket) : Tame s (doWrite answer s).1 ∧
    (doWrite answer s).1.readable = s.readable := by
  cases answer with
  | thrown e => exact ⟨⟨rfl, rfl, rfl, id⟩, rfl⟩
  | wrote n =>
    cases n with
    | zero => exact ⟨⟨rfl, rfl, rfl, id⟩, rfl⟩
    | succ n =>
      unfold doWrite discardWrittenData
      dsimp only
      split <;> exact ⟨⟨rfl, rfl, rfl, id⟩, rfl⟩

/-- A write ends the reading only if it finds that the peer is gone. -/
theorem tame_tryWrite (answer : ArchWrite) (write : Bool) (s : DataSocket) :
    Tame s (tryWrite (doWrite answer) write s).1 ∧
      ((tryWrite (doWrite answer) write s).1.readable = true ↔
        s.readable = true ∧ (write = true → answer ≠ .thrown .disconnected ∧ answer ≠ .thrown .other)) ∧
      (tryWrite (doWrite answer) write s).2 ≠ .break := by
  have hsame : Tame s s := ⟨rfl, rfl, rfl, id⟩
  have retry_ne : JobResult.retry ≠ .break := by decide
  have new_ne : JobResult.new ≠ .break := by decide
  cases write with
  | false => exact ⟨hsame, ⟨fun hr => ⟨hr, fun hw => by cases hw⟩, And.left⟩, retry_ne⟩
  | true =>
    cases answer with
    | wrote n =>
      obtain ⟨htame, hreadable⟩ := tame_doWrite (.wrote n) s
      have hmay : s.readable = true ↔ s.readable = true ∧
          (true = true → ArchWrite.wrote n ≠ .thrown .disconnected ∧ ArchWrite.wrote n ≠ .thrown .other) :=
        ⟨fun hr => ⟨hr, fun _ => ⟨ArchWrite.noConfusion, ArchWrite.noConfusion⟩⟩, And.left⟩
      cases n with
      | zero => exact ⟨hsame, hmay, retry_ne⟩
      | succ n =>
        refine ⟨htame, ?_, new_ne⟩
        change (doWrite (.wrote (n + 1)) s).1.readable = true ↔ _
        rw [hreadable]
        exact hmay
    | thrown e =>
      cases e with
      | shutdown =>
        unfold tryWrite doWrite
        dsimp only
        rw [if_neg (by decide)]
        dsimp only
        refine ⟨?_, ?_, by decide⟩
        · split
          next hover =>
            rw [Bool.and_eq_true_iff, Bool.not_eq_true'] at hover
            exact ⟨rfl, rfl, rfl, fun _ hr => absurd (hover.1.symm.trans hr) (by decide)⟩
          · exact ⟨rfl, rfl, rfl, id⟩
        · split <;> exact ⟨fun hr => ⟨hr, fun _ => by decide⟩, And.left⟩
      | disconnected => exact ⟨⟨rfl, rfl, rfl, fun _ hr => by cases hr⟩,
          ⟨fun hr => (by cases hr), fun hmay => absurd rfl (hmay.2 rfl).1⟩, new_ne⟩
      | other => exact ⟨⟨rfl, rfl, rfl, fun _ hr => by cases hr⟩,
          ⟨fun hr => (by cases hr), fun hmay => absurd rfl (hmay.2 rfl).2⟩, new_ne⟩

/-- Pieces are stored until the buffer is full, there is nothing yet, the stream ends or the read fails. -/
structure Slurped (s : DataSocket) (made : List ReadResult) (served : Served ArchRead) : Prop where
  members : (served.socket.job, served.socket.socket, served.socket.readable, served.socket.connected) =
    (s.job, s.socket, s.readable, s.connected)
  log : ∃ entries, served.socket.log = s.log ++ entries ∧ ∀ e ∈ entries, ∃ data, e = .stored data
  result : served.result = .ok .retry ∨
    ∃ e, served.result = .error e ∧ .failed e ∈ made ∧ served.socket.readPaused = s.readPaused
  notYet : (∃ r ∈ made, r.notYet = true) → served.result = .ok .retry ∧ served.socket.readPaused = s.readPaused

theorem slurped_store {piece : Bytes} {made : List ReadResult} {served : Served ArchRead}
    (h : Slurped (s.store piece) made served) : Slurped s made served where
  members := h.members
  log := by
    obtain ⟨entries, hlog, hstored⟩ := h.log
    refine ⟨.stored piece :: entries, by rw [hlog]; exact List.append_cons .. |>.symm, fun e he => ?_⟩
    rcases List.mem_cons.mp he with rfl | he
    · exact ⟨piece, rfl⟩
    · exact hstored e he
  result := h.result
  notYet := h.notYet

theorem Slurped.more {first : UInt8} {rest : Bytes} {made : List ReadResult} {served : Served ArchRead}
    (h : Slurped s made served) : Slurped s (.bytes first rest :: made) served where
  members := h.members
  log := h.log
  result := h.result.imp_right fun ⟨e, heq, hmem, hpaused⟩ => ⟨e, heq, List.mem_cons_of_mem _ hmem, hpaused⟩
  notYet := by
    rintro ⟨r, hr, hnot⟩
    rcases List.mem_cons.mp hr with rfl | hr
    · cases hnot
    · exact h.notYet ⟨r, hr, hnot⟩

theorem slurped_full (s : DataSocket) (incoming : List ArchRead) :
    Slurped s [] ⟨{ s with readPaused := true }, incoming, .ok .retry⟩ :=
  ⟨rfl, ⟨[], (List.append_nil _).symm, fun _ he => absurd he List.not_mem_nil⟩, .inl rfl,
    fun ⟨_, hr, _⟩ => absurd hr List.not_mem_nil⟩

theorem slurped_ended (s : DataSocket) (made : List ReadResult) (incoming : List ArchRead) :
    Slurped s made ⟨s, incoming, .ok .retry⟩ :=
  ⟨rfl, ⟨[], (List.append_nil _).symm, fun _ he => absurd he List.not_mem_nil⟩, .inl rfl, fun _ => ⟨rfl, rfl⟩⟩

theorem slurped_failed (s : DataSocket) (e : ArchNetworkException) (incoming : List ArchRead) :
    Slurped s [.failed e] ⟨s, incoming, .error e⟩ := by
  refine ⟨rfl, ⟨[], (List.append_nil _).symm, fun _ he => absurd he List.not_mem_nil⟩,
    .inr ⟨e, rfl, List.mem_cons_self, rfl⟩, ?_⟩
  rintro ⟨r, hr, hnot⟩
  cases List.mem_singleton.mp hr
  cases hnot

theorem slurp_slurped (s : DataSocket) (piece : Bytes) (incoming : List ReadResult) :
    Slurped s (if inputBufferHighWater ≤ s.inputBuffer.length + piece.length then []
        else readsFrom (s.inputBuffer.length + piece.length) incoming)
      (slurp s piece (incoming.map readSocket)) := by
  induction incoming generalizing s piece with
  | nil =>
    have hlength : (s.store piece).inputBuffer.length = s.inputBuffer.length + piece.length := List.length_append
    rw [List.map_nil, slurp, hlength]
    split
    · exact slurped_store (slurped_full _ _)
    · exact slurped_store (slurped_ended _ _ _)
  | cons r incoming ih =>
    have hlength : (s.store piece).inputBuffer.length = s.inputBuffer.length + piece.length := List.length_append
    rw [List.map_cons, slurp.eq_def]
    dsimp only
    rw [hlength]
    split
    · exact slurped_store (slurped_full _ _)
    · cases r with
      | bytes first rest =>
        have hmore := ih (s.store piece) (first :: rest)
        rw [hlength] at hmore
        exact slurped_store hmore.more
      | endOfStream => exact slurped_store (slurped_ended _ _ _)
      | again => exact slurped_store (slurped_ended _ _ _)
      | interrupted => exact slurped_store (slurped_ended _ _ _)
      | failed e => exact slurped_store (slurped_failed _ e _)

/-- What the reading does to a socket, of which it takes only a real end for one. -/
structure Reads (s : DataSocket) (made : List ReadResult) (read : DataSocket × List ArchRead × JobResult) : Prop where
  ended : .sent .streamInputShutdown ∈ read.1.log.drop s.log.length ∨
    .sent .socketDisconnected ∈ read.1.log.drop s.log.length → ∃ r ∈ made, r.ended
  goesOn : (∃ r ∈ made, r.notYet) → read.1.readable = true ∧ read.1.readPaused = s.readPaused
  job : read.1.job = s.job ∧ read.1.socket = s.socket ∧ read.2.2 ≠ .break
  connected : (s.readable = true → s.connected = true) → read.1.readable = true → read.1.connected = true
  paused : read.1.readPaused = true → s.readPaused = true ∨ read.2.2 = .new

/-- Data that is stored and announced ends nothing. -/
theorem not_ended {entries : List SocketEntry} (hstored : ∀ e ∈ entries, ∃ data, e = .stored data)
    {event : EventTypes} (hsent : .sent event ∈ entries ∨ .sent event ∈ entries ++ [.sent .streamInputReady])
    (hevent : event ≠ .streamInputReady) : False := by
  have hold : .sent event ∉ entries := fun hmem => by
    obtain ⟨data, hdata⟩ := hstored _ hmem
    cases hdata
  rcases hsent with hmem | hmem
  · exact hold hmem
  · rcases List.mem_append.mp hmem with hmem | hmem
    · exact hold hmem
    · exact hevent (SocketEntry.sent.inj (List.mem_singleton.mp hmem))

theorem announce_reads {made : List ReadResult} {served : Served ArchRead} (h : Slurped s made served)
    (hreadable : s.readable = true) (wasEmpty : Bool) {incoming : List ArchRead}
    (hread : doRead incoming s = announce wasEmpty served) : Reads s made (tryRead doRead true incoming s) := by
  unfold tryRead
  rw [hreadable, hread, if_neg (by decide)]
  rcases served with ⟨t, rest, result⟩
  obtain ⟨entries, hlog, hstored⟩ := h.log
  have hmembers := h.members
  simp only [Prod.mk.injEq] at hmembers hlog
  obtain ⟨hjob, hsocket, hr, hc⟩ := hmembers
  have hdrop : t.log.drop s.log.length = entries := by rw [hlog, List.drop_left]
  rcases h.result with hok | ⟨e, herror, hmem, hpaused⟩
  · obtain rfl : result = .ok .retry := hok
    have hsame (t' : DataSocket) (ht' : t' = t ∨ t' = t.sendEvent .streamInputReady) :
        Reads s made (t', rest, if t'.readPaused then .new else .retry) := by
      have hmembers : (t'.job, t'.socket, t'.readable, t'.connected, t'.readPaused) =
          (s.job, s.socket, s.readable, s.connected, t.readPaused) := by
        rcases ht' with rfl | rfl <;> simp only [sendEvent, note, hjob, hsocket, hr, hc]
      simp only [Prod.mk.injEq] at hmembers
      obtain ⟨hjob, hsocket, hr, hc, hp⟩ := hmembers
      have hquiet {event : EventTypes} (hevent : event ≠ .streamInputReady) :
          .sent event ∉ t'.log.drop s.log.length := by
        intro hsent
        refine not_ended hstored ?_ hevent
        rcases ht' with rfl | rfl
        · exact .inl (hdrop ▸ hsent)
        · refine .inr ?_
          have hgrown : (t.sendEvent .streamInputReady).log.drop s.log.length = entries ++
              [.sent .streamInputReady] := by
            change (t.log ++ _).drop _ = _
            rw [hlog, List.append_assoc, List.drop_left]
          rw [hgrown] at hsent
          exact hsent
      refine ⟨fun hsent => ?_, fun hnot => ⟨hr.trans hreadable, hp.trans (h.notYet hnot).2⟩, ⟨hjob, hsocket, ?_⟩,
          ?_, ?_⟩
      · rcases hsent with hsent | hsent
        · exact absurd hsent (hquiet (by decide))
        · exact absurd hsent (hquiet (by decide))
      · dsimp only
        split <;> decide
      · exact fun hconnected hr' => hc.trans (hconnected (hr ▸ hr'))
      · exact fun hp' => .inr (if_pos hp')
    cases wasEmpty with
    | false => exact hsame t (.inl rfl)
    | true => exact hsame _ (.inr rfl)
  · obtain rfl : result = .error e := herror
    have hended : ∃ r ∈ made, r.ended := ⟨.failed e, hmem, rfl⟩
    have hnot : ¬∃ r ∈ made, r.notYet := fun hnot => by cases (h.notYet hnot).1
    have retry_ne : JobResult.retry ≠ .break := by decide
    have new_ne : JobResult.new ≠ .break := by decide
    have hstays : Reads s made (t, rest, .retry) :=
      ⟨fun _ => hended, fun hyet => absurd hyet hnot, ⟨hjob, hsocket, retry_ne⟩,
        fun hconnected hr' => hc.trans (hconnected (hr ▸ hr')), fun hp => .inl (hpaused ▸ hp)⟩
    cases e with
    | shutdown => exact hstays
    | disconnected =>
      exact ⟨fun _ => hended, fun hyet => absurd hyet hnot, ⟨hjob, hsocket, new_ne⟩,
        fun _ hr' => absurd hr' Bool.false_ne_true, fun _ => .inr rfl⟩
    | other => exact hstays

/-- The reading goes on unless the first result is that there is nothing yet. -/
theorem reads_results (hreadable : s.readable = true) (incoming : List ReadResult)
    (hstart : ∀ r ∈ incoming.head?, r.notYet = false) :
    Reads s (readsFrom s.inputBuffer.length incoming) (tryRead doRead true (incoming.map readSocket) s) := by
  have hnone : ¬∃ r ∈ [ReadResult.endOfStream], r.notYet = true := by
    rintro ⟨r, hr, hnot⟩
    cases List.mem_singleton.mp hr
    cases hnot
  have hhungUp (rest : List ArchRead) : Reads s [.endOfStream] (s.inputHungUp, rest, .new) := by
    refine ⟨fun _ => ⟨.endOfStream, List.mem_cons_self, rfl⟩, fun hyet => absurd hyet hnone, ?_, ?_, ?_⟩
    · unfold inputHungUp
      dsimp only
      split <;> exact ⟨rfl, rfl, by decide⟩
    · exact fun _ hr => absurd hr Bool.false_ne_true
    · exact fun _ => .inr rfl
  cases incoming with
  | nil =>
    unfold tryRead
    rw [hreadable, if_neg (by decide)]
    exact hhungUp []
  | cons r incoming =>
    cases r with
    | bytes first rest =>
      exact announce_reads (slurp_slurped s (first :: rest) incoming).more hreadable s.inputBuffer.isEmpty rfl
    | endOfStream =>
      unfold tryRead
      rw [hreadable, if_neg (by decide)]
      exact hhungUp _
    | again => exact absurd (hstart _ rfl) (by decide)
    | interrupted => exact absurd (hstart _ rfl) (by decide)
    | failed e =>
      have hread : doRead ((ReadResult.failed e :: incoming).map readSocket) s =
          announce false ⟨s, incoming.map readSocket, .error e⟩ := rfl
      exact announce_reads (slurped_failed s e _) hreadable false hread

/-- What follows for the job of a socket from what has been read. -/
theorem follow_nextJob {w r : JobResult} (h : Inv s) (hw : w ≠ .break) (hr : r ≠ .break)
    (hkept : t.job = s.job ∧ t.socket = s.socket) (hconnected : t.readable = true → t.connected = true)
    (hpaused : t.readPaused = true → s.readPaused = true ∨ r = .new) :
    Inv (nextJob newJob w r t) ∧ (nextJob newJob w r t).readable = t.readable ∧
      (pollsInput s = true → t.readable = true → t.readPaused = s.readPaused →
        pollsInput (nextJob newJob w r t) = true) := by
  unfold nextJob
  rw [if_neg (not_or.mpr ⟨hr, hw⟩)]
  split
  next hnew =>
    refine ⟨inv_newJob hconnected, rfl, fun hpolls hreadable hsame => ?_⟩
    have hsocket : t.socket = true := hkept.2 ▸ h.socket fun hnone => by
      rw [pollsInput, hnone] at hpolls
      cases hpolls
    change (newJob t).any (·.read) = true
    rw [newJob_polls hsocket hconnected, hreadable, hsame, h.paused hpolls]
    rfl
  next hold =>
    refine ⟨h.lessened hkept.1 hkept.2 hconnected fun hp => ?_, rfl, fun hpolls _ _ => ?_⟩
    · exact (hpaused hp).resolve_right fun hnew => hold (.inr hnew)
    · rw [pollsInput, hkept.1]
      exact hpolls

theorem onlyRealClose_unread {x : ReadCall} (hunread : (beforeRead s x.1).2 = false) (t : DataSocket) :
    OnlyRealClose s x t := by
  have hresults : results s x = [] := by rw [results, hunread]; rfl
  have hentries : readEntries s x = [] := by rw [readEntries, hunread]; rfl
  refine ⟨fun hsent => ?_, ?_⟩
  · rw [hentries] at hsent
    rcases hsent with hsent | hsent <;> exact absurd hsent List.not_mem_nil
  · rintro ⟨r, hr, -⟩
    rw [hresults] at hr
    exact absurd hr List.not_mem_nil

/-- A call that does not read. -/
theorem inv_other (h : Inv s) {c : SocketCall ArchWrite} (hother : ∀ read write error answer,
    c ≠ .serviceConnected read write error answer) (results : List ReadResult) : Inv (callReading s (c, results)) := by
  cases c with
  | connect answer =>
    change Inv (connect newJob answer s)
    unfold connect
    split
    · exact h.of_eq rfl rfl rfl rfl rfl
    · cases answer with
      | done => exact inv_newJob fun _ => rfl
      | inProgress => exact inv_newJob h.connected
      | thrown => exact h
  | dispatch =>
    change Inv (methods.dispatch s)
    unfold SocketClass.dispatch
    split
    · exact h
    · dsimp only
      split <;> exact h.of_eq rfl rfl rfl rfl rfl
  | serviceConnecting failure write =>
    cases failure with
    | some what => exact inv_newJob fun hr => absurd hr Bool.false_ne_true
    | none =>
      cases write with
      | true => exact inv_newJob fun _ => rfl
      | false => exact h
  | serviceConnected read write error answer => exact absurd rfl (hother read write error answer)
  | read n =>
    have htake : Inv (take n s) := by
      unfold take
      dsimp only
      split
      next hover =>
        simp only [Bool.and_eq_true, Bool.not_eq_true'] at hover
        exact h.lessened rfl rfl (fun hr => absurd (hover.1.2.symm.trans hr) (by decide)) fun hp =>
          (Bool.and_eq_true_iff.mp hp).1
      · exact h.lessened rfl rfl h.connected fun hp => (Bool.and_eq_true_iff.mp hp).1
    change Inv (TCPSocket.read newJob n s).2
    unfold TCPSocket.read
    dsimp only
    split
    · exact inv_newJob htake.connected
    · exact htake
  | write data =>
    change Inv (TCPSocket.write newJob data s)
    unfold TCPSocket.write
    split_ifs
    · exact h.of_eq rfl rfl rfl rfl rfl
    · exact h
    · exact inv_newJob h.connected
    · exact h.of_eq rfl rfl rfl rfl rfl
  | shutdownInput =>
    change Inv (TCPSocket.shutdownInput newJob s)
    unfold TCPSocket.shutdownInput
    split
    · exact inv_newJob fun hr => absurd hr Bool.false_ne_true
    · exact h
  | shutdownOutput =>
    change Inv (TCPSocket.shutdownOutput newJob s)
    unfold TCPSocket.shutdownOutput
    split
    · exact inv_newJob h.connected
    · exact h
  | close =>
    change Inv (TCPSocket.close s)
    unfold TCPSocket.close
    dsimp only
    split <;> exact ⟨fun hsome => absurd (Eq.refl none) hsome, fun hr => absurd hr Bool.false_ne_true,
      fun hpolls => absurd hpolls Bool.false_ne_true⟩

theorem callReading_service (s : DataSocket) (read write : Bool) (answer : ArchWrite) (incoming : List ReadResult) :
    callReading s (.serviceConnected read write false answer, incoming) =
      nextJob newJob (tryWrite (doWrite answer) write s).2
        (tryRead doRead read (incoming.map readSocket) (tryWrite (doWrite answer) write s).1).2.2
        (tryRead doRead read (incoming.map readSocket) (tryWrite (doWrite answer) write s).1).1 :=
  rfl

/-- A first answer that there is nothing yet is taken for the end of the stream. -/
theorem hungUp_early {r : ReadResult} (hreadable : s.readable = true) (hearly : r.notYet = true)
    (incoming : List ReadResult) :
    .sent .streamInputShutdown ∈ (tryRead doRead true ((r :: incoming).map readSocket) s).1.log.drop s.log.length := by
  have hhungUp : (tryRead doRead true ((r :: incoming).map readSocket) s).1 = s.inputHungUp := by
    unfold tryRead
    rw [hreadable, if_neg (by decide)]
    cases r with
    | again => rfl
    | interrupted => rfl
    | bytes first rest => cases hearly
    | endOfStream => cases hearly
    | failed e => cases hearly
  rw [hhungUp]
  unfold inputHungUp
  dsimp only
  split
  · change _ ∈ ((s.log ++ [SocketEntry.sent .streamInputShutdown]) ++ [SocketEntry.sent .socketDisconnected]).drop _
    rw [List.append_assoc, List.drop_left]
    exact List.mem_cons_self
  · change _ ∈ (s.log ++ [SocketEntry.sent .streamInputShutdown]).drop _
    rw [List.drop_left]
    exact List.mem_cons_self

/-- A service of the connected socket. -/
theorem step_service (h : Inv s) {read write error : Bool} {answer : ArchWrite} {incoming : List ReadResult}
    (hpolled : read = true → pollsInput s = true) :
    (¬StartsEarly s (.serviceConnected read write error answer, incoming) ↔
      OnlyRealClose s (.serviceConnected read write error answer, incoming)
        (callReading s (.serviceConnected read write error answer, incoming))) ∧
    (¬StartsEarly s (.serviceConnected read write error answer, incoming) →
      Inv (callReading s (.serviceConnected read write error answer, incoming))) := by
  obtain ⟨htame, hreadable, hbreak⟩ := tame_tryWrite answer write s
  have hwritten : Inv (tryWrite (doWrite answer) write s).1 := htame.inv h
  -- nothing is read, and so nothing is early
  have hunread (hnone : (beforeRead s (.serviceConnected read write error answer)).2 = false)
      (hinv : Inv (callReading s (.serviceConnected read write error answer, incoming))) :
      (¬StartsEarly s (.serviceConnected read write error answer, incoming) ↔
        OnlyRealClose s (.serviceConnected read write error answer, incoming)
          (callReading s (.serviceConnected read write error answer, incoming))) ∧
      (¬StartsEarly s (.serviceConnected read write error answer, incoming) →
        Inv (callReading s (.serviceConnected read write error answer, incoming))) := by
    refine ⟨iff_of_true ?_ (onlyRealClose_unread hnone _), fun _ => hinv⟩
    cases incoming with
    | nil => exact id
    | cons r incoming =>
      rintro ⟨rfl, rfl, hr, hwrite, -⟩
      have hread := hreadable.mpr ⟨hr, hwrite⟩
      rw [beforeRead] at hnone
      dsimp only at hnone
      rw [hread] at hnone
      cases hnone
  cases error with
  | true => exact hunread rfl (inv_newJob fun hr => absurd hr Bool.false_ne_true)
  | false =>
    have hretry : JobResult.retry ≠ .break := by decide
    cases hreads : read && (tryWrite (doWrite answer) write s).1.readable with
    | false =>
      refine hunread hreads ?_
      have hsame : tryRead doRead read (incoming.map readSocket) (tryWrite (doWrite answer) write s).1 =
          ((tryWrite (doWrite answer) write s).1, incoming.map readSocket, .retry) := by
        rw [tryRead, hreads]
        rfl
      rw [callReading_service, hsame]
      exact (follow_nextJob hwritten hbreak hretry ⟨rfl, rfl⟩ hwritten.connected .inl).1
    | true =>
      obtain ⟨hread, hr⟩ := Bool.and_eq_true_iff.mp hreads
      subst hread
      have hbefore : beforeRead s (.serviceConnected true write false answer) =
          ((tryWrite (doWrite answer) write s).1, true) := by
        rw [beforeRead, hr]
        rfl
      have hresults : results s (.serviceConnected true write false answer, incoming) =
          readsFrom (tryWrite (doWrite answer) write s).1.inputBuffer.length incoming := by
        rw [results, hbefore]
        rfl
      have hentries : readEntries s (.serviceConnected true write false answer, incoming) =
          (tryRead doRead true (incoming.map readSocket) (tryWrite (doWrite answer) write s).1).1.log.drop
            (tryWrite (doWrite answer) write s).1.log.length := by
        rw [readEntries, hbefore]
        rfl
      by_cases hearly : ∃ r ∈ incoming.head?, r.notYet = true
      · obtain ⟨r, hmem, hnot⟩ := hearly
        cases incoming with
        | nil => cases hmem
        | cons r' incoming =>
          obtain rfl := Option.some.inj hmem
          have hstarts : StartsEarly s (.serviceConnected true write false answer, r' :: incoming) :=
            ⟨rfl, rfl, (hreadable.mp hr).1, (hreadable.mp hr).2, hnot⟩
          refine ⟨iff_of_false (not_not.mpr hstarts) fun hreal => ?_, fun hlate => absurd hstarts hlate⟩
          obtain ⟨q, hq, hended⟩ := hreal.ended (.inl (hentries ▸ hungUp_early hr hnot incoming))
          rw [hresults] at hq
          cases r' with
          | again => cases List.mem_singleton.mp hq; cases hended
          | interrupted => cases List.mem_singleton.mp hq; cases hended
          | bytes first rest => cases hnot
          | endOfStream => cases hnot
          | failed e => cases hnot
      · have hlate : ¬StartsEarly s (.serviceConnected true write false answer, incoming) := by
          cases incoming with
          | nil => exact id
          | cons r incoming => exact fun hstarts => hearly ⟨r, rfl, hstarts.2.2.2.2⟩
        have hreal := reads_results hr incoming fun r hmem => by
          rw [← Bool.not_eq_true]
          exact fun hnot => hearly ⟨r, hmem, hnot⟩
        obtain ⟨hinv, hkept, hpolls⟩ := follow_nextJob hwritten hbreak hreal.job.2.2
          ⟨hreal.job.1, hreal.job.2.1⟩ (hreal.connected hwritten.connected) hreal.paused
        rw [callReading_service]
        refine ⟨iff_of_true hlate ⟨fun hsent => ?_, fun hnot => ?_⟩, fun _ => hinv⟩
        · rw [hresults]
          exact hreal.ended (hentries ▸ hsent)
        · rw [hresults] at hnot
          obtain ⟨hstays, hpaused⟩ := hreal.goesOn hnot
          refine ⟨hkept.trans hstays, hpolls ?_ hstays hpaused⟩
          rw [pollsInput, htame.job]
          exact hpolled rfl

/-- A step of a run. -/
theorem step_real {x : ReadCall} (h : Inv s) (hstep : Step s x t) :
    (¬StartsEarly s x ↔ OnlyRealClose s x t) ∧ (¬StartsEarly s x → Inv t) := by
  obtain ⟨hpolled, rfl⟩ := hstep
  rcases x with ⟨c, incoming⟩
  by_cases hservice : ∃ read write error answer, c = .serviceConnected read write error answer
  · obtain ⟨read, write, error, answer, rfl⟩ := hservice
    exact step_service h hpolled
  · have hother (read write error answer) : c ≠ .serviceConnected read write error answer := fun heq =>
      hservice ⟨read, write, error, answer, heq⟩
    have hlate : ¬StartsEarly s (c, incoming) := by
      cases c with
      | serviceConnected read write error answer => exact absurd rfl (hother read write error answer)
      | _ => exact id
    have hunread : (beforeRead s c).2 = false := by
      cases c with
      | serviceConnected read write error answer => exact absurd rfl (hother read write error answer)
      | _ => rfl
    exact ⟨iff_of_true hlate (onlyRealClose_unread hunread _), fun _ => inv_other h hother incoming⟩

end

/-- An accepted socket, before anything has come. -/
def acceptedSocket : DataSocket := ({} : DataSocket).onConnected.setJob (newJob ({} : DataSocket).onConnected)

/-- A socket that is made for a connection of its own, and one that is made for an accepted connection. -/
inductive New : DataSocket → Prop
  | own : New {}
  | accepted : New acceptedSocket

theorem New.inv {s : DataSocket} (h : New s) : Inv s := by
  cases h with
  | own => exact ⟨fun hsome => absurd rfl hsome, fun hr => absurd hr Bool.false_ne_true,
      fun hpolls => absurd hpolls Bool.false_ne_true⟩
  | accepted => exact inv_newJob fun _ => rfl

/-- In every run in which no first read of a call answers that there is nothing yet, and in no other, only a real end is
taken for one. -/
theorem only_real_close {s : DataSocket} (hnew : New s) {tr : List (ReadCall × DataSocket)} (hr : Trace Step s tr) :
    EachStep OnlyRealClose s tr ↔ EachStep (fun s x _ => ¬StartsEarly s x) s tr :=
  (hr.eachStep_iff Inv (fun _ _ _ h hstep => (step_real h hstep).1) (fun _ _ _ h hstep => (step_real h hstep).2)
    hnew.inv).symm

/-- A read is reported, which is given these results. -/
def readable (results : List ReadResult) : ReadCall := (.serviceConnected true false false (.wrote 0), results)

theorem only_real_close_again :
    EachStep OnlyRealClose acceptedSocket
      [(readable [.bytes 1 [], .again], callReading acceptedSocket (readable [.bytes 1 [], .again]))] := by
  have hr : Trace Step acceptedSocket
      [(readable [.bytes 1 [], .again], callReading acceptedSocket (readable [.bytes 1 [], .again]))] :=
    .cons ⟨fun _ => rfl, rfl⟩ (.nil _)
  refine (only_real_close .accepted hr).mpr ⟨fun hstarts => ?_, trivial⟩
  obtain ⟨-, -, -, -, hnot⟩ := hstarts
  cases hnot

/-- A poll reports input, and the read finds that there is nothing yet. -/
theorem early_read_closes : ¬∀ (s : DataSocket), New s → ∀ (tr : List (ReadCall × DataSocket)), Trace Step s tr →
    EachStep OnlyRealClose s tr := by
  intro h
  obtain ⟨hreal, -⟩ := h acceptedSocket .accepted [(readable [.again], callReading acceptedSocket (readable [.again]))]
    (.cons ⟨fun _ => rfl, rfl⟩ (.nil _))
  obtain ⟨r, hr, hended⟩ := hreal.ended (.inl (by decide))
  have hresults : results acceptedSocket (readable [.again]) = [.again] := rfl
  rw [hresults] at hr
  cases List.mem_singleton.mp hr
  cases hended

end TCPSocket
end Synergy
