import Synergy.Net.SecureReceived

/-! The output of data sockets: what the lower layer has accepted of what has been written, what it has been offered,
and whether a job waits to write the rest. -/
namespace Synergy
open DataSocket

/-- The calls about the data of a socket that is connected. -/
inductive OutputCall (W : Type)
  | write (data : Bytes)
  | read (n : Nat)
  | serviceConnected (read write error : Bool) (answer : W)

/-- What a class of sockets offers the lower layer in a write, how much of it an answer accepts, and whether it has to
be offered again. -/
structure Sender (R W : Type) where
  methods : SocketClass R W
  offered : DataSocket → Option Bytes
  count : W → Nat
  retries : W → Bool

def ArchWrite.count : ArchWrite → Nat
  | .wrote n => n
  | .thrown _ => 0

def TCPSocket.sender : Sender ArchRead ArchWrite where
  methods := TCPSocket.methods
  offered s := some s.outputBuffer
  count := ArchWrite.count
  retries _ := false

/-- The bytes that `doWrite` calls `SSL_write` with, if it does. -/
def SecureSocket.offered (s : DataSocket) : Option Bytes :=
  if writeSize s = 0 || !s.secureReady || !hasSsl s then none
  else some ((if s.writeRetry then s.writeBuffer else s.outputBuffer).take (writeSize s))

def SecureSocket.sender : Sender SslRead SslWrite where
  methods := SecureSocket.methods
  offered := SecureSocket.offered
  count := SslWrite.count
  retries answer := answer.code.isRetry

/-- A socket over its lower layer, the data that has been written to it, what of it the lower layer has accepted, and
what that was offered, with whether it is to be offered again. -/
structure Sending (R : Type) where
  link : Linked R
  written : Bytes
  accepted : Bytes := []
  offers : List (Bytes × Bool) := []

namespace Sending
variable {R W : Type} (v : Sender R W)

/-- A socket before the first call. -/
def start (s : DataSocket) (incoming : List R) : Sending R := { link := ⟨s, incoming⟩, written := s.outputBuffer }

def offered (s : DataSocket) (write error : Bool) : Option Bytes := if write && !error then v.offered s else none

def step (o : Sending R) : OutputCall W → Sending R
  | .write data =>
    { o with
      link := v.methods.call o.link (.write data)
      written := if o.link.socket.writable then o.written ++ data else o.written }
  | .read n => { o with link := v.methods.call o.link (.read n) }
  | .serviceConnected read write error answer =>
    let offered := offered v o.link.socket write error
    { o with
      link := v.methods.call o.link (.serviceConnected read write error answer)
      accepted := o.accepted ++ (offered.getD []).take (v.count answer)
      offers := o.offers ++ (offered.map (·, v.retries answer)).toList }

/-- The lower layer accepts no more than it is offered. -/
def Possible (o : Sending R) : OutputCall W → Prop
  | .serviceConnected _ write error answer =>
    v.count answer ≤ ((offered v o.link.socket write error).getD []).length
  | _ => True

/-- What is accepted and what is left are what has been written. -/
def Accounted (o : Sending R) : Prop := o.accepted ++ o.link.socket.outputBuffer = o.written

/-- What has to be offered again is. -/
def Repeats (o : Sending R) : Prop := o.offers.IsChain fun first next => first.2 = true → next.1 = first.1

end Sending

namespace DataSocket

/-- The job in the multiplexer waits to write what there is. -/
def Waits (s : DataSocket) : Prop :=
  s.connected = true → s.writable = true → s.outputBuffer ≠ [] → s.job.any (·.write) = true

/-- What has not been given to the TLS library yet. -/
def retry (s : DataSocket) : Bool × Nat × Bytes := (s.writeRetry, s.writeRetrySize, s.writeBuffer)

/-- The output stays as it is, and a socket that is open remains so. -/
structure Unwritten (s t : DataSocket) : Prop where
  socket : t.socket = s.socket
  secureReady : t.secureReady = s.secureReady
  ssl : t.ssl = s.ssl
  outputBuffer : t.outputBuffer = s.outputBuffer
  retry : t.retry = s.retry
  fatal : s.fatal = true → t.fatal = true
  writable : s.writable = true → t.writable = true
  connected : s.writable = true → t.connected = s.connected
  disconnected : s.connected = false → t.connected = false

/-- The TLS library has not been called either. -/
structure Idle (s t : DataSocket) : Prop extends Unwritten s t where
  sameFatal : t.fatal = s.fatal
  sameWritable : t.writable = s.writable

variable {s t u : DataSocket}

theorem Unwritten.trans (h : Unwritten s t) (h' : Unwritten t u) : Unwritten s u where
  socket := h'.socket.trans h.socket
  secureReady := h'.secureReady.trans h.secureReady
  ssl := h'.ssl.trans h.ssl
  outputBuffer := h'.outputBuffer.trans h.outputBuffer
  retry := h'.retry.trans h.retry
  fatal := fun hs => h'.fatal (h.fatal hs)
  writable := fun hs => h'.writable (h.writable hs)
  connected := fun hs => (h'.connected (h.writable hs)).trans (h.connected hs)
  disconnected := fun hs => h'.disconnected (h.disconnected hs)

theorem Idle.trans (h : Idle s t) (h' : Idle t u) : Idle s u where
  toUnwritten := h.toUnwritten.trans h'.toUnwritten
  sameFatal := h'.sameFatal.trans h.sameFatal
  sameWritable := h'.sameWritable.trans h.sameWritable

/-- The members that tell whether a socket is open. -/
def life (s : DataSocket) : Bool × Bool × Option Ssl × Bool × Bool × Bool :=
  (s.socket, s.secureReady, s.ssl, s.fatal, s.writable, s.connected)

theorem Idle.of_eq (hlife : t.life = s.life) (hbuffer : t.outputBuffer = s.outputBuffer) (hretry : t.retry = s.retry) :
    Idle s t := by
  simp only [life, Prod.mk.injEq] at hlife
  obtain ⟨hsocket, hready, hssl, hfatal, hwritable, hconnected⟩ := hlife
  exact ⟨⟨hsocket, hready, hssl, hbuffer, hretry, hfatal.trans, hwritable.trans, fun _ => hconnected, hconnected.trans⟩,
    hfatal, hwritable⟩

theorem Idle.rfl : Idle s s := of_eq (Eq.refl _) (Eq.refl _) (Eq.refl _)

theorem Idle.ite {c : Prop} [Decidable c] (h : Idle s t) (h' : Idle s u) : Idle s (if c then t else u) := by
  split
  · exact h
  · exact h'

theorem idle_sendEvent (s : DataSocket) (event : EventTypes) : Idle s (s.sendEvent event) :=
  .of_eq (Eq.refl _) (Eq.refl _) (Eq.refl _)

/-- Only a socket that is no longer writable hangs up. -/
theorem idle_hangUp (h : s.writable = false) : Idle s s.hangUp where
  socket := Eq.refl _
  secureReady := Eq.refl _
  ssl := Eq.refl _
  outputBuffer := Eq.refl _
  retry := Eq.refl _
  fatal := id
  writable := id
  connected := fun hs => absurd (h.symm.trans hs) Bool.false_ne_true
  disconnected := fun _ => Eq.refl _
  sameFatal := Eq.refl _
  sameWritable := Eq.refl _

theorem idle_inputHungUp (s : DataSocket) : Idle s s.inputHungUp ∧ s.inputHungUp.job = s.job := by
  have hsent := idle_sendEvent s .streamInputShutdown
  unfold inputHungUp
  simp only
  split
  next h =>
    have hwritable : s.writable = false := by simpa [sendEvent, note] using (Bool.and_eq_true_iff.mp h).1
    exact ⟨(hsent.trans (idle_hangUp hwritable)).trans (.of_eq (Eq.refl _) (Eq.refl _) (Eq.refl _)), Eq.refl _⟩
  · exact ⟨.of_eq (Eq.refl _) (Eq.refl _) (Eq.refl _), Eq.refl _⟩

/-- A job that waited goes on waiting while the output stays as it is. -/
theorem Waits.unwritten (h : s.Waits) (hs : Unwritten s t) (hjob : t.job = s.job)
    (hopen : s.outputBuffer ≠ [] → s.writable = true) : t.Waits := by
  intro hconnected _ hsome
  rw [hs.outputBuffer] at hsome
  have hconnected' : s.connected = true := by
    by_contra hnot
    exact absurd (hconnected.symm.trans (hs.disconnected (eq_false_of_ne_true hnot))) (by decide)
  rw [hjob]
  exact h hconnected' (hopen hsome) hsome

end DataSocket

/-- A job made for the socket as it is now waits. -/
def Hires (newJob : DataSocket → Option SocketJob) (s : DataSocket) : Prop :=
  ∀ t : DataSocket, t.socket = s.socket → t.secureReady = s.secureReady → (t.setJob (newJob t)).Waits

namespace TCPSocket
variable {s t : DataSocket} {newJob : DataSocket → Option SocketJob}

theorem hires_newJob (hsocket : s.socket = true) : Hires TCPSocket.newJob s := by
  intro t hs _ hconnected hwritable hsome
  have hconnected : t.connected = true := hconnected
  have hwritable : t.writable = true := hwritable
  have hsome : t.outputBuffer ≠ [] := hsome
  simp [setJob, TCPSocket.newJob, hs, hsocket, hconnected, hwritable, hsome]

theorem write_life (newJob : DataSocket → Option SocketJob) (data : Bytes) (s : DataSocket) :
    (write newJob data s).life = s.life ∧ (write newJob data s).retry = s.retry := by
  unfold write
  simp only
  split_ifs
  · exact ⟨rfl, rfl⟩
  · exact ⟨rfl, rfl⟩
  · exact ⟨rfl, rfl⟩
  · exact ⟨rfl, rfl⟩

theorem write_accepted (hnew : Hires newJob s) (hwritable : s.writable = true) (hs : s.Waits) (data : Bytes) :
    (write newJob data s).outputBuffer = s.outputBuffer ++ data ∧ (write newJob data s).Waits := by
  rw [write, if_neg (by rw [hwritable]; decide)]
  by_cases hdata : data = []
  · rw [if_pos (by rw [hdata]; rfl), hdata, List.append_nil]
    exact ⟨rfl, hs⟩
  · rw [if_neg (by simpa using hdata)]
    by_cases hempty : s.outputBuffer = []
    · rw [if_pos (by rw [hempty]; rfl)]
      exact ⟨rfl, hnew _ rfl rfl⟩
    · rw [if_neg (by simpa using hempty)]
      exact ⟨rfl, fun hconnected hopen _ => hs hconnected hopen hempty⟩

theorem discardWrittenData_spec (s : DataSocket) (n : Nat) :
    (s.discardWrittenData n).life = s.life ∧ (s.discardWrittenData n).retry = s.retry ∧
      (s.discardWrittenData n).outputBuffer = s.outputBuffer.drop n := by
  unfold discardWrittenData
  simp only
  split
  · exact ⟨rfl, rfl, rfl⟩
  · exact ⟨rfl, rfl, rfl⟩

/-- What follows a service is a job that waits, unless the chain of jobs is broken off. -/
theorem nextJob_idle (hnew : Hires newJob s) {w r : JobResult} (hw : w ≠ .break) (hr : r ≠ .break)
    (hs : w = .retry → r = .retry → s.Waits) : Idle s (nextJob newJob w r s) ∧ (nextJob newJob w r s).Waits := by
  rw [nextJob, if_neg (not_or.mpr ⟨hr, hw⟩)]
  split
  · exact ⟨.of_eq rfl rfl rfl, hnew _ rfl rfl⟩
  next hsame =>
    obtain ⟨hw', hr'⟩ := not_or.mp hsame
    refine ⟨.rfl, hs ?_ ?_⟩
    · cases w with
      | «break» => exact absurd rfl hw
      | retry => rfl
      | new => exact absurd rfl hw'
    · cases r with
      | «break» => exact absurd rfl hr
      | retry => rfl
      | new => exact absurd rfl hr'

theorem serviceConnected_of_write {R : Type} {doRead : List R → DataSocket → Served R}
    {doWrite : DataSocket → DataSocket × Except ArchNetworkException JobResult} {write : Bool} {w : JobResult}
    (hw : tryWrite doWrite write s = (t, w)) (read : Bool) (incoming : List R) :
    serviceConnected newJob doRead doWrite read write false incoming s =
      (nextJob newJob w (tryRead doRead read incoming t).2.2 (tryRead doRead read incoming t).1,
        (tryRead doRead read incoming t).2.1) := by
  rw [serviceConnected, if_neg Bool.false_ne_true, hw]

/-- The output has been given up. -/
structure GivenUp (s t : DataSocket) : Prop where
  socket : t.socket = s.socket
  writable : t.writable = false
  outputBuffer : t.outputBuffer = []

theorem GivenUp.waits (h : GivenUp s t) : t.Waits := fun _ hwritable _ =>
  absurd (h.writable.symm.trans hwritable) Bool.false_ne_true

theorem announce_idle {R : Type} (wasEmpty : Bool) (served : Served R) :
    Idle served.socket (announce wasEmpty served).socket ∧
      (announce wasEmpty served).socket.job = served.socket.job ∧
      (served.result ≠ .ok .break → (announce wasEmpty served).result ≠ .ok .break) := by
  rcases served with ⟨t, rest, e | result⟩
  · exact ⟨.rfl, rfl, id⟩
  · unfold announce
    simp only
    refine ⟨.ite (idle_sendEvent t _) .rfl, ?_, fun _ => ?_⟩
    · split
      · rfl
      · rfl
    · split_ifs <;> nofun

/-- What is accepted and what is left are what was written, until the output is given up. -/
structure Counted (written accepted : Bytes) (s : DataSocket) : Prop where
  socket : s.socket = true
  accounted : s.writable = true → accepted ++ s.outputBuffer = written
  givenUp : s.writable = false → s.outputBuffer = []
  admitted : accepted <+: written

variable {written accepted : Bytes}

theorem Counted.idle (h : Counted written accepted s) (hs : Idle s t) : Counted written accepted t where
  socket := hs.socket.trans h.socket
  accounted := fun ht => by rw [hs.outputBuffer, h.accounted (hs.sameWritable.symm.trans ht)]
  givenUp := fun ht => hs.outputBuffer.trans (h.givenUp (hs.sameWritable.symm.trans ht))
  admitted := h.admitted

theorem Counted.discard (h : Counted written accepted s) (n : Nat) :
    Counted written (accepted ++ s.outputBuffer.take n) (s.discardWrittenData n) := by
  obtain ⟨hlife, -, hbuffer⟩ := discardWrittenData_spec s n
  simp only [life, Prod.mk.injEq] at hlife
  obtain ⟨hsocket, -, -, -, hwritable, -⟩ := hlife
  have haccounted (hs : s.writable = true) :
      accepted ++ s.outputBuffer.take n ++ s.outputBuffer.drop n = written := by
    rw [List.append_assoc, List.take_append_drop, h.accounted hs]
  refine ⟨hsocket.trans h.socket, fun hs => ?_, fun hs => ?_, ?_⟩
  · rw [hbuffer, haccounted (hwritable.symm.trans hs)]
  · rw [hbuffer, h.givenUp (hwritable.symm.trans hs), List.drop_nil]
  · cases hs : s.writable with
    | true => exact ⟨_, haccounted hs⟩
    | false =>
      rw [h.givenUp hs, List.take_nil, List.append_nil]
      exact h.admitted

/-- What holds of a plain socket between the calls. -/
structure Flows (o : Sending ArchRead) : Prop where
  counted : Counted o.written o.accepted o.link.socket
  waits : o.link.socket.Waits

end TCPSocket

end Synergy
