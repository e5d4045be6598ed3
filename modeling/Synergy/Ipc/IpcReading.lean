import Synergy.Ipc.IpcHandlers

/-! A batch of messages that arrives on one connection. When the last of them is the
first that is refused, the connection is over and nothing more is made of it. -/
namespace Synergy.Ipc
open IpcServer

def TooLong (data : Bytes) : Prop := kMaxIpcMessageBytes < data.length

instance (data : Bytes) : Decidable (TooLong data) := inferInstanceAs (Decidable (_ < _))

/-- Performing the command broadcasts. -/
def Announces (setup : IpcSetup) (command : Str) (parts : List Str) : Prop :=
  ∃ call ∈ setup.processCommand command parts, call.broadcasts = true

instance (setup : IpcSetup) (command : Str) (parts : List Str) : Decidable (Announces setup command parts) :=
  inferInstanceAs (Decidable (∃ call ∈ setup.processCommand command parts, call.broadcasts = true))

/-- What may follow a message that is refused: nothing that would be processed, and
no bytes to keep when the connection is gone at once. -/
def Final (rest : Bytes) (atOnce : Bool) : List Bytes → Prop
  | [] => atOnce = true → rest = [] ∨ TooLong rest
  | next :: _ => TooLong next

instance (rest : Bytes) (atOnce : Bool) : DecidablePred (Final rest atOnce)
  | [] => inferInstanceAs (Decidable (atOnce = true → rest = [] ∨ TooLong rest))
  | next :: _ => inferInstanceAs (Decidable (TooLong next))

/-- No message follows a refused one, and a command that broadcasts comes only when
all the peers are authenticated. -/
def Smooth (setup : IpcSetup) (rest : Bytes) (atOnce : Nat → Bool) (peers : Prop) : Bool → List Bytes → Prop
  | _, [] => True
  | authenticated, messageData :: left =>
    TooLong messageData ∨
      match judge setup authenticated (setup.fromUtf8 messageData) with
      | .refuse _ => Final rest (atOnce (left.length + 1)) left
      | .answer _ => Smooth setup rest atOnce peers authenticated left
      | .welcome => Smooth setup rest atOnce peers true left
      | .perform command parts =>
        (Announces setup command parts → peers) ∧ Smooth setup rest atOnce peers authenticated left

instance (setup : IpcSetup) (rest : Bytes) (atOnce : Nat → Bool) (peers : Prop) [Decidable peers] :
    ∀ authenticated left, Decidable (Smooth setup rest atOnce peers authenticated left)
  | _, [] => .isTrue trivial
  | authenticated, messageData :: left =>
    have := fun a => instDecidableSmooth setup rest atOnce peers a left
    match hj : judge setup authenticated (setup.fromUtf8 messageData) with
    | .refuse _ =>
      decidable_of_iff (TooLong messageData ∨ Final rest (atOnce (left.length + 1)) left) (by rw [Smooth, hj])
    | .answer _ =>
      decidable_of_iff (TooLong messageData ∨ Smooth setup rest atOnce peers authenticated left) (by rw [Smooth, hj])
    | .welcome =>
      decidable_of_iff (TooLong messageData ∨ Smooth setup rest atOnce peers true left) (by rw [Smooth, hj])
    | .perform command parts =>
      decidable_of_iff (TooLong messageData ∨
        (Announces setup command parts → peers) ∧ Smooth setup rest atOnce peers authenticated left) (by rw [Smooth, hj])

/-- What a connection's messages do: they are processed, and that is all that is
heard of it; the others are left alone. -/
structure Heard (setup : IpcSetup) (socket : Socket) (s t : IpcServer) (messages : List Str) : Prop where
  composed : Composed setup t
  aside : ∀ c, c ≠ socket → Aside setup c s t
  bytes : bytesOf socket t.notes = bytesOf socket s.notes
  messages : messagesOf socket t.notes = messagesOf socket s.notes ++ messages
  buffer : t.readBuffers socket = none

/-- The connection is there and has not been turned away. -/
structure Present (setup : IpcSetup) (s : IpcServer) (socket : Socket) : Prop where
  client : socket ∈ s.clients
  live : socket ∉ (ledger setup s.notes).ended

variable {setup : IpcSetup} {s t u : IpcServer} {socket c : Socket} {message : Str} {messages more : List Str}

theorem Heard.trans (h : Heard setup socket s t messages) (k : Heard setup socket t u more) :
    Heard setup socket s u (messages ++ more) where
  composed := k.composed
  aside := fun c hc => (h.aside c hc).trans (k.aside c hc)
  bytes := k.bytes.trans h.bytes
  messages := by rw [k.messages, h.messages, List.append_assoc]
  buffer := k.buffer

/-- Writing on after the messages. -/
theorem Heard.quiet (h : Heard setup socket s t messages) (k : Quiet setup t u) : Heard setup socket s u messages where
  composed := k.composed h.composed
  aside := fun c hc => (h.aside c hc).trans (k.aside c)
  bytes := (k.bytes socket).trans h.bytes
  messages := (k.messages socket).trans h.messages
  buffer := by rw [k.readBuffers, h.buffer]

theorem Heard.disconnectFromServer (h : Heard setup socket s t messages) (atOnce : Bool) :
    Heard setup socket s (t.disconnectFromServer socket atOnce) messages := by
  obtain ⟨-, hbytes, hmessages, -, hbuffer⟩ := disconnectFromServer_spec setup t socket atOnce
  constructor
  · exact composed_disconnectFromServer h.composed atOnce
  · exact fun c hc => (h.aside c hc).trans (aside_disconnectFromServer hc atOnce)
  · exact hbytes.trans h.bytes
  · exact hmessages.trans h.messages
  · exact hbuffer h.buffer

theorem Present.quiet (h : Present setup s socket) (k : Quiet setup s t) : Present setup t socket where
  client := by rw [k.clients]; exact h.client
  live := by rw [k.ledger]; exact h.live

/-- The message itself is noted, and a right hello is remembered. -/
private theorem processed_heard (hs : Composed setup s) (hp : Present setup s socket)
    (hbuffer : s.readBuffers socket = none) (message : Str) :
    Heard setup socket s (s.note (.processed socket message)) [message] ∧
      Present setup (s.note (.processed socket message)) socket := by
  have hhailed : (ledger setup s.notes).hailed ⊆
      ((ledger setup s.notes).next setup (.processed socket message)).hailed := by
    unfold IpcLedger.next
    dsimp only
    split
    · exact Finset.subset_insert _ _
    · exact Finset.Subset.refl _
  refine ⟨⟨?_, fun c hc => ?_, bytesOf_note socket, ?_, hbuffer⟩, hp.client, ?_⟩
  · exact composed_note hs hp.live rfl rfl hhailed
  · exact aside_note .rfl (fun _ => rfl) (fun _ => if_neg (Ne.symm hc))
  · exact (messagesOf_note socket).trans (if_pos rfl)
  · rw [ledger_note]
    exact hp.live

/-- What the calls of a command write. -/
private theorem runCalls_quiet (calls : List CommandCall) (hs : Composed setup s) (hsome : s.clients ≠ ∅)
    (hclear : (∃ call ∈ calls, call.broadcasts = true) → s.clients ⊆ s.authenticated) :
    Quiet setup s (calls.foldl (runCall socket) s) := by
  induction calls generalizing s with
  | nil => exact .refl s
  | cons call calls ih =>
    have hq : Quiet setup s (runCall socket s call) := by
      cases call with
      | write message => exact .writeToClientSocket s socket message
      | broadcast command args =>
        refine broadcastCommand_quiet hs hsome (hclear ?_) command args
        exact ⟨_, List.mem_cons_self, rfl⟩
    refine hq.trans (ih (hq.composed hs) (by rw [hq.clients]; exact hsome) ?_)
    rintro ⟨later, hmem, hlater⟩
    rw [hq.clients, hq.authenticated]
    exact hclear ⟨later, List.mem_cons_of_mem _ hmem, hlater⟩

private theorem processCommand_quiet {command : Str} {parts : List Str} (hs : Composed setup s)
    (hp : Present setup s socket) (hauth : socket ∈ s.authenticated)
    (hclear : Announces setup command parts → s.clients ⊆ s.authenticated) :
    Quiet setup s (s.processCommand setup socket command parts) := by
  have hq : Quiet setup s (s.note (.command socket command parts)) :=
    .note ⟨hs.hailed hauth, hp.live⟩ rfl (fun _ _ => rfl) (fun _ _ => rfl)
  exact hq.trans (runCalls_quiet _ (hq.composed hs) (Finset.ne_empty_of_mem hp.client) hclear)

/-- A message that is refused ends the connection. -/
theorem processMessage_refused {answer : Str} (hs : Composed setup s) (hp : Present setup s socket)
    (hbuffer : s.readBuffers socket = none) (atOnce : Bool)
    (hv : judge setup (decide (socket ∈ s.authenticated)) message = .refuse answer) :
    let t := s.processMessage setup socket message atOnce
    Heard setup socket s t [message] ∧ socket ∈ (ledger setup t.notes).ended ∧
      (atOnce = false → socket ∈ t.clients) := by
  obtain ⟨hheard, hpresent⟩ := processed_heard hs hp hbuffer message
  have hq : Quiet setup _ _ := .writeToClientSocket (s.note (.processed socket message)) socket answer
  dsimp only
  rw [processMessage_eq, hv]
  obtain ⟨hended, -, -, hclient, -⟩ := disconnectFromServer_spec setup
    ((s.note (.processed socket message)).writeToClientSocket socket answer) socket atOnce
  exact ⟨(hheard.quiet hq).disconnectFromServer atOnce, hended, hclient (hpresent.quiet hq).client⟩

/-- A message that is not refused leaves the connection where it is, or welcomed. -/
structure Taken (setup : IpcSetup) (socket : Socket) (s t : IpcServer) (welcome : Bool) : Prop where
  present : Present setup t socket
  clients : t.clients = s.clients
  authenticated : t.authenticated = if welcome then insert socket s.authenticated else s.authenticated

theorem processMessage_answered {answer : Str} (hs : Composed setup s) (hp : Present setup s socket)
    (hbuffer : s.readBuffers socket = none) (atOnce : Bool)
    (hv : judge setup (decide (socket ∈ s.authenticated)) message = .answer answer) :
    let t := s.processMessage setup socket message atOnce
    Heard setup socket s t [message] ∧ Taken setup socket s t false := by
  obtain ⟨hheard, hpresent⟩ := processed_heard hs hp hbuffer message
  have hq : Quiet setup _ _ := .writeToClientSocket (s.note (.processed socket message)) socket answer
  dsimp only
  rw [processMessage_eq, hv]
  exact ⟨hheard.quiet hq, ⟨hpresent.quiet hq, hq.clients, hq.authenticated⟩⟩

theorem processMessage_performed {command : Str} {parts : List Str} (hs : Composed setup s)
    (hp : Present setup s socket) (hbuffer : s.readBuffers socket = none) (atOnce : Bool)
    (hv : judge setup (decide (socket ∈ s.authenticated)) message = .perform command parts)
    (hclear : Announces setup command parts → s.clients ⊆ insert socket s.authenticated) :
    let t := s.processMessage setup socket message atOnce
    Heard setup socket s t [message] ∧ Taken setup socket s t false := by
  have hauth : socket ∈ s.authenticated := authenticated_of_perform hv
  rw [Finset.insert_eq_of_mem hauth] at hclear
  obtain ⟨hheard, hpresent⟩ := processed_heard hs hp hbuffer message
  have hq := processCommand_quiet hheard.composed hpresent hauth hclear
  dsimp only
  rw [processMessage_eq, hv]
  exact ⟨hheard.quiet hq, ⟨hpresent.quiet hq, hq.clients, hq.authenticated⟩⟩

theorem processMessage_welcomed (hs : Composed setup s) (hp : Present setup s socket)
    (hbuffer : s.readBuffers socket = none) (atOnce : Bool)
    (hv : judge setup (decide (socket ∈ s.authenticated)) message = .welcome) :
    let t := s.processMessage setup socket message atOnce
    Heard setup socket s t [message] ∧ Taken setup socket s t true := by
  obtain ⟨hheard, hpresent⟩ := processed_heard hs hp hbuffer message
  have hhailed : socket ∈ (ledger setup (s.note (.processed socket message)).notes).hailed := by
    rw [ledger_note]
    unfold IpcLedger.next
    dsimp only
    rw [if_pos (hello_of_welcome hv)]
    exact Finset.mem_insert_self _ _
  dsimp only
  rw [processMessage_eq, hv]
  have hu := hheard.composed
  have hauth : (s.note (.processed socket message)).authenticated = s.authenticated := rfl
  have hclients : (s.note (.processed socket message)).clients = s.clients := rfl
  generalize s.note (.processed socket message) = u at hheard hpresent hhailed hu hauth hclients ⊢
  have hledger : ledger setup (u.settle setup socket atOnce .welcome).notes =
      { ledger setup u.notes with served := insert socket (ledger setup u.notes).served, owed := [] } := by
    refine (ledger_note (s := u.note (.wrote socket _))).trans ?_
    rw [ledger_note]
    rfl
  have hnote : Orderly setup .blank (u.settle setup socket atOnce .welcome).notes := by
    refine (orderly_note (s := u.note (.wrote socket _))).mpr ⟨orderly_note.mpr ⟨hu.orderly, trivial⟩, ?_⟩
    rw [ledger_note]
    exact ⟨hhailed, hpresent.live, hu.kept⟩
  refine ⟨⟨⟨?_, hu.buffered, hnote, ?_, ?_, ?_, ?_⟩, fun c hc => (hheard.aside c hc).trans ?_, ?_, ?_, hheard.buffer⟩,
    ⟨hpresent.client, ?_⟩, hclients, congrArg (insert socket) hauth⟩
  · exact Finset.insert_subset hpresent.client hu.known
  · rw [hledger]
    exact congrArg (insert socket) hu.served
  · rw [hledger]
    exact (List.rtake_nil _).symm
  · rw [hledger]
    exact Finset.insert_subset hhailed hu.hailed
  · rw [hledger]
    exact fun _ => rfl
  · refine ⟨.rfl, ?_, by rw [hledger], rfl, ?_, ?_⟩
    · exact Finset.mem_insert.trans (or_iff_right hc)
    · exact (bytesOf_note (s := u.note (.wrote socket _)) c).trans (bytesOf_note c)
    · exact (messagesOf_note (s := u.note (.wrote socket _)) c).trans (messagesOf_note c)
  · refine Eq.trans ?_ hheard.bytes
    exact (bytesOf_note (s := u.note (.wrote socket _)) socket).trans (bytesOf_note socket)
  · refine Eq.trans ?_ hheard.messages
    exact (messagesOf_note (s := u.note (.wrote socket _)) socket).trans (messagesOf_note socket)
  · rw [hledger]
    exact hpresent.live

/-- How the loop leaves the connection. -/
def Left (setup : IpcSetup) (socket : Socket) (rest : Bytes) (t : Bool × IpcServer) : Option Bool → Prop
  | some now => t.1 = true ∧ Present setup t.2 socket ∧ decide (socket ∈ t.2.authenticated) = now
  | none =>
    socket ∈ (ledger setup t.2.notes).ended ∧ (t.1 = true → socket ∈ t.2.clients ∨ rest = [] ∨ TooLong rest)

theorem readMessages_tooLong {messageData : Bytes} (rest : Bytes) (left : List Bytes) (atOnce : Nat → Bool)
    (h : Heard setup socket t s messages) (hlong : TooLong messageData) :
    let read := readMessages setup socket atOnce (messageData :: left) s
    Heard setup socket t read.2 messages ∧ Left setup socket rest read none := by
  rw [readMessages, if_pos (show kMaxIpcMessageBytes < messageData.length from hlong)]
  have hset : Heard setup socket t (s.setBuffer socket none) messages := by
    refine ⟨composed_setBuffer h.composed (absurd rfl), fun c hc => ?_, h.bytes, h.messages, setBuffer_self _ _ _⟩
    exact (h.aside c hc).trans (aside_setBuffer hc none)
  refine ⟨hset.disconnectFromServer _, (disconnectFromServer_spec _ _ _ _).1, fun h => ?_⟩
  cases h

/-- The whole batch, from any state in which the connection is there. -/
theorem readMessages_spec {rest : Bytes} {atOnce : Nat → Bool} {peers : Prop} (left : List Bytes)
    (hs : Composed setup s) (hp : Present setup s socket) (hbuffer : s.readBuffers socket = none)
    (hsmooth : Smooth setup rest atOnce peers (decide (socket ∈ s.authenticated)) left)
    (hpeers : peers → s.clients ⊆ insert socket s.authenticated) :
    let read := readMessages setup socket atOnce left s
    Heard setup socket s read.2 (converse setup (decide (socket ∈ s.authenticated)) left) ∧
      Left setup socket rest read (after setup (decide (socket ∈ s.authenticated)) left) := by
  have hnone : ∀ s, Composed setup s → s.readBuffers socket = none → Heard setup socket s s [] :=
    fun s hs hb => ⟨hs, fun c _ => .refl s, rfl, (List.append_nil _).symm, hb⟩
  induction left generalizing s with
  | nil => exact ⟨hnone s hs hbuffer, rfl, hp, rfl⟩
  | cons messageData left ih =>
    by_cases hlong : kMaxIpcMessageBytes < messageData.length
    · rw [converse, after, if_pos hlong, if_pos hlong]
      exact readMessages_tooLong _ _ atOnce (hnone s hs hbuffer) hlong
    · have hnow := hsmooth.resolve_left hlong
      rw [converse, after, readMessages, if_neg hlong, if_neg hlong, if_neg hlong]
      -- what follows a message that is not refused is the loop again, from the state it leaves
      have hgo : ∀ {t : IpcServer} {welcome : Bool},
          Heard setup socket s t [setup.fromUtf8 messageData] → Taken setup socket s t welcome →
          Smooth setup rest atOnce peers (decide (socket ∈ t.authenticated)) left →
          let read := readMessages setup socket atOnce left t
          Heard setup socket s read.2
              (setup.fromUtf8 messageData :: converse setup (decide (socket ∈ t.authenticated)) left) ∧
            Left setup socket rest read (after setup (decide (socket ∈ t.authenticated)) left) := by
        intro t welcome hheard htaken hsmooth
        have hsub : s.authenticated ⊆ t.authenticated := by
          rw [htaken.authenticated]
          split
          · exact Finset.subset_insert _ _
          · exact Finset.Subset.refl _
        obtain ⟨hrest, hleft⟩ := ih hheard.composed htaken.present hheard.buffer hsmooth fun hall => by
          rw [htaken.clients]
          exact (hpeers hall).trans (Finset.insert_subset_insert _ hsub)
        exact ⟨hheard.trans hrest, hleft⟩
      cases hv : judge setup (decide (socket ∈ s.authenticated)) (setup.fromUtf8 messageData) with
      | refuse answer =>
        obtain ⟨hheard, hended, hclient⟩ :=
          processMessage_refused hs hp hbuffer (atOnce (left.length + 1)) hv
        rw [hv] at hnow
        cases left with
        | nil =>
          refine ⟨hheard, hended, fun _ => ?_⟩
          rcases Bool.eq_false_or_eq_true (atOnce (([] : List Bytes).length + 1)) with hat | hat
          · exact .inr (hnow hat)
          · exact .inl (hclient hat)
        | cons next left => exact readMessages_tooLong _ _ atOnce hheard hnow
      | answer answer =>
        obtain ⟨hheard, htaken⟩ := processMessage_answered hs hp hbuffer (atOnce (left.length + 1)) hv
        rw [hv] at hnow
        have hsame : (s.processMessage setup socket (setup.fromUtf8 messageData)
            (atOnce (left.length + 1))).authenticated = s.authenticated := htaken.authenticated
        have h := hgo hheard htaken
        rw [hsame] at h
        exact h hnow
      | welcome =>
        obtain ⟨hheard, htaken⟩ := processMessage_welcomed hs hp hbuffer (atOnce (left.length + 1)) hv
        rw [hv] at hnow
        have hin : decide (socket ∈ (s.processMessage setup socket (setup.fromUtf8 messageData)
            (atOnce (left.length + 1))).authenticated) = true := by
          rw [htaken.authenticated]
          exact decide_eq_true (Finset.mem_insert_self _ _)
        have h := hgo hheard htaken
        rw [hin] at h
        exact h hnow
      | perform command parts =>
        rw [hv] at hnow
        obtain ⟨hheard, htaken⟩ := processMessage_performed hs hp hbuffer (atOnce (left.length + 1)) hv
          fun ha => hpeers (hnow.1 ha)
        have hsame : (s.processMessage setup socket (setup.fromUtf8 messageData)
            (atOnce (left.length + 1))).authenticated = s.authenticated := htaken.authenticated
        have h := hgo hheard htaken
        rw [hsame] at h
        exact h hnow.2

end Synergy.Ipc
