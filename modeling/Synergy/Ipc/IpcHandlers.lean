import Mathlib.Data.List.DropRight
import Synergy.Ipc.Conversations

/-! What the notes of the server commit it to: which connections it may serve, and
which broadcasts it still owes to the first one that it welcomes. -/
namespace Synergy.Ipc
open IpcServer

structure IpcLedger where
  /-- Those whose hello carried the version and the token. -/
  hailed : Finset Socket
  /-- Those that have been welcomed. -/
  served : Finset Socket
  /-- Those that have been rejected or disconnected. -/
  ended : Finset Socket
  /-- The broadcasts made while nobody was served. -/
  owed : List Str

namespace IpcLedger

def blank : IpcLedger := ⟨∅, ∅, ∅, []⟩

def Admits (l : IpcLedger) : IpcNote → Prop
  | .processed socket _ => socket ∉ l.ended
  | .command socket _ _ => socket ∈ l.hailed ∧ socket ∉ l.ended
  | .broadcast sockets _ => sockets ⊆ l.hailed
  | .welcomed socket replayed =>
    socket ∈ l.hailed ∧ socket ∉ l.ended ∧ replayed = l.owed.rtake kMaxPendingIpcMessages
  | _ => True

instance (l : IpcLedger) : DecidablePred l.Admits
  | .processed socket _ => inferInstanceAs (Decidable (socket ∉ l.ended))
  | .command socket _ _ => inferInstanceAs (Decidable (socket ∈ l.hailed ∧ socket ∉ l.ended))
  | .broadcast sockets _ => inferInstanceAs (Decidable (sockets ⊆ l.hailed))
  | .welcomed socket replayed => inferInstanceAs (Decidable (socket ∈ l.hailed ∧ socket ∉ l.ended ∧
      replayed = l.owed.rtake kMaxPendingIpcMessages))
  | .opened _ | .received _ _ | .wrote _ _ | .announced _ | .rejected _ | .closed _ => .isTrue trivial

def next (setup : IpcSetup) (l : IpcLedger) : IpcNote → IpcLedger
  | .opened socket =>
    { l with hailed := l.hailed.erase socket, served := l.served.erase socket, ended := l.ended.erase socket }
  | .processed socket message =>
    { l with hailed := if Hello setup message then insert socket l.hailed else l.hailed }
  | .welcomed socket _ => { l with served := insert socket l.served, owed := [] }
  | .announced message => if l.served = ∅ then { l with owed := l.owed ++ [message] } else l
  | .rejected socket => { l with ended := insert socket l.ended }
  | .closed socket =>
    { l with
      hailed := l.hailed.erase socket, served := l.served.erase socket, ended := insert socket l.ended }
  | _ => l

end IpcLedger

def ledger (setup : IpcSetup) (notes : List IpcNote) : IpcLedger := notes.foldl (IpcLedger.next setup) .blank

/-- Every note is one that the ledger admits after the notes before it. -/
def Orderly (setup : IpcSetup) : IpcLedger → List IpcNote → Prop
  | _, [] => True
  | l, entry :: notes => l.Admits entry ∧ Orderly setup (l.next setup entry) notes

instance (setup : IpcSetup) : ∀ l notes, Decidable (Orderly setup l notes)
  | _, [] => .isTrue trivial
  | l, entry :: notes =>
    have : Decidable (Orderly setup (l.next setup entry) notes) := instDecidableOrderly setup _ notes
    inferInstanceAs (Decidable (l.Admits entry ∧ Orderly setup (l.next setup entry) notes))

def hear (socket : Socket) (bytes : Bytes) : IpcNote → Bytes
  | .opened c => if c = socket then [] else bytes
  | .received c more => if c = socket then bytes ++ more else bytes
  | _ => bytes

/-- The bytes that have arrived on a connection since it was opened. -/
def bytesOf (socket : Socket) (notes : List IpcNote) : Bytes := notes.foldl (hear socket) []

def attend (socket : Socket) (messages : List Str) : IpcNote → List Str
  | .opened c => if c = socket then [] else messages
  | .processed c message => if c = socket then messages ++ [message] else messages
  | _ => messages

/-- The messages of a connection that have been processed since it was opened. -/
def messagesOf (socket : Socket) (notes : List IpcNote) : List Str := notes.foldl (attend socket) []

variable {setup : IpcSetup} {l : IpcLedger} {s : IpcServer} {notes : List IpcNote} {entry : IpcNote}

@[simp] theorem ledger_note : ledger setup (s.note entry).notes = (ledger setup s.notes).next setup entry :=
  List.foldl_concat ..

@[simp] theorem bytesOf_note (c : Socket) : bytesOf c (s.note entry).notes = hear c (bytesOf c s.notes) entry :=
  List.foldl_concat ..

@[simp] theorem messagesOf_note (c : Socket) :
    messagesOf c (s.note entry).notes = attend c (messagesOf c s.notes) entry :=
  List.foldl_concat ..

private theorem orderly_concat_from : Orderly setup l (notes ++ [entry]) ↔
    Orderly setup l notes ∧ (notes.foldl (IpcLedger.next setup) l).Admits entry := by
  induction notes generalizing l with
  | nil => simp [Orderly]
  | cons first notes ih => rw [List.cons_append, Orderly, Orderly, ih, List.foldl_cons, and_assoc]

theorem orderly_note : Orderly setup .blank (s.note entry).notes ↔
    Orderly setup .blank s.notes ∧ (ledger setup s.notes).Admits entry :=
  orderly_concat_from

/-- What the server promises: it knows the connections it keeps data of, serves
only those whose hello was right and none that it has turned away, keeps the last
broadcasts that nobody was there for until it replays them, and processes of each
connection the messages that its bytes hold. -/
structure Serving (setup : IpcSetup) (s : IpcServer) : Prop where
  known : s.authenticated ⊆ s.clients
  buffered : ∀ c, s.readBuffers c ≠ none → c ∈ s.clients
  orderly : Orderly setup .blank s.notes
  served : (ledger setup s.notes).served = s.authenticated
  kept : s.pendingMessages = (ledger setup s.notes).owed.rtake kMaxPendingIpcMessages
  whole : ∀ c, messagesOf c s.notes = conversation setup (bytesOf c s.notes)

/-- What holds of the server at all times, also between the messages of one batch. -/
structure Composed (setup : IpcSetup) (s : IpcServer) : Prop where
  known : s.authenticated ⊆ s.clients
  buffered : ∀ c, s.readBuffers c ≠ none → c ∈ s.clients
  orderly : Orderly setup .blank s.notes
  served : (ledger setup s.notes).served = s.authenticated
  kept : s.pendingMessages = (ledger setup s.notes).owed.rtake kMaxPendingIpcMessages
  hailed : s.authenticated ⊆ (ledger setup s.notes).hailed
  settled : s.authenticated ≠ ∅ → (ledger setup s.notes).owed = []

/-- Nothing of this connection changes. -/
structure Aside (setup : IpcSetup) (c : Socket) (s t : IpcServer) : Prop where
  clients : c ∈ t.clients ↔ c ∈ s.clients
  authenticated : c ∈ t.authenticated ↔ c ∈ s.authenticated
  ended : c ∈ (ledger setup t.notes).ended ↔ c ∈ (ledger setup s.notes).ended
  buffer : t.readBuffers c = s.readBuffers c
  bytes : bytesOf c t.notes = bytesOf c s.notes
  messages : messagesOf c t.notes = messagesOf c s.notes

/-- Something is written, and nothing else changes. -/
structure Quiet (setup : IpcSetup) (s t : IpcServer) : Prop where
  clients : t.clients = s.clients
  authenticated : t.authenticated = s.authenticated
  readBuffers : t.readBuffers = s.readBuffers
  pendingMessages : t.pendingMessages = s.pendingMessages
  ledger : ledger setup t.notes = ledger setup s.notes
  bytes : ∀ c, bytesOf c t.notes = bytesOf c s.notes
  messages : ∀ c, messagesOf c t.notes = messagesOf c s.notes
  orderly : Orderly setup .blank s.notes → Orderly setup .blank t.notes

variable {c : Socket} {t u : IpcServer}

namespace Aside

theorem refl (s : IpcServer) : Aside setup c s s := ⟨.rfl, .rfl, .rfl, rfl, rfl, rfl⟩

theorem trans (h : Aside setup c s t) (k : Aside setup c t u) : Aside setup c s u where
  clients := k.clients.trans h.clients
  authenticated := k.authenticated.trans h.authenticated
  ended := k.ended.trans h.ended
  buffer := k.buffer.trans h.buffer
  bytes := k.bytes.trans h.bytes
  messages := k.messages.trans h.messages

end Aside

namespace Quiet

theorem refl (s : IpcServer) : Quiet setup s s := ⟨rfl, rfl, rfl, rfl, rfl, fun _ => rfl, fun _ => rfl, id⟩

theorem trans (h : Quiet setup s t) (k : Quiet setup t u) : Quiet setup s u where
  clients := k.clients.trans h.clients
  authenticated := k.authenticated.trans h.authenticated
  readBuffers := k.readBuffers.trans h.readBuffers
  pendingMessages := k.pendingMessages.trans h.pendingMessages
  ledger := k.ledger.trans h.ledger
  bytes := fun c => (k.bytes c).trans (h.bytes c)
  messages := fun c => (k.messages c).trans (h.messages c)
  orderly := fun ho => k.orderly (h.orderly ho)

theorem aside (h : Quiet setup s t) (c : Socket) : Aside setup c s t where
  clients := by rw [h.clients]
  authenticated := by rw [h.authenticated]
  ended := by rw [h.ledger]
  buffer := by rw [h.readBuffers]
  bytes := h.bytes c
  messages := h.messages c

theorem composed (h : Quiet setup s t) (hs : Composed setup s) : Composed setup t where
  known := by rw [h.authenticated, h.clients]; exact hs.known
  buffered := by rw [h.readBuffers, h.clients]; exact hs.buffered
  orderly := h.orderly hs.orderly
  served := by rw [h.ledger, h.authenticated]; exact hs.served
  kept := by rw [h.ledger, h.pendingMessages]; exact hs.kept
  hailed := by rw [h.ledger, h.authenticated]; exact hs.hailed
  settled := by rw [h.ledger, h.authenticated]; exact hs.settled

/-- A note that the ledger admits and takes nothing from. -/
theorem note (hadmits : (Ipc.ledger setup s.notes).Admits entry)
    (hnext : (Ipc.ledger setup s.notes).next setup entry = Ipc.ledger setup s.notes)
    (hhear : ∀ c bytes, hear c bytes entry = bytes) (hattend : ∀ c messages, attend c messages entry = messages) :
    Quiet setup s (s.note entry) where
  clients := rfl
  authenticated := rfl
  readBuffers := rfl
  pendingMessages := rfl
  ledger := ledger_note.trans hnext
  bytes := fun c => (bytesOf_note c).trans (hhear c _)
  messages := fun c => (messagesOf_note c).trans (hattend c _)
  orderly := fun ho => orderly_note.mpr ⟨ho, hadmits⟩

theorem writeToClientSocket (s : IpcServer) (socket : Socket) (message : Str) :
    Quiet setup s (s.writeToClientSocket socket message) :=
  note trivial rfl (fun _ _ => rfl) (fun _ _ => rfl)

end Quiet
end Synergy.Ipc

/-! Each handler of the server against its ledger: what it does to the connection it
is about, and that it leaves the others alone. -/
namespace Synergy.Ipc
open IpcServer
variable {setup : IpcSetup} {s t : IpcServer} {socket c : Socket} {entry : IpcNote}

/-- A note that says nothing of who is there. -/
theorem composed_note (hs : Composed setup s) (hadmits : (ledger setup s.notes).Admits entry)
    (hserved : ((ledger setup s.notes).next setup entry).served = (ledger setup s.notes).served)
    (howed : ((ledger setup s.notes).next setup entry).owed = (ledger setup s.notes).owed)
    (hhailed : (ledger setup s.notes).hailed ⊆ ((ledger setup s.notes).next setup entry).hailed) :
    Composed setup (s.note entry) where
  known := hs.known
  buffered := hs.buffered
  orderly := orderly_note.mpr ⟨hs.orderly, hadmits⟩
  served := by rw [ledger_note, hserved, hs.served, note_authenticated]
  kept := by rw [ledger_note, howed]; exact hs.kept
  hailed := by rw [ledger_note]; exact hs.hailed.trans hhailed
  settled := by rw [ledger_note, howed]; exact hs.settled

theorem aside_note (hended : c ∈ ((ledger setup s.notes).next setup entry).ended ↔
      c ∈ (ledger setup s.notes).ended)
    (hhear : ∀ bytes, hear c bytes entry = bytes) (hattend : ∀ messages, attend c messages entry = messages) :
    Aside setup c s (s.note entry) where
  clients := .rfl
  authenticated := .rfl
  ended := by rw [ledger_note, hended]
  buffer := rfl
  bytes := (bytesOf_note c).trans (hhear _)
  messages := (messagesOf_note c).trans (hattend _)

section SetBuffer

theorem composed_setBuffer {data : Option Bytes} (hs : Composed setup s) (hc : data ≠ none → socket ∈ s.clients) :
    Composed setup (s.setBuffer socket data) where
  known := hs.known
  buffered := by
    intro c hb
    by_cases h : c = socket
    · subst h
      refine hc fun hn => hb ?_
      rw [hn]
      exact if_pos rfl
    · refine hs.buffered c fun hn => hb ?_
      exact (if_neg h).trans hn
  orderly := hs.orderly
  served := hs.served
  kept := hs.kept
  hailed := hs.hailed
  settled := hs.settled

theorem aside_setBuffer (hc : c ≠ socket) (data : Option Bytes) : Aside setup c s (s.setBuffer socket data) where
  clients := .rfl
  authenticated := .rfl
  ended := .rfl
  buffer := if_neg hc
  bytes := rfl
  messages := rfl

end SetBuffer

section Connections

theorem composed_handleNewConnection (hs : Composed setup s) (hnew : socket ∉ s.clients) :
    Composed setup (s.handleNewConnection socket) := by
  have hout : socket ∉ s.authenticated := fun h => hnew (hs.known h)
  have hledger : ledger setup (s.handleNewConnection socket).notes =
      (ledger setup s.notes).next setup (.opened socket) := ledger_note
  constructor
  · exact hs.known.trans (Finset.subset_insert _ _)
  · exact fun c hb => Finset.mem_insert_of_mem (hs.buffered c hb)
  · exact orderly_note.mpr ⟨hs.orderly, trivial⟩
  · rw [hledger]
    change (ledger setup s.notes).served.erase socket = s.authenticated
    rw [hs.served, Finset.erase_eq_of_notMem hout]
  · rw [hledger]
    exact hs.kept
  · rw [hledger]
    intro c hc
    exact Finset.mem_erase.mpr ⟨fun he => hout (he ▸ hc), hs.hailed hc⟩
  · rw [hledger]
    exact hs.settled

theorem aside_handleNewConnection (hc : c ≠ socket) : Aside setup c s (s.handleNewConnection socket) where
  clients := by simp [handleNewConnection, hc]
  authenticated := .rfl
  ended := by simp [handleNewConnection, IpcLedger.next, hc]
  buffer := rfl
  bytes := by simp [handleNewConnection, hear, hc.symm]
  messages := by simp [handleNewConnection, attend, hc.symm]

theorem composed_forget (hs : Composed setup s) : Composed setup (s.forget socket) := by
  have hledger : ledger setup (s.forget socket).notes = (ledger setup s.notes).next setup (.closed socket) :=
    ledger_note
  constructor
  · exact Finset.erase_subset_erase socket hs.known
  · intro c hb
    have hne : c ≠ socket := by
      rintro rfl
      exact hb (setBuffer_self _ _ _)
    exact Finset.mem_erase.mpr ⟨hne, hs.buffered c fun hn => hb ((if_neg hne).trans hn)⟩
  · exact orderly_note.mpr ⟨hs.orderly, trivial⟩
  · rw [hledger]
    exact congrArg (Finset.erase · socket) hs.served
  · rw [hledger]
    exact hs.kept
  · rw [hledger]
    exact Finset.erase_subset_erase socket hs.hailed
  · rw [hledger]
    intro hne
    refine hs.settled fun h0 => hne ?_
    exact (congrArg (Finset.erase · socket) h0).trans (Finset.erase_empty socket)

theorem aside_forget (hc : c ≠ socket) : Aside setup c s (s.forget socket) where
  clients := by simp [forget, hc]
  authenticated := by simp [forget, hc]
  ended := by simp [forget, IpcLedger.next, hc]
  buffer := if_neg hc
  bytes := by simp [forget, hear]
  messages := by simp [forget, attend]

theorem composed_disconnectFromServer (hs : Composed setup s) (atOnce : Bool) :
    Composed setup (s.disconnectFromServer socket atOnce) := by
  have hr : Composed setup (s.note (.rejected socket)) :=
    composed_note hs trivial rfl rfl (Finset.Subset.refl _)
  unfold disconnectFromServer
  dsimp only
  split
  · exact composed_forget hr
  · exact hr

theorem aside_disconnectFromServer (hc : c ≠ socket) (atOnce : Bool) :
    Aside setup c s (s.disconnectFromServer socket atOnce) := by
  have hr : Aside setup c s (s.note (.rejected socket)) := by
    refine aside_note ?_ (fun _ => rfl) (fun _ => rfl)
    exact Finset.mem_insert.trans (or_iff_right hc)
  unfold disconnectFromServer
  dsimp only
  split
  · exact hr.trans (aside_forget hc)
  · exact hr

/-- The connection itself is over, and is gone when that is reported at once. -/
theorem disconnectFromServer_spec (setup : IpcSetup) (s : IpcServer) (socket : Socket) (atOnce : Bool) :
    let t := s.disconnectFromServer socket atOnce
    socket ∈ (ledger setup t.notes).ended ∧ bytesOf socket t.notes = bytesOf socket s.notes ∧
      messagesOf socket t.notes = messagesOf socket s.notes ∧
      (socket ∈ s.clients → atOnce = false → socket ∈ t.clients) ∧
      (s.readBuffers socket = none → t.readBuffers socket = none) := by
  unfold disconnectFromServer
  dsimp only
  split
  · next h =>
    refine ⟨?_, ?_, ?_, fun _ hn => absurd h.1 (by simp [hn]), fun _ => setBuffer_self _ _ _⟩
    · simp [handleDisconnected, forget, IpcLedger.next]
    · simp [handleDisconnected, forget, hear]
    · simp [handleDisconnected, forget, attend]
  · refine ⟨?_, ?_, ?_, fun hc _ => hc, id⟩
    · simp [IpcLedger.next]
    · simp [hear]
    · simp [attend]

end Connections

section Broadcasts

/-- One more message, and the oldest goes when there would be too many. -/
private theorem rtake_kept (owed : List Str) (message : Str) :
    (if kMaxPendingIpcMessages ≤ (owed.rtake kMaxPendingIpcMessages).length then
        (owed.rtake kMaxPendingIpcMessages).tail
      else owed.rtake kMaxPendingIpcMessages) ++ [message] =
      (owed ++ [message]).rtake kMaxPendingIpcMessages := by
  rw [show kMaxPendingIpcMessages = 31 + 1 from rfl, List.rtake_concat_succ]
  congr 1
  unfold List.rtake
  by_cases h : 32 ≤ owed.length
  · rw [if_pos (by rw [List.length_drop]; omega), List.tail_drop]
    congr 1
    omega
  · rw [if_neg (by rw [List.length_drop]; omega)]
    congr 1
    omega

/-- While somebody is there and everybody there is authenticated, a broadcast is written and that is all. -/
theorem broadcastCommand_quiet (hs : Composed setup s) (hsome : s.clients ≠ ∅)
    (hclear : s.clients ⊆ s.authenticated) (command args : Str) :
    Quiet setup s (s.broadcastCommand command args) := by
  have hserved : (ledger setup s.notes).served ≠ ∅ := by
    rw [hs.served]
    exact fun h0 => hsome (Finset.subset_empty.mp (h0 ▸ hclear))
  unfold broadcastCommand
  dsimp only
  rw [note_clients, if_neg hsome]
  have hannounced : ∀ message, Quiet setup s (s.note (.announced message)) := fun message =>
    .note trivial (if_neg hserved) (fun _ _ => rfl) (fun _ _ => rfl)
  refine (hannounced _).trans (.note ?_ rfl (fun _ _ => rfl) (fun _ _ => rfl))
  change s.clients ⊆ _
  rw [(hannounced _).ledger]
  exact hclear.trans hs.hailed

theorem broadcastCommand_spec (hs : Composed setup s) (hclear : s.clients ⊆ s.authenticated)
    (command args : Str) :
    Composed setup (s.broadcastCommand command args) ∧ ∀ c, Aside setup c s (s.broadcastCommand command args) := by
  by_cases hsome : s.clients = ∅
  · have hauth : s.authenticated = ∅ := Finset.subset_empty.mp (hsome ▸ hs.known)
    have hserved : (ledger setup s.notes).served = ∅ := hs.served.trans hauth
    unfold broadcastCommand
    dsimp only
    rw [note_clients, if_pos hsome]
    generalize (if args = [] then command else command ++ "=".toList ++ args) = message
    have hledger : ledger setup (s.note (.announced message)).notes =
        { ledger setup s.notes with owed := (ledger setup s.notes).owed ++ [message] } :=
      ledger_note.trans (if_pos hserved)
    refine ⟨⟨hs.known, hs.buffered, orderly_note.mpr ⟨hs.orderly, trivial⟩, ?_, ?_, ?_, ?_⟩, fun c => ?_⟩
    · change (ledger setup (s.note (.announced message)).notes).served = _
      rw [hledger]
      exact hs.served
    · change (if kMaxPendingIpcMessages ≤ s.pendingMessages.length then s.pendingMessages.tail
        else s.pendingMessages) ++ [message] = (ledger setup (s.note (.announced message)).notes).owed.rtake _
      rw [hledger, hs.kept]
      exact rtake_kept _ _
    · change s.authenticated ⊆ (ledger setup (s.note (.announced message)).notes).hailed
      rw [hledger]
      exact hs.hailed
    · exact fun h => absurd hauth h
    · refine ⟨.rfl, .rfl, ?_, rfl, bytesOf_note c, messagesOf_note c⟩
      change c ∈ (ledger setup (s.note (.announced message)).notes).ended ↔ _
      rw [hledger]
  · have hq := broadcastCommand_quiet hs hsome hclear command args
    exact ⟨hq.composed hs, hq.aside⟩

end Broadcasts
end Synergy.Ipc
