import Synergy.Ipc.IpcReading
import Synergy.Lib.Trace

/-! The server over whole runs: who is served, what becomes of the broadcasts, and
which messages are made of the bytes of a connection. -/
namespace Synergy.Ipc
open IpcServer Synergy.Lib
variable {setup : IpcSetup} {s t : IpcServer} {socket c : Socket}

/-- None of these is processed. -/
def Unheeded : List Bytes → Prop
  | [] => True
  | next :: _ => TooLong next

/-- A broadcast finds nobody who is not authenticated. No message that would be
processed arrives on a connection that has been rejected, a message that is refused
is the last one that has arrived, with no bytes after it when the connection is gone
at once, and a command that broadcasts finds nobody else who is not authenticated. -/
def Undisturbed (setup : IpcSetup) (s : IpcServer) : IpcEvent → Prop
  | .readyRead socket bytes atOnce =>
    let batch := Lib.lines newline ((s.readBuffers socket).getD [] ++ bytes)
    if socket ∈ (ledger setup s.notes).ended then Unheeded batch.1
    else Smooth setup batch.2 atOnce (s.clients ⊆ insert socket s.authenticated)
      (decide (socket ∈ s.authenticated)) batch.1
  | .broadcastCommand _ _ => s.clients ⊆ s.authenticated
  | .newConnection _ | .disconnected _ | .errorOccurred _ => True

instance : DecidablePred Unheeded
  | [] => .isTrue trivial
  | next :: _ => inferInstanceAs (Decidable (TooLong next))

instance (setup : IpcSetup) (s : IpcServer) : DecidablePred (Undisturbed setup s)
  | .readyRead socket bytes atOnce =>
    inferInstanceAs (Decidable (if socket ∈ (ledger setup s.notes).ended then
        Unheeded (Lib.lines newline ((s.readBuffers socket).getD [] ++ bytes)).1
      else Smooth setup (Lib.lines newline ((s.readBuffers socket).getD [] ++ bytes)).2 atOnce
        (s.clients ⊆ insert socket s.authenticated) (decide (socket ∈ s.authenticated))
        (Lib.lines newline ((s.readBuffers socket).getD [] ++ bytes)).1))
  | .broadcastCommand _ _ => inferInstanceAs (Decidable (s.clients ⊆ s.authenticated))
  | .newConnection _ | .disconnected _ | .errorOccurred _ => .isTrue trivial

/-- The buffer holds what has come after the last message, and all the messages
before have been taken. -/
def Listening (setup : IpcSetup) (s : IpcServer) (c : Socket) : Prop :=
  ∃ left, Lib.lines newline (bytesOf c s.notes) = (left, (s.readBuffers c).getD []) ∧
    after setup false left = some (decide (c ∈ s.authenticated)) ∧
    messagesOf c s.notes = converse setup false left

/-- No bytes that may still come make another message. -/
def Silenced (setup : IpcSetup) (s : IpcServer) (c : Socket) : Prop :=
  ∀ more, messagesOf c s.notes = conversation setup (bytesOf c s.notes ++ more)

structure Attended (setup : IpcSetup) (s : IpcServer) (c : Socket) : Prop where
  listening : c ∉ (ledger setup s.notes).ended → Listening setup s c
  silenced : c ∈ (ledger setup s.notes).ended → Silenced setup s c

structure IpcInvariant (setup : IpcSetup) (s : IpcServer) : Prop where
  composed : Composed setup s
  attended : ∀ c ∈ s.clients, Attended setup s c
  whole : ∀ c, messagesOf c s.notes = conversation setup (bytesOf c s.notes)

theorem Attended.whole (h : Attended setup s c) : messagesOf c s.notes = conversation setup (bytesOf c s.notes) := by
  by_cases he : c ∈ (ledger setup s.notes).ended
  · simpa using h.silenced he []
  · obtain ⟨left, hlines, -, hmessages⟩ := h.listening he
    rw [hmessages, conversation, hlines]

theorem Attended.aside (h : Attended setup s c) (k : Aside setup c s t) : Attended setup t c := by
  constructor
  · intro he
    obtain ⟨left, hlines, hafter, hmessages⟩ := h.listening (fun hs => he (k.ended.mpr hs))
    refine ⟨left, ?_, ?_, ?_⟩
    · rw [k.bytes, k.buffer, hlines]
    · rw [hafter, decide_eq_decide.mpr k.authenticated]
    · rw [k.messages, hmessages]
  · intro he more
    rw [k.messages, k.bytes]
    exact h.silenced (k.ended.mp he) more

theorem IpcInvariant.serving (h : IpcInvariant setup s) : Serving setup s where
  known := h.composed.known
  buffered := h.composed.buffered
  orderly := h.composed.orderly
  served := h.composed.served
  kept := h.composed.kept
  whole := h.whole

/-- Only the one connection has to be looked at. -/
private theorem invariant_of_aside (socket : Socket) (h : IpcInvariant setup s) (ht : Composed setup t)
    (haside : ∀ c, c ≠ socket → Aside setup c s t) (hself : socket ∈ t.clients → Attended setup t socket)
    (hwhole : messagesOf socket t.notes = conversation setup (bytesOf socket t.notes)) : IpcInvariant setup t where
  composed := ht
  attended := by
    intro c hc
    by_cases hne : c = socket
    · subst hne
      exact hself hc
    · have k := haside c hne
      exact (h.attended c (k.clients.mp hc)).aside k
  whole := by
    intro c
    by_cases hne : c = socket
    · subst hne
      exact hwhole
    · have k := haside c hne
      rw [k.messages, k.bytes]
      exact h.whole c

private theorem invariant_start (setup : IpcSetup) : IpcInvariant setup start := by
  refine ⟨⟨Finset.Subset.refl _, fun c hb => absurd rfl hb, trivial, rfl, rfl, Finset.Subset.refl _, fun _ => rfl⟩, ?_, ?_⟩
  · exact fun c hc => absurd hc (Finset.notMem_empty c)
  · exact fun c => rfl

private theorem invariant_handleNewConnection (h : IpcInvariant setup s) (hnew : socket ∉ s.clients) :
    IpcInvariant setup (s.handleNewConnection socket) := by
  have hmessages : messagesOf socket (s.handleNewConnection socket).notes = [] :=
    (messagesOf_note socket).trans (if_pos rfl)
  have hbytes : bytesOf socket (s.handleNewConnection socket).notes = [] :=
    (bytesOf_note socket).trans (if_pos rfl)
  have hbuffer : s.readBuffers socket = none := by
    by_contra hb
    exact hnew (h.composed.buffered socket hb)
  have hout : socket ∉ s.authenticated := fun ha => hnew (h.composed.known ha)
  refine invariant_of_aside socket h (composed_handleNewConnection h.composed hnew)
    (fun c hc => aside_handleNewConnection hc) (fun _ => ⟨fun _ => ⟨[], ?_, ?_, hmessages⟩, ?_⟩) ?_
  · rw [hbytes]
    change ([], []) = ([], (s.readBuffers socket).getD [])
    rw [hbuffer]
    rfl
  · exact congrArg some (decide_eq_false hout).symm
  · intro he
    rw [handleNewConnection, ledger_note] at he
    exact absurd rfl (Finset.mem_erase.mp he).1
  · rw [hmessages, hbytes]
    rfl

private theorem invariant_forget (h : IpcInvariant setup s) : IpcInvariant setup (s.forget socket) := by
  refine invariant_of_aside socket h (composed_forget h.composed) (fun c hc => aside_forget hc)
    (fun hc => absurd rfl (Finset.mem_erase.mp hc).1) ?_
  have hmessages : messagesOf socket (s.forget socket).notes = messagesOf socket s.notes := messagesOf_note socket
  have hbytes : bytesOf socket (s.forget socket).notes = bytesOf socket s.notes := bytesOf_note socket
  rw [hmessages, hbytes]
  exact h.whole socket

private theorem invariant_broadcastCommand (h : IpcInvariant setup s) (hclear : s.clients ⊆ s.authenticated)
    (command args : Str) : IpcInvariant setup (s.broadcastCommand command args) := by
  obtain ⟨hcomposed, haside⟩ := broadcastCommand_spec h.composed hclear command args
  refine ⟨hcomposed, fun c hc => ?_, fun c => ?_⟩
  · exact (h.attended c ((haside c).clients.mp hc)).aside (haside c)
  · rw [(haside c).messages, (haside c).bytes]
    exact h.whole c

section ReadyRead

/-- An empty read does what the loop does with no message and no rest. -/
private theorem handleReadyRead_eq (setup : IpcSetup) (s : IpcServer) (socket : Socket) (bytes : Bytes)
    (atOnce : Nat → Bool) :
    let batch := Lib.lines newline ((s.readBuffers socket).getD [] ++ bytes)
    let read := readMessages setup socket atOnce batch.1 ((s.setBuffer socket none).note (.received socket bytes))
    s.handleReadyRead setup socket bytes atOnce =
      if read.1 then read.2.keepRest socket batch.2 (atOnce 0) else read.2 := by
  unfold handleReadyRead
  dsimp only
  split
  · next h => rw [h]; rfl
  · rfl

private theorem keepRest_spec (rest : Bytes) (ht : Composed setup t)
    (hin : rest ≠ [] → ¬ TooLong rest → socket ∈ t.clients) (atOnce : Bool) :
    let u := t.keepRest socket rest atOnce
    Composed setup u ∧ (∀ c, c ≠ socket → Aside setup c t u) ∧
      bytesOf socket u.notes = bytesOf socket t.notes ∧ messagesOf socket u.notes = messagesOf socket t.notes ∧
      (TooLong rest ∨ socket ∈ (ledger setup t.notes).ended → socket ∈ (ledger setup u.notes).ended) ∧
      (¬ TooLong rest → (ledger setup u.notes).ended = (ledger setup t.notes).ended ∧
        u.authenticated = t.authenticated ∧
        (t.readBuffers socket = none → (u.readBuffers socket).getD [] = rest)) := by
  unfold keepRest
  dsimp only
  by_cases hlong : kMaxIpcMessageBytes < rest.length
  · rw [if_pos hlong]
    obtain ⟨hended, hbytes, hmessages, -⟩ := disconnectFromServer_spec setup
      (t.setBuffer socket none) socket atOnce
    refine ⟨composed_disconnectFromServer (composed_setBuffer ht (absurd rfl)) atOnce, fun c hc => ?_, hbytes, hmessages,
      fun _ => hended, fun hn => absurd hlong hn⟩
    exact (aside_setBuffer hc none).trans (aside_disconnectFromServer hc atOnce)
  · rw [if_neg hlong]
    by_cases hrest : rest = []
    · rw [if_neg (not_not.mpr hrest)]
      refine ⟨ht, fun c _ => .refl t, rfl, rfl, fun h => h.resolve_left hlong, fun _ => ⟨rfl, rfl, fun hb => ?_⟩⟩
      rw [hb, hrest]
      rfl
    · rw [if_pos hrest]
      refine ⟨composed_setBuffer ht fun _ => hin hrest hlong, fun c hc => aside_setBuffer hc _, rfl, rfl,
        fun h => h.resolve_left hlong, fun _ => ⟨rfl, rfl, fun _ => ?_⟩⟩
      rw [setBuffer_self]
      rfl

private theorem received_spec (socket : Socket) (hs : Composed setup s) (bytes : Bytes) :
    let t := (s.setBuffer socket none).note (.received socket bytes)
    Composed setup t ∧ (∀ c, c ≠ socket → Aside setup c s t) ∧ bytesOf socket t.notes = bytesOf socket s.notes ++ bytes ∧
      messagesOf socket t.notes = messagesOf socket s.notes ∧ ledger setup t.notes = ledger setup s.notes ∧
      t.readBuffers socket = none := by
  refine ⟨?_, fun c hc => ?_, ?_, messagesOf_note socket, ledger_note, setBuffer_self _ _ _⟩
  · exact composed_note (composed_setBuffer hs (absurd rfl)) trivial rfl rfl (Finset.Subset.refl _)
  · exact (aside_setBuffer hc none).trans (aside_note .rfl (fun _ => if_neg hc.symm) (fun _ => rfl))
  · exact (bytesOf_note socket).trans (if_pos rfl)

/-- Once a message has been refused, or what is left is too long, nothing more is made of the bytes. -/
private theorem silenced_of {bytes rest : Bytes} {left : List Bytes} (hlines : Lib.lines newline bytes = (left, rest))
    (hbytes : bytesOf socket t.notes = bytes) (hmessages : messagesOf socket t.notes = converse setup false left)
    (h : after setup false left = none ∨ TooLong rest) : Silenced setup t socket := by
  intro more
  rw [hmessages, hbytes, conversation, lines_append, hlines, converse_append]
  rcases h with h | h
  · rw [h, List.append_nil]
  · cases after setup false left with
    | none => rw [List.append_nil]
    | some now =>
      cases hmore : (Lib.lines newline (rest ++ more)).1 with
      | nil => exact (List.append_nil _).symm
      | cons first later =>
        have hrest : newline ∉ rest := by
          have := not_mem_lines_rest newline bytes
          rwa [hlines] at this
        have hfirst : kMaxIpcMessageBytes < first.length := h.trans_le (rest_starts_line hmore hrest).length_le
        change _ = _ ++ converse setup now (first :: later)
        rw [converse, if_pos hfirst, List.append_nil]

/-- Bytes on a connection that has not been rejected. -/
private theorem invariant_live (h : IpcInvariant setup s) {bytes : Bytes} {atOnce : Nat → Bool}
    (hc : socket ∈ s.clients) (hlive : socket ∉ (ledger setup s.notes).ended)
    (hsmooth : let batch := Lib.lines newline ((s.readBuffers socket).getD [] ++ bytes)
      Smooth setup batch.2 atOnce (s.clients ⊆ insert socket s.authenticated) (decide (socket ∈ s.authenticated))
        batch.1) :
    IpcInvariant setup (s.handleReadyRead setup socket bytes atOnce) := by
  obtain ⟨left, hlines, hafter, hmessages⟩ := (h.attended socket hc).listening hlive
  obtain ⟨hs₀, haside₀, hbytes₀, hmessages₀, hledger₀, hbuffer₀⟩ := received_spec socket h.composed bytes
  rw [handleReadyRead_eq]
  dsimp only at hsmooth ⊢
  set batch := Lib.lines newline ((s.readBuffers socket).getD [] ++ bytes) with hbatch
  obtain ⟨hheard, hleft⟩ := readMessages_spec batch.1 hs₀ ⟨hc, by rw [hledger₀]; exact hlive⟩ hbuffer₀ hsmooth id
  set read := readMessages setup socket atOnce batch.1 ((s.setBuffer socket none).note (.received socket bytes))
  have hall : Lib.lines newline (bytesOf socket s.notes ++ bytes) = (left ++ batch.1, batch.2) := by
    rw [lines_append, hlines]
  replace hleft : Left setup socket batch.2 read (after setup false (left ++ batch.1)) := by
    rw [after_append, hafter, Option.bind_some]
    exact hleft
  have hconverse : converse setup false (left ++ batch.1) =
      converse setup false left ++ converse setup (decide (socket ∈ s.authenticated)) batch.1 := by
    rw [converse_append, hafter]
  have hbytes : bytesOf socket read.2.notes = bytesOf socket s.notes ++ bytes := hheard.bytes.trans hbytes₀
  have hmessages' : messagesOf socket read.2.notes = converse setup false (left ++ batch.1) := by
    rw [hconverse, hheard.messages, hmessages₀, hmessages]
    rfl
  have haside : ∀ c, c ≠ socket → Aside setup c s read.2 := fun c hc => (haside₀ c hc).trans (hheard.aside c hc)
  cases hgo : read.1 with
  | false =>
    rw [if_neg Bool.false_ne_true]
    cases hnow : after setup false (left ++ batch.1) with
    | some now =>
      rw [hnow] at hleft
      rw [hleft.1] at hgo
      cases hgo
    | none =>
      rw [hnow] at hleft
      have hsilent : Silenced setup read.2 socket := silenced_of hall hbytes hmessages' (.inl hnow)
      have hattended : Attended setup read.2 socket := ⟨fun hn => absurd hleft.1 hn, fun _ => hsilent⟩
      exact invariant_of_aside socket h hheard.composed haside (fun _ => hattended) hattended.whole
  | true =>
    rw [if_pos rfl]
    have hin : batch.2 ≠ [] → ¬ TooLong batch.2 → socket ∈ read.2.clients := by
      intro hne hshort
      cases hnow : after setup false (left ++ batch.1) with
      | some now =>
        rw [hnow] at hleft
        exact hleft.2.1.client
      | none =>
        rw [hnow] at hleft
        rcases hleft.2 hgo with hin | hnil | hlong
        · exact hin
        · exact absurd hnil hne
        · exact absurd hlong hshort
    obtain ⟨hcomposed, haside', hbytes', hmessages'', hended, hsame⟩ := keepRest_spec batch.2 hheard.composed hin (atOnce 0)
    set u := read.2.keepRest socket batch.2 (atOnce 0)
    have hbytesu : bytesOf socket u.notes = bytesOf socket s.notes ++ bytes := hbytes'.trans hbytes
    have hmessagesu : messagesOf socket u.notes = converse setup false (left ++ batch.1) :=
      hmessages''.trans hmessages'
    have hattended : Attended setup u socket := by
      by_cases hover : after setup false (left ++ batch.1) = none ∨ TooLong batch.2
      · have hsilent : Silenced setup u socket := silenced_of hall hbytesu hmessagesu hover
        refine ⟨fun hn => absurd (hended ?_) hn, fun _ => hsilent⟩
        rcases hover with hnone | hlong
        · rw [hnone] at hleft
          exact .inr hleft.1
        · exact .inl hlong
      · obtain ⟨hsome, hshort⟩ := not_or.mp hover
        obtain ⟨now, hnow⟩ := Option.ne_none_iff_exists'.mp hsome
        obtain ⟨hendedu, hauthu, hbufferu⟩ := hsame hshort
        rw [hnow] at hleft
        refine ⟨fun _ => ⟨left ++ batch.1, ?_, ?_, hmessagesu⟩, fun he => ?_⟩
        · rw [hbytesu, hall, hbufferu hheard.buffer]
        · rw [hnow, hauthu, hleft.2.2]
        · rw [hendedu] at he
          exact absurd he hleft.2.1.live
    exact invariant_of_aside socket h hcomposed (fun c hc => (haside c hc).trans (haside' c hc)) (fun _ => hattended)
      hattended.whole

/-- Bytes on a connection that has been rejected and is not gone yet. -/
private theorem invariant_ended (h : IpcInvariant setup s) {bytes : Bytes} {atOnce : Nat → Bool}
    (hc : socket ∈ s.clients) (hended : socket ∈ (ledger setup s.notes).ended)
    (hunheeded : Unheeded (Lib.lines newline ((s.readBuffers socket).getD [] ++ bytes)).1) :
    IpcInvariant setup (s.handleReadyRead setup socket bytes atOnce) := by
  have hsilent := (h.attended socket hc).silenced hended
  obtain ⟨hs₀, haside₀, hbytes₀, hmessages₀, hledger₀, hbuffer₀⟩ := received_spec socket h.composed bytes
  have hfinish : ∀ u : IpcServer, bytesOf socket u.notes = bytesOf socket s.notes ++ bytes →
      messagesOf socket u.notes = messagesOf socket s.notes → socket ∈ (ledger setup u.notes).ended →
      Attended setup u socket := by
    intro u hb hm he
    refine ⟨fun hn => absurd he hn, fun _ more => ?_⟩
    rw [hm, hb, List.append_assoc]
    exact hsilent _
  rw [handleReadyRead_eq]
  generalize Lib.lines newline ((s.readBuffers socket).getD [] ++ bytes) = batch at hunheeded ⊢
  obtain ⟨messages, rest⟩ := batch
  cases messages with
  | nil =>
    rw [← hledger₀] at hended
    obtain ⟨hcomposed, haside, hbytes, hmessages, hover, -⟩ := keepRest_spec rest hs₀ (fun _ _ => hc) (atOnce 0)
    have hattended := hfinish _ (hbytes.trans hbytes₀) (hmessages.trans hmessages₀) (hover (.inr hended))
    exact invariant_of_aside socket h hcomposed (fun c hc => (haside₀ c hc).trans (haside c hc)) (fun _ => hattended)
      hattended.whole
  | cons first later =>
    have hheard : Heard setup socket ((s.setBuffer socket none).note (.received socket bytes))
        ((s.setBuffer socket none).note (.received socket bytes)) [] :=
      ⟨hs₀, fun c _ => .refl _, rfl, (List.append_nil _).symm, hbuffer₀⟩
    obtain ⟨hread, hleft⟩ := readMessages_tooLong rest later atOnce hheard hunheeded
    have hgo : (readMessages setup socket atOnce (first :: later)
        ((s.setBuffer socket none).note (.received socket bytes))).1 = false := by
      rw [readMessages, if_pos (show kMaxIpcMessageBytes < first.length from hunheeded)]
    rw [hgo, if_neg Bool.false_ne_true]
    have hattended := hfinish _ (hread.bytes.trans hbytes₀)
      (hread.messages.trans ((List.append_nil _).trans hmessages₀)) hleft.1
    exact invariant_of_aside socket h hread.composed (fun c hc => (haside₀ c hc).trans (hread.aside c hc))
      (fun _ => hattended) hattended.whole

end ReadyRead

/-- Every undisturbed step keeps the invariant. -/
private theorem invariant_step {e : IpcEvent} (h : IpcInvariant setup s) (hg : Undisturbed setup s e)
    (hstep : IpcStep setup s e t) : IpcInvariant setup t := by
  obtain ⟨hpossible, rfl⟩ := hstep
  cases e with
  | newConnection socket => exact invariant_handleNewConnection h hpossible
  | readyRead socket bytes atOnce =>
    unfold Undisturbed at hg
    dsimp only at hg
    split at hg
    · next hended => exact invariant_ended h hpossible hended hg
    · next hlive => exact invariant_live h hpossible hlive hg
  | disconnected socket => exact invariant_forget h
  | errorOccurred socket => exact invariant_forget h
  | broadcastCommand command args => exact invariant_broadcastCommand h hg command args

/-- The server serves only those who may be served and loses no broadcast, in every
run in which no step disturbs it. -/
theorem always_serving {setup : IpcSetup} {tr : List (IpcEvent × IpcServer)}
    (hr : Trace (IpcStep setup) start tr) (hg : EachStep (fun s e _ => Undisturbed setup s e) start tr) :
    Always (Serving setup) tr := by
  have h : Always (IpcInvariant setup) tr :=
    hr.always (IpcInvariant setup) (fun _ _ _ hs hg hstep => invariant_step hs hg hstep) (invariant_start setup) hg
  exact fun x hx => (h x hx).serving

section Core

/-- A core's server, for messages in ASCII. -/
def asciiCore : IpcSetup where
  token := "T".toList
  kVersion := "V".toList
  fromUtf8 := fun bytes => bytes.map fun b => Char.ofNat b.toNat
  processCommand := coreProcessCommand

private theorem trace_asciiCore (es : List IpcEvent)
    (h : EachStep (fun s e _ => e.Possible s) start (runTrace (handle asciiCore) start es)) :
    Trace (IpcStep asciiCore) start (runTrace (handle asciiCore) start es) := by
  generalize start = s at h ⊢
  induction es generalizing s with
  | nil => exact .nil s
  | cons e es ih => exact .cons ⟨h.1, rfl⟩ (ih _ h.2)

/-- A message before the hello, in one batch with the hello. -/
def rejectedBatch : List IpcEvent :=
  [.newConnection 0, .readyRead 0 (toUtf8 "x\nhello=V T\n".toList) fun _ => false]

theorem not_always_serving : ¬ ∀ (setup : IpcSetup) (tr : List (IpcEvent × IpcServer)),
    Trace (IpcStep setup) start tr → Always (Serving setup) tr := by
  intro h
  have hr := trace_asciiCore rejectedBatch (by decide)
  have hs := h asciiCore _ hr (_, rejectedBatch.foldl (handle asciiCore) start)
    (List.mem_cons_of_mem _ List.mem_cons_self)
  have hdisorderly : ¬ Orderly asciiCore .blank (rejectedBatch.foldl (handle asciiCore) start).notes := by
    decide
  exact hdisorderly hs.orderly

/-- Two broadcasts that nobody is there for, a hello in two pieces, and the core is told to stop. -/
def servedRun : List IpcEvent :=
  [.broadcastCommand "a".toList [], .broadcastCommand "b".toList "c".toList, .newConnection 0,
    .readyRead 0 (toUtf8 "hello=V".toList) fun _ => false,
    .readyRead 0 (toUtf8 " T\nstop\n".toList) fun _ => false, .disconnected 0]

theorem always_serving_servedRun : Always (Serving asciiCore) (runTrace (handle asciiCore) start servedRun) ∧
    IpcNote.welcomed 0 ["a".toList, "b=c".toList] ∈ (servedRun.foldl (handle asciiCore) start).notes := by
  constructor
  · exact always_serving (trace_asciiCore servedRun (by decide)) (by decide)
  · decide

end Core
end Synergy.Ipc
