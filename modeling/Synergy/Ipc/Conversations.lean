import Synergy.Ipc.IpcServer

/-! What the server makes of the messages of one connection, and which of the bytes
that arrive on it are messages that it processes. -/
namespace Synergy.Ipc
open IpcServer

/-- A hello that carries the version and the token of the server. -/
def Hello (setup : IpcSetup) (message : Str) : Prop :=
  message = "hello=".toList ++ setup.kVersion ++ " ".toList ++ setup.token

instance (setup : IpcSetup) (message : Str) : Decidable (Hello setup message) :=
  inferInstanceAs (Decidable (message = "hello=".toList ++ setup.kVersion ++ " ".toList ++ setup.token))

inductive Verdict
  | refuse (answer : Str)
  | answer (answer : Str)
  | welcome
  | perform (command : Str) (parts : List Str)

/-- How a message is taken, given whether the connection is authenticated. -/
def judge (setup : IpcSetup) (authenticated : Bool) (message : Str) : Verdict :=
  match splitIpcMessage message with
  | [] => .answer "error".toList
  | command :: values =>
    if command = "hello".toList then
      match values with
      | [] => .refuse "error=missing version".toList
      | helloValue :: _ =>
        let separator := helloValue.idxOf ' '
        let clientVersion := if separator < helloValue.length then helloValue.take separator else helloValue
        let clientToken := if separator < helloValue.length then helloValue.drop (separator + 1) else []
        if setup.token = [] ∨ clientToken ≠ setup.token then .refuse "error=hello required".toList
        else if clientVersion ≠ setup.kVersion then .answer ("versionMismatch=".toList ++ setup.kVersion)
        else .welcome
    else if authenticated = false then .refuse "error=hello required".toList
    else if command = "noop".toList then .answer "ok".toList
    else .perform command (command :: values)

theorem constantTimeEquals_iff (a b : Bytes) : constantTimeEquals a b = true ↔ a = b := by
  have hfold : ∀ (l : List (UInt8 × UInt8)) (d : UInt8),
      l.foldl (fun diff x => diff ||| (x.1 ^^^ x.2)) d = 0 ↔ d = 0 ∧ ∀ x ∈ l, x.1 = x.2 := by
    intro l
    induction l with
    | nil => simp
    | cons x l ih =>
      intro d
      rw [List.foldl_cons, ih, UInt8.or_eq_zero_iff, UInt8.xor_eq_zero_iff, List.forall_mem_cons, and_assoc]
  unfold constantTimeEquals
  by_cases hl : a.length = b.length
  · rw [if_neg (not_not.mpr hl), beq_iff_eq, hfold]
    constructor
    · rintro ⟨-, h⟩
      refine List.ext_getElem hl fun i h₁ h₂ => ?_
      exact h (a[i], b[i]) (List.mem_iff_getElem.mpr ⟨i, by simpa using ⟨h₁, h₂⟩, by simp⟩)
    · rintro rfl
      refine ⟨rfl, fun x hx => ?_⟩
      obtain ⟨i, hi, rfl⟩ := List.mem_iff_getElem.mp hx
      rw [List.getElem_zip]
  · rw [if_pos hl]
    exact ⟨fun h => absurd h (by decide), fun h => absurd (congrArg List.length h) hl⟩

theorem constantTimeEquals_toUtf8 (a b : Str) : constantTimeEquals (toUtf8 a) (toUtf8 b) = false ↔ a ≠ b := by
  rw [← Bool.not_eq_true, constantTimeEquals_iff, toUtf8_injective.eq_iff]

private theorem idxOf_split {a : Char} {l : Str} (h : l.idxOf a < l.length) :
    l = l.take (l.idxOf a) ++ a :: l.drop (l.idxOf a + 1) := by
  have hd : l.drop (l.idxOf a) = a :: l.drop (l.idxOf a + 1) := by
    rw [List.drop_eq_getElem_cons h, List.getElem_idxOf h]
  rw [← hd, List.take_append_drop]

private theorem splitIpcMessage_two {message command value : Str} {more : List Str}
    (h : splitIpcMessage message = command :: value :: more) : message = command ++ '=' :: value := by
  unfold splitIpcMessage at h
  by_cases hs : message.idxOf '=' < message.length
  · rw [if_pos hs] at h
    obtain ⟨rfl, hv⟩ := List.cons.inj h
    obtain ⟨rfl, -⟩ := List.cons.inj hv
    exact idxOf_split hs
  · rw [if_neg hs] at h
    cases (List.cons.inj h).2

/-- Only a hello with the version and the token is welcome. -/
theorem hello_of_welcome {setup : IpcSetup} {authenticated : Bool} {message : Str}
    (h : judge setup authenticated message = .welcome) : Hello setup message := by
  unfold judge at h
  cases hs : splitIpcMessage message with
  | nil => rw [hs] at h; cases h
  | cons command values =>
    rw [hs] at h
    by_cases hc : command = "hello".toList
    · cases values with
      | nil => simp only [if_pos hc] at h; cases h
      | cons value more =>
        simp only [if_pos hc] at h
        by_cases ht : value.idxOf ' ' < value.length
        · simp only [if_pos ht] at h
          split at h
          · cases h
          next htoken =>
          split at h
          · cases h
          next hversion =>
          obtain ⟨-, htoken⟩ := not_or.mp htoken
          have hvalue := idxOf_split ht
          rw [not_not.mp htoken, not_not.mp hversion] at hvalue
          rw [Hello, splitIpcMessage_two hs, hc, hvalue]
          simp
        · simp only [if_neg ht] at h
          have htoken : setup.token = [] ∨ [] ≠ setup.token := by
            rcases eq_or_ne setup.token [] with h0 | h0
            · exact .inl h0
            · exact .inr h0.symm
          rw [if_pos htoken] at h
          cases h
    · simp only [if_neg hc] at h
      split at h
      · cases h
      · split at h <;> cases h

/-- A command is performed for a connection that is authenticated. -/
theorem authenticated_of_perform {setup : IpcSetup} {authenticated : Prop} [Decidable authenticated] {message command : Str}
    {parts : List Str} (h : judge setup (decide authenticated) message = .perform command parts) : authenticated := by
  unfold judge at h
  cases hs : splitIpcMessage message with
  | nil => rw [hs] at h; cases h
  | cons name values =>
    rw [hs] at h
    by_cases hc : name = "hello".toList
    · cases values with
      | nil => simp only [if_pos hc] at h; cases h
      | cons value more =>
        simp only [if_pos hc] at h
        split at h
        · split at h
          · cases h
          · split at h <;> cases h
        · split at h
          · cases h
          · split at h <;> cases h
    · simp only [if_neg hc] at h
      split at h
      · cases h
      · next ha => exact of_decide_eq_true (eq_true_of_ne_false ha)

/-- The server after a message is taken as `judge` says. -/
def IpcServer.settle (setup : IpcSetup) (s : IpcServer) (socket : Socket) (atOnce : Bool) : Verdict → IpcServer
  | .refuse answer => (s.writeToClientSocket socket answer).disconnectFromServer socket atOnce
  | .answer answer => s.writeToClientSocket socket answer
  | .welcome =>
    let s := { s with authenticated := insert socket s.authenticated }
    let s := s.writeToClientSocket socket ("hello=".toList ++ setup.kVersion)
    { s.note (.welcomed socket s.pendingMessages) with pendingMessages := [] }
  | .perform command parts => s.processCommand setup socket command parts

theorem processMessage_eq (setup : IpcSetup) (s : IpcServer) (socket : Socket) (message : Str) (atOnce : Bool) :
    s.processMessage setup socket message atOnce = (s.note (.processed socket message)).settle setup socket atOnce
      (judge setup (decide (socket ∈ s.authenticated)) message) := by
  unfold processMessage judge
  cases splitIpcMessage message with
  | nil => rfl
  | cons command values =>
    by_cases hc : command = "hello".toList
    · cases values with
      | nil => simp only [if_pos hc]; rfl
      | cons value more =>
        by_cases hs : value.idxOf ' ' < value.length
        · simp only [if_pos hc, if_pos hs, constantTimeEquals_toUtf8]
          split
          · rfl
          · split <;> rfl
        · simp only [if_pos hc, if_neg hs, constantTimeEquals_toUtf8]
          split
          · rfl
          · split <;> rfl
    · simp only [if_neg hc]
      by_cases ha : socket ∈ s.authenticated
      · have hn : socket ∈ (s.note (.processed socket message)).authenticated := ha
        simp only [ha, hn, not_true_eq_false, if_false, decide_true, Bool.true_eq_false]
        split <;> rfl
      · have hn : socket ∉ (s.note (.processed socket message)).authenticated := ha
        simp only [ha, hn, not_false_eq_true, if_true, decide_false]
        rfl

/-- Whether the connection is authenticated after the messages, unless one of
them is refused. -/
def after (setup : IpcSetup) (authenticated : Bool) : List Bytes → Option Bool
  | [] => some authenticated
  | messageData :: left =>
    if kMaxIpcMessageBytes < messageData.length then none
    else
      match judge setup authenticated (setup.fromUtf8 messageData) with
      | .refuse _ => none
      | .welcome => after setup true left
      | .answer _ | .perform _ _ => after setup authenticated left

/-- The messages that are processed: all up to one that is refused, or up to one
that is too long. -/
def converse (setup : IpcSetup) (authenticated : Bool) : List Bytes → List Str
  | [] => []
  | messageData :: left =>
    if kMaxIpcMessageBytes < messageData.length then []
    else
      setup.fromUtf8 messageData ::
        match judge setup authenticated (setup.fromUtf8 messageData) with
        | .refuse _ => []
        | .welcome => converse setup true left
        | .answer _ | .perform _ _ => converse setup authenticated left

/-- The messages of a connection, from its bytes alone. -/
def conversation (setup : IpcSetup) (bytes : Bytes) : List Str :=
  converse setup false (Lib.lines newline bytes).1

variable {setup : IpcSetup} {authenticated : Bool} {left more : List Bytes}

theorem converse_append : converse setup authenticated (left ++ more) =
    converse setup authenticated left ++
      match after setup authenticated left with
      | none => []
      | some now => converse setup now more := by
  induction left generalizing authenticated with
  | nil => rfl
  | cons messageData left ih =>
    rw [List.cons_append, converse, converse, after]
    split
    · rfl
    · cases judge setup authenticated (setup.fromUtf8 messageData) with
      | refuse answer => rfl
      | answer answer => exact congrArg _ ih
      | welcome => exact congrArg _ ih
      | perform command parts => exact congrArg _ ih

theorem after_append : after setup authenticated (left ++ more) =
    (after setup authenticated left).bind fun now => after setup now more := by
  induction left generalizing authenticated with
  | nil => rfl
  | cons messageData left ih =>
    rw [List.cons_append, after, after]
    split
    · rfl
    · cases judge setup authenticated (setup.fromUtf8 messageData) with
      | refuse answer => rfl
      | answer answer => exact ih
      | welcome => exact ih
      | perform command parts => exact ih

end Synergy.Ipc
