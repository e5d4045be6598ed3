import Mathlib.Data.List.SplitBy
import Mathlib.Data.List.TakeWhile
import Mathlib.Order.Lattice
import Synergy.Input.KeyState

/-! How often the keystrokes of a held key are sent. The count is used up by the first run of them, so
that it is the largest one from then on. -/
namespace Synergy
open Synergy.Lib

namespace KeyState

def isRestore : Keystroke → Bool
  | .button .. => false
  | .group _ _ restore => restore

/-- The maximal runs of repeated keystrokes, and the other keystrokes one by one. -/
def runs (keys : List Keystroke) : List (List Keystroke) := keys.splitBy fun a b => isRepeat a && isRepeat b

def isRepeatRun (run : List Keystroke) : Bool := run.any isRepeat

def repeated (count : Nat) (run : List Keystroke) : List Keystroke :=
  if isRepeatRun run then (List.replicate count run).flatten else run

/-- Each run of repeated keystrokes `count` times, and the other keystrokes once. -/
def repeatedRuns (count : Nat) (keys : List Keystroke) : List Keystroke := (runs keys).flatMap (repeated count)

/-- What is sent for runs: the first one that repeats leaves the largest count behind. -/
def sentRuns (count : Nat) : List (List Keystroke) → List Keystroke
  | [] => []
  | run :: rest => repeated count run ++ sentRuns (if isRepeatRun run then 2 ^ 32 - 1 else count) rest

private theorem runs_cons_repeat {k : Keystroke} (ks : List Keystroke) (hk : isRepeat k = true) :
    runs (k :: ks) = (k :: ks.takeWhile isRepeat) :: runs (ks.dropWhile isRepeat) := by
  have hall : ∀ a ∈ k :: ks.takeWhile isRepeat, isRepeat a = true :=
    List.forall_mem_cons.mpr ⟨hk, fun a ha => List.mem_takeWhile_imp ha⟩
  have hchain : (k :: ks.takeWhile isRepeat).IsChain fun a b => (isRepeat a && isRepeat b) = true :=
    List.Pairwise.isChain (List.pairwise_of_forall_mem_list fun a ha b hb => by rw [hall a ha, hall b hb]; rfl)
  have hsplit : k :: ks = (k :: ks.takeWhile isRepeat) ++ ks.dropWhile isRepeat := by
    rw [List.cons_append, List.takeWhile_append_dropWhile]
  rw [hsplit, runs, List.splitBy_append, List.splitBy_of_isChain (List.cons_ne_nil _ _) hchain]
  · rfl
  · intro a _ b hb
    have hstop := List.head?_dropWhile_not isRepeat ks
    rw [Option.mem_def.mp hb] at hstop
    dsimp only at hstop
    rw [hstop, Bool.and_false]

private theorem runs_cons_other {k : Keystroke} (ks : List Keystroke) (hk : isRepeat k = false) :
    runs (k :: ks) = [k] :: runs ks := by
  have hsplit : k :: ks = [k] ++ ks := rfl
  rw [hsplit, runs, List.splitBy_append]
  · rfl
  · intro a ha b _
    rw [List.getLast?_singleton, Option.mem_some_iff] at ha
    rw [← ha, hk, Bool.false_and]

/-- With no keystroke left out, the loop sends the runs one after the other. -/
theorem fakeRuns_eq (count : Nat) {keys : List Keystroke} (hkeys : ∀ k ∈ keys, isRestore k = false) :
    fakeRuns true count keys = sentRuns count (runs keys) := by
  fun_induction fakeRuns true count keys with
  | case1 => rfl
  | case2 count k ks hk ih =>
    have hrun : isRepeatRun (k :: ks.takeWhile isRepeat) = true := by simp [isRepeatRun, hk]
    rw [runs_cons_repeat ks hk, sentRuns, repeated, if_pos hrun, if_pos hrun]
    rw [ih fun a ha => hkeys a (.tail _ ((List.dropWhile_suffix isRepeat).subset ha))]
  | case3 count k ks hk _ ih =>
    have hrun : isRepeatRun [k] = false := by simp [isRepeatRun, hk]
    rw [runs_cons_other ks (by simpa using hk), sentRuns, repeated, hrun, if_neg Bool.false_ne_true,
      if_neg Bool.false_ne_true, ih fun a ha => hkeys a (.tail _ ha)]
    rfl
  | case4 count k ks hk hfaked _ =>
    have hrestore := hkeys k List.mem_cons_self
    cases k with
    | button => exact absurd rfl hfaked
    | group => simp_all [isFaked, isRestore]

theorem length_repeated (count : Nat) (run : List Keystroke) :
    (repeated count run).length = if isRepeatRun run then count * run.length else run.length := by
  unfold repeated
  split_ifs with hrun
  · simp
  · rfl

theorem sentRuns_wrapped (rs : List (List Keystroke)) : sentRuns (2 ^ 32 - 1) rs = rs.flatMap (repeated (2 ^ 32 - 1)) := by
  induction rs with
  | nil => rfl
  | cons run rest ih => rw [sentRuns, List.flatMap_cons, ite_self, ih]

private theorem flatMap_repeated_of_none (count other : Nat) {rs : List (List Keystroke)}
    (hnone : rs.countP isRepeatRun = 0) : rs.flatMap (repeated count) = rs.flatMap (repeated other) := by
  refine List.flatMap_congr fun run hrun => ?_
  have hother := List.countP_eq_zero.mp hnone run hrun
  rw [repeated, repeated, if_neg hother, if_neg hother]

/-- One run that repeats is sent as often as it should be. -/
private theorem sentRuns_of_one {count : Nat} {rs : List (List Keystroke)} (hone : rs.countP isRepeatRun ≤ 1) :
    sentRuns count rs = rs.flatMap (repeated count) := by
  induction rs with
  | nil => rfl
  | cons run rest ih =>
    rw [List.countP_cons] at hone
    rw [sentRuns, List.flatMap_cons]
    split_ifs at hone ⊢ with hrun
    · rw [sentRuns_wrapped, flatMap_repeated_of_none (2 ^ 32 - 1) count (by omega)]
    · rw [ih hone]

private theorem length_pos_of_isRepeatRun {run : List Keystroke} (hrun : isRepeatRun run = true) : 0 < run.length :=
  let ⟨_, ha, _⟩ := List.any_eq_true.mp hrun
  List.length_pos_of_mem ha

/-- A larger count sends more. -/
private theorem length_flatMap_repeated_le {count other : Nat} (hle : count ≤ other) (rs : List (List Keystroke)) :
    (rs.flatMap (repeated count)).length ≤ (rs.flatMap (repeated other)).length := by
  induction rs with
  | nil => exact le_rfl
  | cons run rest ih =>
    rw [List.flatMap_cons, List.flatMap_cons, List.length_append, List.length_append, length_repeated, length_repeated]
    refine Nat.add_le_add ?_ ih
    split_ifs
    · exact Nat.mul_le_mul_right _ hle
    · exact le_rfl

private theorem length_flatMap_repeated_lt {count other : Nat} (hlt : count < other) {rs : List (List Keystroke)}
    (hsome : 0 < rs.countP isRepeatRun) :
    (rs.flatMap (repeated count)).length < (rs.flatMap (repeated other)).length := by
  induction rs with
  | nil => cases hsome
  | cons run rest ih =>
    rw [List.countP_cons] at hsome
    rw [List.flatMap_cons, List.flatMap_cons, List.length_append, List.length_append, length_repeated, length_repeated]
    split_ifs at hsome ⊢ with hrun
    · have hmore := Nat.mul_lt_mul_of_pos_right hlt (length_pos_of_isRepeatRun hrun)
      have hrest := length_flatMap_repeated_le hlt.le rest
      omega
    · exact Nat.add_lt_add_left (ih hsome) _

/-- A second run that repeats is sent too often. -/
private theorem length_sentRuns_lt {count : Nat} (hlt : count < 2 ^ 32 - 1) {rs : List (List Keystroke)}
    (htwo : 1 < rs.countP isRepeatRun) : (rs.flatMap (repeated count)).length < (sentRuns count rs).length := by
  induction rs with
  | nil => cases htwo
  | cons run rest ih =>
    rw [List.countP_cons] at htwo
    rw [sentRuns, List.flatMap_cons, List.length_append, List.length_append]
    split_ifs at htwo ⊢ with hrun
    · rw [sentRuns_wrapped]
      exact Nat.add_lt_add_left (length_flatMap_repeated_lt hlt (by omega)) _
    · exact Nat.add_lt_add_left (ih htwo) _

/-- The intended number of calls. -/
theorem length_repeatedRuns_le {count : Nat} (hcount : 1 ≤ count) (keys : List Keystroke) :
    (repeatedRuns count keys).length ≤ count * keys.length := by
  have hruns : ∀ rs : List (List Keystroke), (rs.flatMap (repeated count)).length ≤ count * rs.flatten.length := by
    intro rs
    induction rs with
    | nil => exact Nat.zero_le _
    | cons run rest ih =>
      rw [List.flatMap_cons, List.flatten_cons, List.length_append, List.length_append, Nat.mul_add, length_repeated]
      refine Nat.add_le_add ?_ ih
      split_ifs
      · exact le_rfl
      · exact Nat.le_mul_of_pos_left _ hcount
  have hall := hruns (runs keys)
  rwa [runs, List.flatten_splitBy] at hall

/-- The keystrokes of a held key are sent `count` times just if no two runs of them are apart, but for the
largest count. -/
theorem fakeKeys_repeatedRuns_iff (s : KeyState) (keys : List Keystroke) (count : Nat)
    (hsync : s.m_isLangSyncEnabled = true) (hkeys : ∀ k ∈ keys, isRestore k = false) (hcount : 1 ≤ count)
    (hbits : count < 2 ^ 32) :
    (s.fakeKeys keys count = repeatedRuns count keys ∧ (s.fakeKeys keys count).length ≤ count * keys.length) ↔
      (runs keys).countP isRepeatRun ≤ 1 ∨ count = 2 ^ 32 - 1 := by
  have hsent : s.fakeKeys keys count = sentRuns count (runs keys) := by
    rw [fakeKeys, if_neg (by omega), hsync, fakeRuns_eq count hkeys]
  constructor
  · rintro ⟨heq, -⟩
    by_contra hno
    have htwo : 1 < (runs keys).countP isRepeatRun := by omega
    have hfew : count < 2 ^ 32 - 1 := by omega
    have hlength := length_sentRuns_lt hfew htwo
    rw [← hsent, heq] at hlength
    exact lt_irrefl _ hlength
  · intro hruns
    have heq : s.fakeKeys keys count = repeatedRuns count keys := by
      rw [hsent]
      rcases hruns with hone | rfl
      · exact sentRuns_of_one hone
      · exact sentRuns_wrapped _
    exact ⟨heq, heq ▸ length_repeatedRuns_le hcount keys⟩

/-- A keyboard where a key is synthesized by a letter and a capital, which needs shift. -/
def capitalKeys : KeyMap :=
  let key (id : KeyID) (button : KeyButton) (required sensitive generates : KeyModifierMask) : KeyItem :=
    { id, group := 0, button, required, sensitive, generates, dead := false, lock := false, client := 0 }
  (((((KeyMap.empty .windows).addKeyEntry (key kKeyShift_L 42 0 0 keyModifierShift)).addKeyEntry
    (key 0x61 30 0 keyModifierShift 0)).addKeyEntry
    (key 0x42 48 keyModifierShift keyModifierShift 0)).addKeyCombinationEntry 0xe6 0 [0x61, 0x42]).1.finish

/-- The keystrokes of the held key: shift is pressed between the repeated letters. -/
def capitalStrokes : List Keystroke :=
  [.button 30 false true 0, .button 30 true true 0, .button 42 true false 0, .button 48 false true 0,
    .button 48 true true 0, .button 42 false false 0]

private theorem mapKey_capitalKeys : ((init capitalKeys true).mapKey 0xe6 0 0 true []).2.2 = capitalStrokes := by
  decide

theorem fakeKeys_repeatedRuns_letter :
    ((init capitalKeys true).fakeKeys [.button 30 false true 0, .button 30 true true 0] 3 =
      repeatedRuns 3 [.button 30 false true 0, .button 30 true true 0] ∧
      ((init capitalKeys true).fakeKeys [.button 30 false true 0, .button 30 true true 0] 3).length ≤ 3 * 2) ↔
      (runs [.button 30 false true 0, .button 30 true true 0]).countP isRepeatRun ≤ 1 ∨ 3 = 2 ^ 32 - 1 :=
  fakeKeys_repeatedRuns_iff _ _ 3 rfl (by decide) (by decide) (by decide)

/-- The second letter of the held key is sent as often as the count wraps around. -/
theorem capital_repeated_too_often :
    ¬ ∀ (s : KeyState) (keys : List Keystroke) (count : Nat), s.m_isLangSyncEnabled = true →
      (∀ k ∈ keys, isRestore k = false) → 1 ≤ count → count < 2 ^ 32 →
      s.fakeKeys keys count = repeatedRuns count keys ∧ (s.fakeKeys keys count).length ≤ count * keys.length := by
  intro h
  have heq := (h (init capitalKeys true) ((init capitalKeys true).mapKey 0xe6 0 0 true []).2.2 1 rfl
    (by rw [mapKey_capitalKeys]; decide) le_rfl (by decide)).1
  rw [mapKey_capitalKeys, fakeKeys, if_neg (by decide)] at heq
  have hsent : fakeRuns true 1 capitalStrokes = sentRuns 1 (runs capitalStrokes) := fakeRuns_eq 1 (by decide)
  have hlt : (repeatedRuns 1 capitalStrokes).length < (sentRuns 1 (runs capitalStrokes)).length :=
    length_sentRuns_lt (by decide) (by decide)
  have hle := (congrArg List.length (hsent.symm.trans heq)).le
  exact absurd hlt (Nat.not_lt.mpr hle)

end KeyState
end Synergy
