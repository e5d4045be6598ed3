import Mathlib.Data.List.Basic
import Mathlib.Data.List.Infix
import Mathlib.Data.List.TakeWhile

/-! Searching in a text: where a pattern first occurs, and where the first element of a class is. -/
namespace Synergy.Lib
variable {α : Type*}

section
variable [DecidableEq α]

def find (pattern : List α) : List α → Option Nat
  | [] => if pattern = [] then some 0 else none
  | x :: xs => if pattern <+: x :: xs then some 0 else (find pattern xs).map (· + 1)

variable {pattern s : List α} {i : Nat}

/-- What is found is an occurrence, and none is before it. -/
theorem find_eq_some (h : find pattern s = some i) :
    i ≤ s.length ∧ pattern <+: s.drop i ∧ ∀ k < i, ¬ pattern <+: s.drop k := by
  induction s generalizing i with
  | nil =>
    rw [find] at h
    split at h
    next hnil =>
      obtain rfl : 0 = i := Option.some.inj h
      exact ⟨le_rfl, hnil ▸ List.nil_prefix, fun k hk => absurd hk (Nat.not_lt_zero k)⟩
    · cases h
  | cons x xs ih =>
    rw [find] at h
    split at h
    next hhere =>
      obtain rfl : 0 = i := Option.some.inj h
      exact ⟨Nat.zero_le _, hhere, fun k hk => absurd hk (Nat.not_lt_zero k)⟩
    next hhere =>
      obtain ⟨j, hj, rfl⟩ := Option.map_eq_some_iff.mp h
      obtain ⟨hle, hthere, hfirst⟩ := ih hj
      refine ⟨Nat.succ_le_succ hle, hthere, fun k hk => ?_⟩
      cases k with
      | zero => exact hhere
      | succ k => exact hfirst k (Nat.lt_of_succ_lt_succ hk)

/-- An occurrence that nothing is before is found. -/
theorem find_of_first (hle : i ≤ s.length) (hthere : pattern <+: s.drop i)
    (hfirst : ∀ k < i, ¬ pattern <+: s.drop k) : find pattern s = some i := by
  induction s generalizing i with
  | nil =>
    obtain rfl : i = 0 := Nat.le_zero.mp hle
    exact if_pos (List.prefix_nil.mp hthere)
  | cons x xs ih =>
    cases i with
    | zero => exact if_pos hthere
    | succ i =>
      have hhere : ¬ pattern <+: x :: xs := hfirst 0 (Nat.succ_pos i)
      rw [find, if_neg hhere, ih (Nat.le_of_succ_le_succ hle) hthere fun k hk => hfirst (k + 1) (Nat.succ_lt_succ hk)]
      rfl

theorem find_append (h : find pattern s = some i) (t : List α) : find pattern (s ++ t) = some i := by
  obtain ⟨hle, hthere, hfirst⟩ := find_eq_some h
  have hlength := hthere.length_le
  rw [List.length_drop] at hlength
  refine find_of_first ?_ ?_ fun k hk hearly => hfirst k hk ?_
  · rw [List.length_append]
    omega
  · rw [List.drop_append_of_le_length hle]
    exact hthere.trans (List.prefix_append _ t)
  · rw [List.drop_append_of_le_length (by omega)] at hearly
    refine List.prefix_of_prefix_length_le hearly (List.prefix_append _ t) ?_
    rw [List.length_drop]
    omega

theorem find_eq_none {x : α} (hx : x ∈ pattern) (h : x ∉ s) : find pattern s = none := by
  cases hfind : find pattern s with
  | none => rfl
  | some i => exact absurd (List.mem_of_mem_drop ((find_eq_some hfind).2.1.subset hx)) h

omit [DecidableEq α] in
/-- An element that a pattern does not have ends what the pattern may be a prefix of. -/
theorem prefix_separated {separator : α} (h : separator ∉ pattern) (s t : List α) :
    pattern <+: s ++ separator :: t ↔ pattern <+: s := by
  constructor
  · intro hpre
    rcases Nat.lt_or_ge s.length pattern.length with hlong | hshort
    · have hmore : s ++ [separator] <+: pattern := by
        refine List.prefix_of_prefix_length_le ⟨t, ?_⟩ hpre ?_
        · rw [List.append_assoc, List.singleton_append]
        · rw [List.length_append]
          exact hlong
      exact absurd (hmore.subset (List.mem_append_right s List.mem_cons_self)) h
    · exact List.prefix_of_prefix_length_le hpre (List.prefix_append _ _) hshort
  · exact fun hpre => hpre.trans (List.prefix_append _ _)

theorem find_separated {separator : α} (h : separator ∉ pattern) (s t : List α) :
    find pattern (s ++ separator :: t) = (find pattern s).or ((find pattern t).map (s.length + 1 + ·)) := by
  induction s with
  | nil =>
    rw [List.nil_append, find, find]
    cases pattern with
    | nil => rfl
    | cons x xs =>
      have hne : ¬ x :: xs <+: separator :: t := fun hpre =>
        h ((List.cons_prefix_cons.mp hpre).1 ▸ List.mem_cons_self)
      rw [if_neg hne, if_neg (List.cons_ne_nil x xs), Option.none_or]
      exact congrArg (Option.map · _) (funext fun i => Nat.add_comm i 1)
  | cons x s ih =>
    rw [List.cons_append, find, find, ih]
    have hiff : pattern <+: x :: (s ++ separator :: t) ↔ pattern <+: x :: s := prefix_separated h (x :: s) t
    by_cases hhere : pattern <+: x :: s
    · rw [if_pos hhere, if_pos (hiff.mpr hhere), Option.some_or]
    · rw [if_neg hhere, if_neg (mt hiff.mp hhere), Option.map_or, Option.map_map]
      refine congrArg _ (congrArg (Option.map · _) (funext fun i => ?_))
      rw [Function.comp_apply, List.length_cons]
      omega

/-- The first occurrence of a pattern is replaced. -/
def replaceFirst (pattern new s : List α) : Option (List α) :=
  (find pattern s).map fun i => s.take i ++ new ++ s.drop (i + pattern.length)

theorem replaceFirst_append {before behind new : List α} (h : find pattern (before ++ pattern) = some before.length) :
    replaceFirst pattern new (before ++ pattern ++ behind) = some (before ++ new ++ behind) := by
  have htake : (before ++ pattern ++ behind).take before.length = before := by
    rw [List.append_assoc, List.take_left]
  have hdrop : (before ++ pattern ++ behind).drop (before.length + pattern.length) = behind :=
    List.drop_left' List.length_append
  rw [replaceFirst, find_append h, Option.map_some, htake, hdrop]

end

section
variable {p : α → Bool} {s : List α} {pos i : Nat}

/-- The position of the first element of a class at a position or behind it. -/
def findFirst (p : α → Bool) (s : List α) (pos : Nat) : Option Nat := ((s.drop pos).findIdx? p).map (pos + ·)

/-- A text is the longest start of a class, and the rest. -/
theorem exists_longest (p : α → Bool) (s : List α) :
    ∃ first rest, s = first ++ rest ∧ (∀ x ∈ first, p x = true) ∧ ∀ x ∈ rest.head?, p x = false := by
  refine ⟨s.takeWhile p, s.dropWhile p, List.takeWhile_append_dropWhile.symm, fun x hx => List.mem_takeWhile_imp hx, ?_⟩
  intro x hx
  have hhead := List.head?_dropWhile_not p s
  rw [hx] at hhead
  simpa using hhead

theorem findIdx?_eq_some {s : List α} (h : s.findIdx? p = some i) :
    ∃ between x rest, s = between ++ x :: rest ∧ between.length = i ∧ (∀ y ∈ between, p y = false) ∧ p x = true := by
  induction s generalizing i with
  | nil => cases h
  | cons x xs ih =>
    rw [List.findIdx?_cons] at h
    split at h
    next hx =>
      obtain rfl : 0 = i := Option.some.inj h
      exact ⟨[], x, xs, rfl, rfl, nofun, hx⟩
    next hx =>
      obtain ⟨j, hj, rfl⟩ := Option.map_eq_some_iff.mp h
      obtain ⟨between, y, rest, rfl, hlength, hbetween, hy⟩ := ih hj
      refine ⟨x :: between, y, rest, rfl, congrArg (· + 1) hlength, ?_, hy⟩
      exact List.forall_mem_cons.mpr ⟨eq_false_of_ne_true hx, hbetween⟩

theorem findFirst_eq_some (h : findFirst p s pos = some i) : ∃ between x rest, s.drop pos = between ++ x :: rest ∧
    i = pos + between.length ∧ s.drop i = x :: rest ∧ (∀ y ∈ between, p y = false) ∧ p x = true := by
  obtain ⟨j, hj, rfl⟩ := Option.map_eq_some_iff.mp h
  obtain ⟨between, x, rest, hdrop, rfl, hbetween, hx⟩ := findIdx?_eq_some hj
  refine ⟨between, x, rest, hdrop, rfl, ?_, hbetween, hx⟩
  rw [← List.drop_drop, hdrop, List.drop_left]

theorem findFirst_of_drop {between rest : List α} {x : α} (hdrop : s.drop pos = between ++ x :: rest)
    (hbetween : ∀ y ∈ between, p y = false) (hx : p x = true) : findFirst p s pos = some (pos + between.length) := by
  have hnone : between.findIdx? p = none := List.findIdx?_eq_none_iff.mpr hbetween
  rw [findFirst, hdrop, List.findIdx?_append, hnone, List.findIdx?_cons, if_pos hx]
  simp

theorem findFirst_eq_none : findFirst p s pos = none ↔ ∀ x ∈ s.drop pos, p x = false := by
  rw [findFirst, Option.map_eq_none_iff, List.findIdx?_eq_none_iff]

end
end Synergy.Lib
