import Mathlib.Data.Char
import Mathlib.Data.List.Lex
import Mathlib.Tactic.Linarith

/-! `std::string`, classes of its characters, and the case-insensitive comparison of screen names. -/
namespace Synergy

/-- A `std::string`, as the list of its characters. -/
abbrev Str := List Char

/-- A space or a tab. -/
def isBlank (c : Char) : Bool := c == ' ' || c == '\t'

/-- `isgraph` of the C locale. -/
def isgraph (c : Char) : Bool := 33 ≤ c.toNat && c.toNat ≤ 126

/-- The spelling that `CaselessCmp` looks at. -/
def Str.fold (s : Str) : Str := s.map Char.toLower

namespace CaselessCmp

def cmpLess (a b : Char) : Bool := a.toLower < b.toLower

/-- `std::ranges::lexicographical_compare` under `cmpLess`. -/
def less : Str → Str → Bool
  | _, [] => false
  | [], _ :: _ => true
  | a :: as, b :: bs => if cmpLess a b then true else if cmpLess b a then false else less as bs

def equal (a b : Str) : Bool := !(less a b || less b a)

theorem less_iff (a b : Str) : less a b = true ↔ a.fold < b.fold := by
  induction a generalizing b with
  | nil => cases b <;> simp [less, Str.fold]
  | cons x a ih =>
    cases b with
    | nil => simp [less, Str.fold]
    | cons y b =>
      have ih := ih b
      simp only [Str.fold, List.map_cons, List.cons_lt_cons_iff, less, cmpLess] at ih ⊢
      rcases lt_trichotomy x.toLower y.toLower with h | h | h
      · simp [h]
      · simp [h, ih]
      · simp [h, h.ne', not_lt_of_gt h]

theorem equal_iff (a b : Str) : equal a b = true ↔ a.fold = b.fold := by
  have hn : equal a b = true ↔ ¬ less a b = true ∧ ¬ less b a = true := by simp [equal]
  rw [hn, less_iff, less_iff, not_lt, not_lt]
  exact ⟨fun h => le_antisymm h.2 h.1, fun h => ⟨h.ge, h.le⟩⟩

example : equal "Laptop".toList "lapTOP".toList = true := by decide

end CaselessCmp
end Synergy
