import Mathlib.Data.List.Basic

/-! A value that the items of a list may set in turn. -/
namespace Synergy.Lib
variable {α β σ : Type*}

/-- The last of the settings in the list, or the value from before. -/
def settle (setting : α → Option β) (x : β) (l : List α) : β := l.foldl (fun x a => (setting a).getD x) x

/-- Two values from before come to the same if and only if one of the items sets the
value or they were the same. -/
theorem settle_eq_iff (setting : α → Option β) (x y : β) (l : List α) :
    settle setting x l = settle setting y l ↔ (∃ a ∈ l, (setting a).isSome = true) ∨ x = y := by
  induction l generalizing x y with
  | nil => simp [settle]
  | cons a l ih =>
    have hcons : ∀ z, settle setting z (a :: l) = settle setting ((setting a).getD z) l := fun _ => rfl
    rw [hcons, hcons, ih]
    cases h : setting a with
    | none => simp [h]
    | some z => simp [h]

/-- A part of a state that each item sets or leaves alone. -/
theorem settle_of_foldl {part : σ → β} {f : σ → α → σ} {setting : α → Option β}
    (h : ∀ s a, part (f s a) = (setting a).getD (part s)) (l : List α) (s : σ) :
    part (l.foldl f s) = settle setting (part s) l := by
  induction l generalizing s with
  | nil => rfl
  | cons a l ih =>
    rw [List.foldl_cons, ih, h]
    rfl

end Synergy.Lib
