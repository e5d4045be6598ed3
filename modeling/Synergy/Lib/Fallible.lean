import Mathlib.Tactic.Basic

/-! Computations that give a value or an error. -/
namespace Synergy.Lib
variable {ε α β : Type}

/-- A computation that succeeds is one that succeeds and another one behind it. -/
theorem bind_eq_ok {m : Except ε α} {k : α → Except ε β} {b : β} :
    (m >>= k) = .ok b ↔ ∃ a, m = .ok a ∧ k a = .ok b := by
  constructor
  · intro h
    cases m with
    | error e => cases h
    | ok a => exact ⟨a, rfl, h⟩
  · rintro ⟨a, rfl, h⟩
    exact h

theorem map_eq_ok {m : Except ε α} {f : α → β} {b : β} : m.map f = .ok b ↔ ∃ a, m = .ok a ∧ f a = b := by
  cases m <;> simp [Except.map]

end Synergy.Lib
