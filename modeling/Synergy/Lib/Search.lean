import Mathlib.Data.Set.Basic

/-! Loops without a bound, run on fuel: a step either goes on from another state
or stops with a result. -/
namespace Synergy.Lib
variable {σ ρ : Type*} (step : σ → σ ⊕ ρ)

/-- Iterate `step` until it stops, at most `fuel` times. -/
def search : Nat → σ → Option ρ
  | 0, _ => none
  | fuel + 1, s =>
    match step s with
    | .inl t => search fuel t
    | .inr r => some r

variable {step}

/-- More fuel does not change a result. -/
theorem search_mono {fuel fuel' : Nat} (h : fuel ≤ fuel') {s : σ} {r : ρ} (hr : search step fuel s = some r) :
    search step fuel' s = some r := by
  induction fuel generalizing fuel' s with
  | zero => cases hr
  | succ fuel ih =>
    obtain ⟨k, rfl⟩ := Nat.exists_eq_add_of_le' h
    rw [search] at hr
    rw [← Nat.add_assoc, search]
    cases hs : step s with
    | inl t =>
      simp only [hs] at hr ⊢
      exact ih (Nat.le_add_left _ _) hr
    | inr q => simpa [hs] using hr

/-- Two results of one search coincide, whatever the fuel. -/
theorem search_unique {fuel fuel' : Nat} {s : σ} {r r' : ρ} (h : search step fuel s = some r)
    (h' : search step fuel' s = some r') : r = r' := by
  have hm := search_mono (Nat.le_max_left fuel fuel') h
  rw [search_mono (Nat.le_max_right fuel fuel') h'] at hm
  exact (Option.some.inj hm).symm

/-- A set of states that the loop never leaves and never stops in. -/
def Trap (step : σ → σ ⊕ ρ) (T : Set σ) : Prop := ∀ s ∈ T, ∃ t ∈ T, step s = .inl t

/-- The loop stops exactly when no trap contains the state it starts in. -/
theorem search_returns_iff (s : σ) : (∃ fuel r, search step fuel s = some r) ↔ ¬ ∃ T : Set σ, s ∈ T ∧ Trap step T := by
  constructor
  · rintro ⟨fuel, r, hr⟩ ⟨T, hs, hT⟩
    induction fuel generalizing s with
    | zero => cases hr
    | succ fuel ih =>
      obtain ⟨t, ht, hst⟩ := hT s hs
      rw [search, hst] at hr
      exact ih t hr ht
  · intro h
    by_contra hno
    -- the states from which no fuel is enough form a trap
    refine h ⟨{t | ¬ ∃ fuel r, search step fuel t = some r}, hno, fun t ht => ?_⟩
    cases hs : step t with
    | inl u =>
      refine ⟨u, ?_, rfl⟩
      rintro ⟨fuel, r, hr⟩
      exact ht ⟨fuel + 1, r, by rw [search, hs]; exact hr⟩
    | inr r => exact absurd ⟨1, r, by rw [search, hs]⟩ ht

end Synergy.Lib
