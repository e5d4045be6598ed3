import Mathlib.Logic.Basic
import Mathlib.Data.List.Basic

/-! Runs of a labelled transition relation, recorded as the labels taken and the
states reached, with the two rules that carry a property along a run. -/
namespace Synergy.Lib
variable {σ α : Type*}

/-- The labels and states that a run of `step` from a given state goes through. -/
inductive Trace (step : σ → α → σ → Prop) : σ → List (α × σ) → Prop
  | nil (s : σ) : Trace step s []
  | cons {s t : σ} {a : α} {tr : List (α × σ)} :
      step s a t → Trace step t tr → Trace step s ((a, t) :: tr)

/-- Every transition of the recorded run satisfies `Q`. -/
def EachStep (Q : σ → α → σ → Prop) : σ → List (α × σ) → Prop
  | _, [] => True
  | s, (a, t) :: tr => Q s a t ∧ EachStep Q t tr

instance (Q : σ → α → σ → Prop) [∀ s a t, Decidable (Q s a t)] : ∀ s tr, Decidable (EachStep Q s tr)
  | _, [] => .isTrue trivial
  | s, (a, t) :: tr =>
    have : Decidable (EachStep Q t tr) := instDecidableEachStep Q t tr
    inferInstanceAs (Decidable (Q s a t ∧ EachStep Q t tr))

/-- Every state a recorded run reaches satisfies `P`. -/
def Always (P : σ → Prop) (tr : List (α × σ)) : Prop := ∀ x ∈ tr, P x.2

instance (P : σ → Prop) [DecidablePred P] (tr : List (α × σ)) : Decidable (Always P tr) :=
  inferInstanceAs (Decidable (∀ x ∈ tr, P x.2))

@[simp] theorem always_nil (P : σ → Prop) : Always P ([] : List (α × σ)) := by simp [Always]

@[simp] theorem always_cons (P : σ → Prop) (a : α) (t : σ) (tr : List (α × σ)) :
    Always P ((a, t) :: tr) ↔ P t ∧ Always P tr := by
  simp [Always]

theorem eachStep_state_iff (P : σ → Prop) (s : σ) (tr : List (α × σ)) :
    EachStep (fun _ _ t => P t) s tr ↔ Always P tr := by
  induction tr generalizing s with
  | nil => simp [EachStep]
  | cons x tr ih =>
    obtain ⟨a, t⟩ := x
    simp [EachStep, ih]

theorem EachStep.imp {Q R : σ → α → σ → Prop} (h : ∀ s a t, Q s a t → R s a t) {s : σ} {tr : List (α × σ)}
    (hq : EachStep Q s tr) : EachStep R s tr := by
  induction tr generalizing s with
  | nil => trivial
  | cons x tr ih => exact ⟨h _ _ _ hq.1, ih hq.2⟩

/-- The run of a deterministic step function over a list of labels. -/
def runTrace (f : σ → α → σ) : σ → List α → List (α × σ)
  | _, [] => []
  | s, a :: as => (a, f s a) :: runTrace f (f s a) as

theorem trace_runTrace (f : σ → α → σ) (s : σ) (as : List α) :
    Trace (fun s a t => t = f s a) s (runTrace f s as) := by
  induction as generalizing s with
  | nil => exact .nil s
  | cons a as ih => exact .cons rfl (ih (f s a))

theorem eachStep_runTrace_append {f : σ → α → σ} {Q : σ → α → σ → Prop} {s : σ} {as bs : List α} :
    EachStep Q s (runTrace f s (as ++ bs)) ↔
      EachStep Q s (runTrace f s as) ∧ EachStep Q (as.foldl f s) (runTrace f (as.foldl f s) bs) := by
  induction as generalizing s with
  | nil => simp [runTrace, EachStep]
  | cons a as ih => simp [runTrace, EachStep, ih, and_assoc]

theorem Trace.eachStep {step : σ → α → σ → Prop} {s : σ} {tr : List (α × σ)} (hr : Trace step s tr) :
    EachStep step s tr := by
  induction hr with
  | nil s => trivial
  | cons h _ ih => exact ⟨h, ih⟩

/-- A run whose steps all satisfy `Q` is a run of the transitions that do. -/
theorem Trace.restrict {step Q : σ → α → σ → Prop} {s : σ} {tr : List (α × σ)} (hr : Trace step s tr)
    (hq : EachStep Q s tr) : Trace (fun s a t => step s a t ∧ Q s a t) s tr := by
  induction hr with
  | nil s => exact .nil s
  | cons h _ ih => exact .cons ⟨h, hq.1⟩ (ih hq.2)

/-- What holds at the start and survives every guarded step holds all along a
run whose steps meet the guard. -/
theorem Trace.always {step : σ → α → σ → Prop} {guard : σ → α → σ → Prop} (Inv : σ → Prop)
    (hstep : ∀ s a t, Inv s → guard s a t → step s a t → Inv t) {s : σ} {tr : List (α × σ)}
    (hr : Trace step s tr) (hs : Inv s) (hg : EachStep guard s tr) : Always Inv tr := by
  induction hr with
  | nil s => simp
  | cons h _ ih =>
    have ht := hstep _ _ _ hs hg.1 h
    exact (always_cons _ _ _ _).mpr ⟨ht, ih ht hg.2⟩

/-- What every guarded step from a good state does is done all along such a run. -/
theorem Trace.each {step guard good : σ → α → σ → Prop} (Inv : σ → Prop)
    (hgood : ∀ s a t, Inv s → guard s a t → step s a t → good s a t)
    (hkeep : ∀ s a t, Inv s → guard s a t → step s a t → Inv t) {s : σ} {tr : List (α × σ)}
    (hr : Trace step s tr) (hs : Inv s) (hg : EachStep guard s tr) : EachStep good s tr := by
  induction hr with
  | nil s => trivial
  | cons h _ ih => exact ⟨hgood _ _ _ hs hg.1 h, ih (hkeep _ _ _ hs hg.1 h) hg.2⟩

/-- When the guard decides, step by step, whether the transition is a good one,
and good transitions keep the invariant, a run is good exactly when all its
steps meet the guard. -/
theorem Trace.eachStep_iff {step guard good : σ → α → σ → Prop} (Inv : σ → Prop)
    (hexact : ∀ s a t, Inv s → step s a t → (guard s a t ↔ good s a t))
    (hkeep : ∀ s a t, Inv s → step s a t → guard s a t → Inv t) {s : σ} {tr : List (α × σ)}
    (hr : Trace step s tr) (hs : Inv s) : EachStep guard s tr ↔ EachStep good s tr := by
  induction hr with
  | nil s => exact Iff.rfl
  | @cons s t a tr h _ ih =>
    have he := hexact s a t hs h
    constructor
    · rintro ⟨hg, hrest⟩
      exact ⟨he.mp hg, (ih (hkeep s a t hs h hg)).mp hrest⟩
    · rintro ⟨hg, hrest⟩
      have hg' := he.mpr hg
      exact ⟨hg', (ih (hkeep s a t hs h hg')).mpr hrest⟩

end Synergy.Lib
