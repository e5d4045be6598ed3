import Mathlib.Data.List.Induction
import Synergy.Lib.SortedMap

/-! Copying one ordered container into another, entry by entry in order, under keys and values that a function gives. -/
namespace Synergy.Lib.SortedMap
variable {κ ω ν ι χ μ : Type*} [LinearOrder ω] [LinearOrder χ] {rank : κ → ω} {rank' : ι → χ}

/-- Put what becomes of each entry. -/
def copyInto (f : κ → ν → Option (ι × μ)) (source : SortedMap rank ν) (m : SortedMap rank' μ) : SortedMap rank' μ :=
  source.entries.foldl (fun m e => (f e.1 e.2).elim m fun p => m.put p.1 p.2) m

/-- The key of a copy is equivalent to `k`. -/
def CopiedTo (rank' : ι → χ) (f : κ → ν → Option (ι × μ)) (k : ι) (e : κ × ν) (v : μ) : Prop :=
  ∃ j, f e.1 e.2 = some (j, v) ∧ rank' j = rank' k

private theorem get?_foldl {f : κ → ν → Option (ι × μ)} (k : ι) (m : SortedMap rank' μ) (l : List (κ × ν))
    (hsorted : l.Pairwise fun a b => rank a.1 < rank b.1) :
    (∃ e ∈ l, ∃ v, CopiedTo rank' f k e v ∧ (∀ d ∈ l, ∀ w, CopiedTo rank' f k d w → rank d.1 ≤ rank e.1) ∧
      (l.foldl (fun m e => (f e.1 e.2).elim m fun p => m.put p.1 p.2) m).get? k = some v) ∨
    (∀ e ∈ l, ∀ v, ¬CopiedTo rank' f k e v) ∧
      (l.foldl (fun m e => (f e.1 e.2).elim m fun p => m.put p.1 p.2) m).get? k = m.get? k := by
  induction l using List.reverseRecOn with
  | nil => exact Or.inr ⟨nofun, rfl⟩
  | append_singleton l e ih =>
    obtain ⟨hl, -, hlast⟩ := List.pairwise_append.mp hsorted
    rw [List.foldl_append, List.foldl_cons, List.foldl_nil]
    by_cases hcopied : ∃ v, CopiedTo rank' f k e v
    · obtain ⟨v, j, hv, hj⟩ := hcopied
      refine Or.inl ⟨e, List.mem_append_right _ (List.mem_singleton_self e), v, ⟨j, hv, hj⟩, fun d hd _ _ => ?_, ?_⟩
      · rcases List.mem_append.mp hd with hd | hd
        · exact (hlast d hd e (List.mem_singleton_self e)).le
        · exact (congrArg (fun c => rank c.1) (List.mem_singleton.mp hd)).le
      · rw [hv, Option.elim_some, get?_put, if_pos hj]
    · have hkeep (m : SortedMap rank' μ) : ((f e.1 e.2).elim m fun p => m.put p.1 p.2).get? k = m.get? k := by
        cases hf : f e.1 e.2 with
        | none => rfl
        | some p => rw [Option.elim_some, get?_put, if_neg fun hj => hcopied ⟨p.2, p.1, hf, hj⟩]
      rw [hkeep]
      rcases ih hl with ⟨d, hd, v, hv, hgreatest, hget⟩ | ⟨hnone, hget⟩
      · refine Or.inl ⟨d, List.mem_append_left _ hd, v, hv, fun c hc w hw => ?_, hget⟩
        rcases List.mem_append.mp hc with hc | hc
        · exact hgreatest c hc w hw
        · exact absurd ⟨w, List.mem_singleton.mp hc ▸ hw⟩ hcopied
      · refine Or.inr ⟨fun d hd v hv => ?_, hget⟩
        rcases List.mem_append.mp hd with hd | hd
        · exact hnone d hd v hv
        · exact hcopied ⟨v, List.mem_singleton.mp hd ▸ hv⟩

/-- The last of the entries that are copied to a key gives its value; without any it keeps the one it has. -/
theorem get?_copyInto (f : κ → ν → Option (ι × μ)) (source : SortedMap rank ν) (m : SortedMap rank' μ) (k : ι) :
    (∃ e ∈ source.entries, ∃ v, CopiedTo rank' f k e v ∧
      (∀ d ∈ source.entries, ∀ w, CopiedTo rank' f k d w → rank d.1 ≤ rank e.1) ∧
      (copyInto f source m).get? k = some v) ∨
    (∀ e ∈ source.entries, ∀ v, ¬CopiedTo rank' f k e v) ∧ (copyInto f source m).get? k = m.get? k :=
  get?_foldl k m source.entries source.sorted

/-- What is copied under its own key goes before what was there. -/
theorem get?_copyInto_some (source m : SortedMap rank ν) (k : κ) :
    (copyInto (fun k v => some (k, v)) source m).get? k = (source.get? k).or (m.get? k) := by
  rcases get?_copyInto (fun k v => some (k, v)) source m k with ⟨e, he, v, ⟨j, hcopied, hj⟩, -, hget⟩ | ⟨hnone, hget⟩
  · obtain ⟨rfl, rfl⟩ := Prod.mk.inj (Option.some.inj hcopied)
    rw [hget, ← source.get?_congr hj, source.get?_of_mem he]
    rfl
  · have hget' : source.get? k = none := by
      rw [Option.eq_none_iff_forall_ne_some]
      intro v hv
      obtain ⟨j, hj, hrank⟩ := (source.get?_eq_some_iff k v).mp hv
      exact hnone (j, v) hj v ⟨j, rfl, hrank⟩
    rw [hget, hget']
    rfl

end Synergy.Lib.SortedMap
