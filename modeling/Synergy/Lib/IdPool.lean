import Mathlib.Data.List.Nodup

/-! Small numbers given out as ids: the one returned last is given out first, and
when none has been returned, one more than there are in use. -/
namespace Synergy.Lib

/-- The next id and the returned ones that are left; the head is the one returned last. -/
def chooseId (size : Nat) : List Nat → Nat × List Nat
  | [] => (size + 1, [])
  | id :: old => (id, old)

/-- The ids in use and those returned are the first numbers, each once. -/
structure Pooled (used old : List Nat) : Prop where
  nodup : (used ++ old).Nodup
  range : ∀ id, id ∈ used ++ old ↔ 1 ≤ id ∧ id ≤ used.length + old.length

namespace Pooled
variable {used used' old : List Nat} {id : Nat}

theorem nil : Pooled [] [] := ⟨List.nodup_nil, fun id => by simp; omega⟩

theorem perm (h : Pooled used old) (hp : used.Perm used') : Pooled used' old where
  nodup := (hp.append_right old).nodup_iff.mp h.nodup
  range := fun id => by rw [← (hp.append_right old).mem_iff, h.range, hp.length_eq]

theorem choose (h : Pooled used old) :
    Pooled ((chooseId used.length old).1 :: used) (chooseId used.length old).2 := by
  cases old with
  | nil =>
    have hnew : used.length + 1 ∉ used := fun hmem => by
      have := (h.range _).mp (List.mem_append_left _ hmem)
      simp only [List.length_nil] at this
      omega
    refine ⟨?_, fun id => ?_⟩
    · have hn := h.nodup
      rw [List.append_nil] at hn
      simpa [chooseId] using ⟨hnew, hn⟩
    · have hr := h.range id
      simp only [List.append_nil, List.length_nil] at hr
      simp only [chooseId, List.append_nil, List.mem_cons, List.length_cons, List.length_nil, hr]
      omega
  | cons first old =>
    have hp : (used ++ first :: old).Perm (first :: used ++ old) := List.perm_middle
    refine ⟨hp.nodup_iff.mp h.nodup, fun id => ?_⟩
    rw [chooseId, ← hp.mem_iff, h.range]
    simp only [List.length_cons]
    omega

theorem choose_not_mem (h : Pooled used old) : (chooseId used.length old).1 ∉ used := by
  have hn := h.choose.nodup
  rw [List.cons_append, List.nodup_cons] at hn
  exact fun hmem => hn.1 (List.mem_append_left _ hmem)

theorem choose_pos (h : Pooled used old) : 0 < (chooseId used.length old).1 :=
  ((h.choose.range _).mp (List.mem_append_left _ List.mem_cons_self)).1

theorem give_back (h : Pooled (id :: used) old) : Pooled used (id :: old) := by
  have hp : (used ++ id :: old).Perm (id :: used ++ old) := List.perm_middle
  refine ⟨hp.nodup_iff.mpr h.nodup, fun j => ?_⟩
  rw [hp.mem_iff, h.range]
  simp only [List.length_cons]
  omega

end Pooled

end Synergy.Lib
