import Mathlib.Data.List.Nodup
import Mathlib.Logic.Function.Basic

/-! Objects numbered as they are created: who owns some of them deletes each once, after
which it is not owned any more. -/
namespace Synergy.Lib

/-- The objects in the list are there, each once, and all others have been deleted once. -/
structure Owned (created : Nat) (deletions : Nat → Nat) (held : List Nat) : Prop where
  nodup : held.Nodup
  bounded : ∀ n ∈ held, n < created
  deletions : ∀ n, deletions n = if n < created ∧ n ∉ held then 1 else 0

namespace Owned
variable {created : Nat} {deletions : Nat → Nat} {held held' : List Nat} {n : Nat}

theorem nothing : Owned 0 (fun _ => 0) [] :=
  ⟨List.nodup_nil, fun _ hn => absurd hn List.not_mem_nil, fun n => by simp⟩

theorem perm (h : Owned created deletions held) (hp : held.Perm held') : Owned created deletions held' := by
  refine ⟨hp.nodup_iff.mp h.nodup, fun n hn => h.bounded n (hp.mem_iff.mpr hn), fun n => ?_⟩
  rw [h.deletions]
  exact if_congr (and_congr_right' (not_congr hp.mem_iff)) rfl rfl

/-- A new object is owned at once. -/
theorem create (h : Owned created deletions held) : Owned (created + 1) deletions (created :: held) := by
  have hnew : created ∉ held := fun hmem => Nat.lt_irrefl _ (h.bounded created hmem)
  refine ⟨List.nodup_cons.mpr ⟨hnew, h.nodup⟩, fun n hn => ?_, fun n => ?_⟩
  · rcases List.mem_cons.mp hn with rfl | hn
    · exact Nat.lt_succ_self _
    · exact Nat.lt_succ_of_lt (h.bounded n hn)
  · rw [h.deletions]
    refine if_congr ?_ rfl rfl
    by_cases hn : n = created
    · simp [hn]
    · have hlt : n < created + 1 ↔ n < created := by omega
      simp [hn, hlt]

theorem delete (h : Owned created deletions (n :: held)) :
    Owned created (Function.update deletions n (deletions n + 1)) held := by
  obtain ⟨hnot, hnodup⟩ := List.nodup_cons.mp h.nodup
  refine ⟨hnodup, fun m hm => h.bounded m (List.mem_cons_of_mem n hm), fun m => ?_⟩
  rw [Function.update_apply, h.deletions, h.deletions]
  by_cases hm : m = n
  · have hlt : n < created := h.bounded n List.mem_cons_self
    simp [hm, hnot, hlt]
  · simp [hm]

theorem deleted_once (h : Owned created deletions held) (hn : n < created) :
    (n ∈ held ∧ deletions n = 0) ∨ (n ∉ held ∧ deletions n = 1) := by
  rw [h.deletions]
  by_cases hmem : n ∈ held
  · exact .inl ⟨hmem, if_neg fun hnot => hnot.2 hmem⟩
  · exact .inr ⟨hmem, if_pos ⟨hn, hmem⟩⟩

end Owned
end Synergy.Lib
