import Mathlib.Data.List.Lex
import Mathlib.Order.Lattice

/-! Ordered containers that may hold several entries under one key: a list of entries in order of their
ranks, those of equal rank in the order of their insertion. -/
namespace Synergy.Lib

structure Multimap {κ ω : Type*} [LinearOrder ω] (rank : κ → ω) (ν : Type*) where
  entries : List (κ × ν)
  sorted : entries.Pairwise fun a b => rank a.1 ≤ rank b.1

namespace Multimap
variable {κ ω ν : Type*} [LinearOrder ω] {rank : κ → ω}

instance [DecidableEq κ] [DecidableEq ν] : DecidableEq (Multimap rank ν) := fun a b =>
  decidable_of_iff (a.entries = b.entries) ⟨fun h => by cases a; cases b; cases h; rfl, fun h => h ▸ rfl⟩

def empty : Multimap rank ν := ⟨[], .nil⟩

private theorem sorted_insert {l : List (κ × ν)} (h : l.Pairwise fun a b => rank a.1 ≤ rank b.1) (k : κ) (v : ν) :
    (l.takeWhile (fun e => rank e.1 ≤ rank k) ++ (k, v) :: l.dropWhile (fun e => rank e.1 ≤ rank k)).Pairwise
      fun a b => rank a.1 ≤ rank b.1 := by
  induction l with
  | nil => exact List.pairwise_singleton _ _
  | cons d l ih =>
    obtain ⟨hd, hl⟩ := List.pairwise_cons.mp h
    by_cases hle : rank d.1 ≤ rank k
    · rw [List.takeWhile_cons_of_pos (by simpa using hle), List.dropWhile_cons_of_pos (by simpa using hle),
        List.cons_append]
      refine List.pairwise_cons.mpr ⟨fun e he => ?_, ih hl⟩
      rcases List.mem_append.mp he with he | he
      · exact hd e (List.takeWhile_subset _ he)
      · rcases List.mem_cons.mp he with rfl | he
        · exact hle
        · exact hd e (List.dropWhile_subset _ he)
    · rw [List.takeWhile_cons_of_neg (by simpa using hle), List.dropWhile_cons_of_neg (by simpa using hle),
        List.nil_append]
      have hlt := (not_le.mp hle).le
      exact List.pairwise_cons.mpr ⟨fun e he => (List.mem_cons.mp he).elim (fun q => q ▸ hlt) fun q => hlt.trans (hd e q), h⟩

/-- Add an entry behind those that are not above it. -/
def insert (m : Multimap rank ν) (k : κ) (v : ν) : Multimap rank ν :=
  ⟨m.entries.takeWhile (fun e => rank e.1 ≤ rank k) ++ (k, v) :: m.entries.dropWhile (fun e => rank e.1 ≤ rank k),
    sorted_insert m.sorted k v⟩

/-- The entries under a key. -/
def equalRange (m : Multimap rank ν) (k : κ) : List (κ × ν) := m.entries.filter fun e => rank e.1 = rank k

def contains (m : Multimap rank ν) (k : κ) : Bool := m.entries.any fun e => rank e.1 = rank k

/-- Drop all entries under a key. -/
def erase (m : Multimap rank ν) (k : κ) : Multimap rank ν :=
  ⟨m.entries.filter fun e => rank e.1 ≠ rank k, m.sorted.filter _⟩

/-- Drop the first entry under a key whose value satisfies `p`. -/
def eraseFirst (m : Multimap rank ν) (k : κ) (p : ν → Bool) : Multimap rank ν :=
  ⟨m.entries.eraseP fun e => rank e.1 = rank k && p e.2, m.sorted.sublist List.eraseP_sublist⟩

theorem insert_perm (m : Multimap rank ν) (k : κ) (v : ν) : (m.insert k v).entries.Perm ((k, v) :: m.entries) := by
  have h : (m.insert k v).entries.Perm ((k, v) :: (m.entries.takeWhile (fun e => rank e.1 ≤ rank k) ++
      m.entries.dropWhile fun e => rank e.1 ≤ rank k)) := List.perm_middle
  rwa [List.takeWhile_append_dropWhile] at h

@[simp] theorem mem_insert (m : Multimap rank ν) (k : κ) (v : ν) (e : κ × ν) :
    e ∈ (m.insert k v).entries ↔ e = (k, v) ∨ e ∈ m.entries := by
  rw [(m.insert_perm k v).mem_iff, List.mem_cons]

@[simp] theorem mem_erase (m : Multimap rank ν) (k : κ) (e : κ × ν) :
    e ∈ (m.erase k).entries ↔ e ∈ m.entries ∧ rank e.1 ≠ rank k := by
  simp [erase]

@[simp] theorem mem_equalRange (m : Multimap rank ν) (k : κ) (e : κ × ν) :
    e ∈ m.equalRange k ↔ e ∈ m.entries ∧ rank e.1 = rank k := by
  simp [equalRange]

theorem contains_iff (m : Multimap rank ν) (k : κ) : m.contains k = true ↔ ∃ e ∈ m.entries, rank e.1 = rank k := by
  simp [contains]

end Multimap
end Synergy.Lib
