import Mathlib.Data.List.Lex
import Mathlib.Data.List.Nodup
import Mathlib.Tactic.Linarith

/-! Ordered associative containers: a list of entries whose keys are strictly
increasing under a rank, so that equivalent keys are the ones of equal rank. -/
namespace Synergy.Lib

/-- Entries kept in strictly increasing order of `rank`. Two keys are equivalent
when their ranks agree, whatever their spelling. -/
@[ext]
structure SortedMap {κ ω : Type*} [LinearOrder ω] (rank : κ → ω) (ν : Type*) where
  entries : List (κ × ν)
  sorted : entries.Pairwise fun a b => rank a.1 < rank b.1

namespace SortedMap
variable {κ ω ν μ : Type*} [LinearOrder ω] {rank : κ → ω}

instance [DecidableEq κ] [DecidableEq ν] : DecidableEq (SortedMap rank ν) := fun a b =>
  decidable_of_iff (a.entries = b.entries) SortedMap.ext_iff.symm

instance : Inhabited (SortedMap rank ν) := ⟨⟨[], .nil⟩⟩

/-- The container without entries. -/
def empty : SortedMap rank ν := ⟨[], .nil⟩

/-- The stored entry whose key is equivalent to `k`. -/
def find? (m : SortedMap rank ν) (k : κ) : Option (κ × ν) :=
  m.entries.find? fun e => rank e.1 = rank k

def get? (m : SortedMap rank ν) (k : κ) : Option ν := (m.find? k).map Prod.snd

def contains (m : SortedMap rank ν) (k : κ) : Bool := (m.find? k).isSome

def size (m : SortedMap rank ν) : Nat := m.entries.length

def keys (m : SortedMap rank ν) : List κ := m.entries.map Prod.fst

private def insertEntry (rank : κ → ω) (k : κ) (v : ν) : List (κ × ν) → List (κ × ν)
  | [] => [(k, v)]
  | e :: es =>
    if rank k < rank e.1 then (k, v) :: e :: es
    else if rank e.1 < rank k then e :: insertEntry rank k v es
    else e :: es

private theorem mem_insertEntry {k : κ} {v : ν} {l : List (κ × ν)} {e : κ × ν}
    (h : e ∈ insertEntry rank k v l) : e = (k, v) ∨ e ∈ l := by
  induction l with
  | nil => simpa [insertEntry] using h
  | cons d l ih =>
    simp only [insertEntry] at h
    split_ifs at h
    · simpa using h
    · rcases List.mem_cons.mp h with rfl | h
      · simp
      · exact (ih h).imp id (List.mem_cons_of_mem _)
    · exact .inr h

private theorem sorted_insertEntry {k : κ} {v : ν} {l : List (κ × ν)}
    (h : l.Pairwise fun a b => rank a.1 < rank b.1) :
    (insertEntry rank k v l).Pairwise fun a b => rank a.1 < rank b.1 := by
  induction l with
  | nil => simp [insertEntry]
  | cons d l ih =>
    have hd := List.pairwise_cons.mp h
    simp only [insertEntry]
    split_ifs with hlt hgt
    · exact List.pairwise_cons.mpr ⟨fun e he => (List.mem_cons.mp he).elim (fun q => q ▸ hlt)
        fun q => hlt.trans (hd.1 e q), h⟩
    · exact List.pairwise_cons.mpr ⟨fun e he => (mem_insertEntry he).elim (fun q => q ▸ hgt)
        fun q => hd.1 e q, ih hd.2⟩
    · exact h

/-- Add an entry unless an equivalent key is present already. -/
def insert (m : SortedMap rank ν) (k : κ) (v : ν) : SortedMap rank ν :=
  ⟨insertEntry rank k v m.entries, sorted_insertEntry m.sorted⟩

/-- Keep the entries that satisfy `p`. -/
def filter (m : SortedMap rank ν) (p : κ → ν → Bool) : SortedMap rank ν :=
  ⟨m.entries.filter fun e => p e.1 e.2, m.sorted.filter _⟩

/-- Drop the entry whose key is equivalent to `k`. -/
def erase (m : SortedMap rank ν) (k : κ) : SortedMap rank ν :=
  m.filter fun k' _ => decide (rank k' ≠ rank k)

/-- Rewrite every value in place. -/
def mapValues (m : SortedMap rank ν) (f : κ → ν → μ) : SortedMap rank μ :=
  ⟨m.entries.map fun e => (e.1, f e.1 e.2), List.pairwise_map.mpr (by simpa using m.sorted)⟩

/-- The entries up to and including rank `r`, in order. -/
def upTo (m : SortedMap rank ν) (r : ω) : List (κ × ν) := m.entries.takeWhile fun e => rank e.1 ≤ r

/-- The entries after rank `r`: the first one is the upper bound of `r`. -/
def after (m : SortedMap rank ν) (r : ω) : List (κ × ν) := m.entries.dropWhile fun e => rank e.1 ≤ r

/-- Entries with equivalent keys coincide. -/
theorem entry_unique (m : SortedMap rank ν) {d e : κ × ν} (hd : d ∈ m.entries) (he : e ∈ m.entries)
    (h : rank d.1 = rank e.1) : d = e := by
  have hs := m.sorted
  generalize m.entries = l at hd he hs
  induction l with
  | nil => cases hd
  | cons a l ih =>
    have hp := List.pairwise_cons.mp hs
    rcases List.mem_cons.mp hd with hd | hd <;> rcases List.mem_cons.mp he with he | he
    · exact hd.trans he.symm
    · exact absurd h (hd ▸ (hp.1 e he).ne)
    · exact absurd h.symm (he ▸ (hp.1 d hd).ne)
    · exact ih hd he hp.2

theorem find?_eq_some_iff (m : SortedMap rank ν) (k : κ) (e : κ × ν) :
    m.find? k = some e ↔ e ∈ m.entries ∧ rank e.1 = rank k := by
  constructor
  · intro h
    exact ⟨List.mem_of_find?_eq_some h, by simpa using List.find?_some h⟩
  · rintro ⟨hm, hk⟩
    cases hf : m.find? k with
    | none => exact absurd hk (by simpa using List.find?_eq_none.mp hf e hm)
    | some d =>
      have hd : rank d.1 = rank k := by simpa using List.find?_some hf
      rw [m.entry_unique (List.mem_of_find?_eq_some hf) hm (hd.trans hk.symm)]

theorem find?_eq_none_iff (m : SortedMap rank ν) (k : κ) :
    m.find? k = none ↔ ∀ e ∈ m.entries, rank e.1 ≠ rank k := by
  simp [find?]

theorem find?_congr (m : SortedMap rank ν) {j k : κ} (h : rank j = rank k) : m.find? j = m.find? k := by
  simp [find?, h]

theorem get?_congr (m : SortedMap rank ν) {j k : κ} (h : rank j = rank k) : m.get? j = m.get? k := by
  simp [get?, m.find?_congr h]

theorem get?_eq_some_iff (m : SortedMap rank ν) (k : κ) (v : ν) :
    m.get? k = some v ↔ ∃ j, (j, v) ∈ m.entries ∧ rank j = rank k := by
  simp only [get?, Option.map_eq_some_iff, Prod.exists, exists_eq_right, find?_eq_some_iff]

theorem get?_of_mem (m : SortedMap rank ν) {e : κ × ν} (h : e ∈ m.entries) : m.get? e.1 = some e.2 :=
  (m.get?_eq_some_iff _ _).mpr ⟨e.1, h, rfl⟩

theorem contains_iff (m : SortedMap rank ν) (k : κ) :
    m.contains k = true ↔ ∃ e ∈ m.entries, rank e.1 = rank k := by
  simp only [contains, Option.isSome_iff_exists, find?_eq_some_iff]

theorem mem_keys (m : SortedMap rank ν) (k : κ) : k ∈ m.keys ↔ ∃ v, (k, v) ∈ m.entries := by
  simp [keys]

theorem mem_keys_of_mem {m : SortedMap rank ν} {e : κ × ν} (h : e ∈ m.entries) : e.1 ∈ m.keys :=
  (m.mem_keys e.1).mpr ⟨e.2, h⟩

theorem contains_iff_keys (m : SortedMap rank ν) (k : κ) :
    m.contains k = true ↔ ∃ j ∈ m.keys, rank j = rank k := by
  simp only [contains_iff, mem_keys, Prod.exists]
  exact ⟨fun ⟨j, v, h, hr⟩ => ⟨j, ⟨v, h⟩, hr⟩, fun ⟨j, ⟨v, h⟩, hr⟩ => ⟨j, v, h, hr⟩⟩

theorem contains_eq_isSome_get? (m : SortedMap rank ν) (k : κ) : m.contains k = (m.get? k).isSome := by
  simp [contains, get?]

theorem contains_congr (m : SortedMap rank ν) {j k : κ} (h : rank j = rank k) :
    m.contains j = m.contains k := by
  simp [contains, m.find?_congr h]

@[simp] theorem empty_entries : (empty : SortedMap rank ν).entries = [] := rfl
@[simp] theorem find?_empty (k : κ) : (empty : SortedMap rank ν).find? k = none := rfl
@[simp] theorem get?_empty (k : κ) : (empty : SortedMap rank ν).get? k = none := rfl

private theorem insertEntry_present {k : κ} {v : ν} {l : List (κ × ν)}
    (hs : l.Pairwise fun a b => rank a.1 < rank b.1) (h : ∃ e ∈ l, rank e.1 = rank k) :
    insertEntry rank k v l = l := by
  induction l with
  | nil => simp at h
  | cons d l ih =>
    have hp := List.pairwise_cons.mp hs
    obtain ⟨e, he, hk⟩ := h
    simp only [insertEntry]
    rcases List.mem_cons.mp he with rfl | he
    · simp [hk]
    · have hlt : rank d.1 < rank k := hk ▸ hp.1 e he
      rw [if_neg (not_lt_of_gt hlt), if_pos hlt, ih hp.2 ⟨e, he, hk⟩]

private theorem mem_insertEntry_absent {k : κ} {v : ν} {l : List (κ × ν)} (h : ∀ e ∈ l, rank e.1 ≠ rank k)
    (e : κ × ν) : e ∈ insertEntry rank k v l ↔ e = (k, v) ∨ e ∈ l := by
  refine ⟨mem_insertEntry, fun he => ?_⟩
  induction l with
  | nil => simpa [insertEntry] using he
  | cons d l ih =>
    have hd := h d (by simp)
    simp only [insertEntry]
    split_ifs with hlt hgt
    · simpa using he
    · have hr := ih (fun x hx => h x (List.mem_cons_of_mem _ hx))
      simp only [List.mem_cons] at he ⊢
      rcases he with he | rfl | he
      · exact .inr (hr (.inl he))
      · exact .inl rfl
      · exact .inr (hr (.inr he))
    · exact absurd (le_antisymm (not_lt.mp hlt) (not_lt.mp hgt)) hd

theorem insert_of_contains (m : SortedMap rank ν) {k : κ} (v : ν) (h : m.contains k = true) :
    m.insert k v = m :=
  SortedMap.ext (insertEntry_present m.sorted ((m.contains_iff k).mp h))

theorem mem_insert (m : SortedMap rank ν) {k : κ} {v : ν} (h : m.contains k = false) (e : κ × ν) :
    e ∈ (m.insert k v).entries ↔ e = (k, v) ∨ e ∈ m.entries := by
  apply mem_insertEntry_absent
  intro d hd hk
  have : m.contains k = true := (m.contains_iff k).mpr ⟨d, hd, hk⟩
  simp [h] at this

theorem mem_insert_of_mem (m : SortedMap rank ν) {k : κ} {v : ν} {e : κ × ν} (h : e ∈ m.entries) :
    e ∈ (m.insert k v).entries := by
  cases hc : m.contains k with
  | true => rwa [m.insert_of_contains v hc]
  | false => exact (m.mem_insert hc e).mpr (.inr h)

@[simp] theorem mem_filter (m : SortedMap rank ν) (p : κ → ν → Bool) (e : κ × ν) :
    e ∈ (m.filter p).entries ↔ e ∈ m.entries ∧ p e.1 e.2 = true := by
  simp [filter]

@[simp] theorem mem_erase (m : SortedMap rank ν) (k : κ) (e : κ × ν) :
    e ∈ (m.erase k).entries ↔ e ∈ m.entries ∧ rank e.1 ≠ rank k := by
  simp [erase]

@[simp] theorem mem_mapValues (m : SortedMap rank ν) (f : κ → ν → μ) (e : κ × μ) :
    e ∈ (m.mapValues f).entries ↔ ∃ v, (e.1, v) ∈ m.entries ∧ e.2 = f e.1 v := by
  obtain ⟨k, w⟩ := e
  simp only [mapValues, List.mem_map, Prod.mk.injEq, Prod.exists]
  constructor
  · rintro ⟨j, v, hm, rfl, rfl⟩
    exact ⟨v, hm, rfl⟩
  · rintro ⟨v, hm, rfl⟩
    exact ⟨k, v, hm, rfl, rfl⟩

@[simp] theorem keys_mapValues (m : SortedMap rank ν) (f : κ → ν → μ) : (m.mapValues f).keys = m.keys := by
  simp [keys, mapValues, Function.comp_def]

theorem mem_keys_insert (m : SortedMap rank ν) {k : κ} {v : ν} (h : m.contains k = false) (j : κ) :
    j ∈ (m.insert k v).keys ↔ j = k ∨ j ∈ m.keys := by
  simp only [mem_keys, m.mem_insert h, Prod.mk.injEq]
  exact ⟨fun ⟨w, hw⟩ => hw.imp And.left fun q => ⟨w, q⟩,
    fun hj => hj.elim (fun q => ⟨v, .inl ⟨q, rfl⟩⟩) fun ⟨w, q⟩ => ⟨w, .inr q⟩⟩

theorem mem_keys_erase (m : SortedMap rank ν) (k j : κ) :
    j ∈ (m.erase k).keys ↔ j ∈ m.keys ∧ rank j ≠ rank k := by
  simp [mem_keys]

/-- Looking a key up after an insertion: the old entry wins, then the new one. -/
theorem find?_insert (m : SortedMap rank ν) (k j : κ) (v : ν) :
    (m.insert k v).find? j =
      if rank k = rank j ∧ m.contains k = false then some (k, v) else m.find? j := by
  cases hc : m.contains k with
  | true => simp [m.insert_of_contains v hc]
  | false =>
    by_cases hk : rank k = rank j
    · simp only [hk, and_self, if_true]
      exact ((m.insert k v).find?_eq_some_iff j _).mpr ⟨(m.mem_insert hc _).mpr (.inl rfl), hk⟩
    · simp only [hk, false_and, if_false]
      apply Option.ext
      intro e
      simp only [find?_eq_some_iff, m.mem_insert hc]
      constructor
      · rintro ⟨rfl | he, hj⟩
        · exact absurd hj hk
        · exact ⟨he, hj⟩
      · rintro ⟨he, hj⟩
        exact ⟨.inr he, hj⟩

theorem get?_insert (m : SortedMap rank ν) (k j : κ) (v : ν) :
    (m.insert k v).get? j = if rank k = rank j ∧ m.contains k = false then some v else m.get? j := by
  simp only [get?, find?_insert]
  split <;> rfl

theorem find?_filter_key (m : SortedMap rank ν) (q : ω → Bool) (j : κ) :
    (m.filter fun k _ => q (rank k)).find? j = if q (rank j) then m.find? j else none := by
  apply Option.ext
  intro e
  simp only [find?_eq_some_iff, mem_filter]
  by_cases hq : q (rank j) = true
  · simp only [hq, if_true, find?_eq_some_iff]
    exact ⟨fun h => ⟨h.1.1, h.2⟩, fun h => ⟨⟨h.1, by rw [h.2]; exact hq⟩, h.2⟩⟩
  · simp only [hq, Bool.false_eq_true, if_false, reduceCtorEq, iff_false, not_and]
    rintro ⟨_, h⟩ he
    rw [he] at h
    exact hq h

theorem find?_erase (m : SortedMap rank ν) (k j : κ) :
    (m.erase k).find? j = if rank j = rank k then none else m.find? j := by
  have h := m.find?_filter_key (fun r => decide (r ≠ rank k)) j
  by_cases hj : rank j = rank k <;> simpa [erase, hj] using h

theorem get?_erase (m : SortedMap rank ν) (k j : κ) :
    (m.erase k).get? j = if rank j = rank k then none else m.get? j := by
  simp only [get?, find?_erase]
  split <;> rfl

theorem contains_erase (m : SortedMap rank ν) (k j : κ) :
    (m.erase k).contains j = (decide (rank j ≠ rank k) && m.contains j) := by
  simp only [contains, find?_erase]
  by_cases h : rank j = rank k <;> simp [h]

/-- Give the key this value, whether or not it has one already. -/
def put (m : SortedMap rank ν) (k : κ) (v : ν) : SortedMap rank ν := (m.erase k).insert k v

theorem get?_put (m : SortedMap rank ν) (k j : κ) (v : ν) :
    (m.put k v).get? j = if rank k = rank j then some v else m.get? j := by
  have hc : (m.erase k).contains k = false := by simp [contains_erase]
  rw [put, get?_insert, hc, get?_erase]
  by_cases hk : rank k = rank j
  · simp [hk]
  · simp [hk, Ne.symm hk]

theorem find?_mapValues (m : SortedMap rank ν) (f : κ → ν → μ) (k : κ) :
    (m.mapValues f).find? k = (m.find? k).map fun e => (e.1, f e.1 e.2) := by
  apply Option.ext
  rintro ⟨j, w⟩
  simp only [find?_eq_some_iff, mem_mapValues, Option.map_eq_some_iff, Prod.mk.injEq, Prod.exists]
  constructor
  · rintro ⟨⟨v, hm, rfl⟩, hj⟩
    exact ⟨j, v, ⟨hm, hj⟩, rfl, rfl⟩
  · rintro ⟨i, v, ⟨hm, hi⟩, rfl, rfl⟩
    exact ⟨⟨v, hm, rfl⟩, hi⟩

theorem get?_mapValues (m : SortedMap rank ν) (f : κ → ν → μ) (k : κ) :
    (m.mapValues f).get? k = (m.find? k).map fun e => f e.1 e.2 := by
  simp [get?, find?_mapValues, Function.comp_def]

theorem contains_mapValues (m : SortedMap rank ν) (f : κ → ν → μ) (k : κ) :
    (m.mapValues f).contains k = m.contains k := by
  simp [contains, find?_mapValues]

/-- The entries split at any rank. -/
theorem upTo_append_after (m : SortedMap rank ν) (r : ω) : m.upTo r ++ m.after r = m.entries :=
  List.takeWhile_append_dropWhile

private theorem mem_takeWhile_rank {l : List (κ × ν)} (hs : l.Pairwise fun a b => rank a.1 < rank b.1)
    (r : ω) (e : κ × ν) : e ∈ l.takeWhile (fun e => rank e.1 ≤ r) ↔ e ∈ l ∧ rank e.1 ≤ r := by
  induction l with
  | nil => simp
  | cons d l ih =>
    have hp := List.pairwise_cons.mp hs
    by_cases hd : rank d.1 ≤ r
    · rw [List.takeWhile_cons_of_pos (by simpa using hd), List.mem_cons, ih hp.2, List.mem_cons]
      constructor
      · rintro (rfl | ⟨hm, hr⟩)
        · exact ⟨.inl rfl, hd⟩
        · exact ⟨.inr hm, hr⟩
      · rintro ⟨rfl | hm, hr⟩
        · exact .inl rfl
        · exact .inr ⟨hm, hr⟩
    · rw [List.takeWhile_cons_of_neg (by simpa using hd)]
      simp only [List.not_mem_nil, List.mem_cons, false_iff, not_and]
      rintro (rfl | hm) hr
      · exact hd hr
      · exact hd ((hp.1 e hm).le.trans hr)

theorem mem_upTo (m : SortedMap rank ν) (r : ω) (e : κ × ν) :
    e ∈ m.upTo r ↔ e ∈ m.entries ∧ rank e.1 ≤ r :=
  mem_takeWhile_rank m.sorted r e

theorem mem_after (m : SortedMap rank ν) (r : ω) (e : κ × ν) :
    e ∈ m.after r ↔ e ∈ m.entries ∧ r < rank e.1 := by
  have hsplit : e ∈ m.entries ↔ e ∈ m.upTo r ∨ e ∈ m.after r := by
    rw [← m.upTo_append_after r, List.mem_append]
  constructor
  · intro he
    have hm := hsplit.mpr (.inr he)
    refine ⟨hm, lt_of_not_ge fun hle => ?_⟩
    have hs := m.sorted
    rw [← m.upTo_append_after r] at hs
    exact absurd ((List.pairwise_append.mp hs).2.2 e ((m.mem_upTo r e).mpr ⟨hm, hle⟩) e he) (lt_irrefl _)
  · rintro ⟨hm, hlt⟩
    refine (hsplit.mp hm).resolve_left fun hu => ?_
    exact absurd ((m.mem_upTo r e).mp hu).2 (not_le_of_gt hlt)

/-- The last entry up to a rank is the greatest of them. -/
theorem le_getLast_upTo (m : SortedMap rank ν) {r : ω} {d e : κ × ν} (hd : (m.upTo r).getLast? = some d)
    (he : e ∈ m.upTo r) : rank e.1 ≤ rank d.1 := by
  obtain ⟨ys, hys⟩ := List.getLast?_eq_some_iff.mp hd
  have hs : (m.upTo r).Pairwise fun a b => rank a.1 < rank b.1 := m.sorted.sublist (List.takeWhile_sublist _)
  rw [hys] at hs he
  rcases List.mem_append.mp he with he | he
  · exact ((List.pairwise_append.mp hs).2.2 e he d List.mem_cons_self).le
  · rw [List.mem_singleton.mp he]

/-- The first entry after a rank is the least of them. -/
theorem head_after_le (m : SortedMap rank ν) {r : ω} {d e : κ × ν} (hd : (m.after r).head? = some d)
    (he : e ∈ m.after r) : rank d.1 ≤ rank e.1 := by
  obtain ⟨ys, hys⟩ := List.head?_eq_some_iff.mp hd
  have hs : (m.after r).Pairwise fun a b => rank a.1 < rank b.1 := m.sorted.sublist (List.dropWhile_sublist _)
  rw [hys] at hs he
  rcases List.mem_cons.mp he with rfl | he
  · exact le_refl _
  · exact ((List.pairwise_cons.mp hs).1 e he).le

theorem nodup_entries (m : SortedMap rank ν) : m.entries.Nodup :=
  m.sorted.imp fun h he => absurd (congrArg (fun e => rank e.1) he) h.ne

/-- A container is what its entries are. -/
theorem ext_of_mem {m m' : SortedMap rank ν} (h : ∀ e, e ∈ m.entries ↔ e ∈ m'.entries) : m = m' := by
  refine SortedMap.ext (List.Perm.eq_of_pairwise (fun a b _ _ hab hba => absurd hab hba.not_gt) m.sorted m'.sorted ?_)
  exact (List.perm_ext_iff_of_nodup (nodup_entries _) (nodup_entries _)).mpr h

theorem entries_insert_perm (m : SortedMap rank ν) {k : κ} (v : ν) (h : m.contains k = false) :
    (m.insert k v).entries.Perm ((k, v) :: m.entries) := by
  have hnew : (k, v) ∉ m.entries := fun hmem => by
    rw [(m.contains_iff k).mpr ⟨_, hmem, rfl⟩] at h
    cases h
  exact (List.perm_ext_iff_of_nodup (nodup_entries _) (List.nodup_cons.mpr ⟨hnew, nodup_entries _⟩)).mpr
    fun e => (m.mem_insert h e).trans List.mem_cons.symm

theorem insert_perm (m : SortedMap rank ν) {k : κ} (v : ν) (h : m.contains k = false) :
    (m.insert k v).keys.Perm (k :: m.keys) :=
  (m.entries_insert_perm v h).map Prod.fst

theorem entries_erase_perm (m : SortedMap rank ν) {k : κ} {v : ν} (h : (k, v) ∈ m.entries) :
    m.entries.Perm ((k, v) :: (m.erase k).entries) := by
  have hout : (k, v) ∉ (m.erase k).entries := fun hmem => ((m.mem_erase k _).mp hmem).2 rfl
  refine (List.perm_ext_iff_of_nodup (nodup_entries _) (List.nodup_cons.mpr ⟨hout, nodup_entries _⟩)).mpr
    fun e => ?_
  rw [List.mem_cons, mem_erase]
  constructor
  · intro he
    by_cases hr : rank e.1 = rank k
    · exact .inl (m.entry_unique he h hr)
    · exact .inr ⟨he, hr⟩
  · rintro (rfl | ⟨he, -⟩)
    · exact h
    · exact he

theorem erase_perm (m : SortedMap rank ν) {k : κ} {v : ν} (h : (k, v) ∈ m.entries) :
    m.keys.Perm (k :: (m.erase k).keys) :=
  (m.entries_erase_perm h).map Prod.fst

theorem erase_of_absent (m : SortedMap rank ν) {k : κ} (h : m.contains k = false) : m.erase k = m := by
  refine SortedMap.ext (List.filter_eq_self.mpr fun e he => decide_eq_true fun hr => ?_)
  rw [(m.contains_iff k).mpr ⟨e, he, hr⟩] at h
  cases h

theorem put_of_absent (m : SortedMap rank ν) {k : κ} (v : ν) (h : m.contains k = false) : m.put k v = m.insert k v := by
  rw [put, m.erase_of_absent h]

end SortedMap
end Synergy.Lib
