import Mathlib.Data.List.Sort
import Mathlib.Order.Lattice

/-! Heaps in lists: the element at the head has the least key. The algorithms that build them are
known by what they promise only. -/
namespace Synergy.Lib
variable {α β : Type*} [LinearOrder β]

/-- The key of an element is not less than that of its parent. -/
def IsHeap (key : α → β) (l : List α) : Prop :=
  ∀ i a b, 0 < i → l[(i - 1) / 2]? = some a → l[i]? = some b → key a ≤ key b

namespace IsHeap
variable {key : α → β} {l : List α}

theorem nil : IsHeap key [] := fun _ _ _ _ ha => nomatch ha

/-- No key is less than the one at the head. -/
theorem head_le {a : α} (h : IsHeap key (a :: l)) : ∀ b ∈ a :: l, key a ≤ key b := by
  have hindex (i : Nat) : ∀ b, (a :: l)[i]? = some b → key a ≤ key b := by
    induction i using Nat.strong_induction_on with
    | _ i ih =>
      intro b hb
      rcases Nat.eq_zero_or_pos i with rfl | hi
      · exact (congrArg key (Option.some.inj hb)).le
      · have hlt : i < (a :: l).length := (List.getElem?_eq_some_iff.mp hb).1
        have hparent : (i - 1) / 2 < i := by omega
        have hget := List.getElem?_eq_getElem (hparent.trans hlt)
        exact (ih _ hparent _ hget).trans (h i _ b hi hget hb)
  intro b hb
  obtain ⟨i, hi⟩ := List.mem_iff_getElem?.mp hb
  exact hindex i b hi

/-- A change that keeps the order of the keys keeps a heap. -/
theorem map {α' : Type*} {key' : α' → β} {f : α → α'} (h : IsHeap key l)
    (hf : ∀ a b, key a ≤ key b → key' (f a) ≤ key' (f b)) : IsHeap key' (l.map f) := by
  intro i a' b' hi ha hb
  rw [List.getElem?_map, Option.map_eq_some_iff] at ha hb
  obtain ⟨a, ha, rfl⟩ := ha
  obtain ⟨b, hb, rfl⟩ := hb
  exact hf a b (h i a b hi ha hb)

theorem of_sorted (h : l.Pairwise fun a b => key a ≤ key b) : IsHeap key l := by
  intro i a b hi ha hb
  obtain ⟨hparent, rfl⟩ := List.getElem?_eq_some_iff.mp ha
  obtain ⟨hchild, rfl⟩ := List.getElem?_eq_some_iff.mp hb
  exact List.pairwise_iff_getElem.mp h _ _ hparent hchild (by omega)

end IsHeap

/-- The heap algorithms of the standard library: what becomes of a heap with an element behind it,
of a heap whose head goes to the end, and of any elements. -/
structure StdHeap (key : α → β) where
  pushHeap : List α → List α
  popHeap : List α → List α
  makeHeap : List α → List α
  push_perm (l : List α) : (pushHeap l).Perm l
  push_isHeap (v : α) {l : List α} (h : IsHeap key l) : IsHeap key (pushHeap (l ++ [v]))
  pop_head {a : α} {l : List α} (h : IsHeap key (a :: l)) :
    ∃ l', popHeap (a :: l) = l' ++ [a] ∧ l'.Perm l ∧ IsHeap key l'
  make_perm (l : List α) : (makeHeap l).Perm l
  make_isHeap (l : List α) : IsHeap key (makeHeap l)

namespace StdHeap

theorem pop_isHeap {key : α → β} (H : StdHeap key) {a : α} {l : List α} (h : IsHeap key (a :: l)) :
    IsHeap key (H.popHeap (a :: l)).dropLast := by
  obtain ⟨l', hpop, _, hl'⟩ := H.pop_head h
  rwa [hpop, List.dropLast_concat]

theorem pop_perm {key : α → β} (H : StdHeap key) {a : α} {l : List α} (h : IsHeap key (a :: l)) :
    ((H.popHeap (a :: l)).dropLast).Perm l := by
  obtain ⟨l', hpop, hl', _⟩ := H.pop_head h
  rwa [hpop, List.dropLast_concat]

private theorem isHeap_insertionSort (key : α → β) (l : List α) :
    IsHeap key (l.insertionSort (key · ≤ key ·)) := by
  have : Std.Total fun a b : α => key a ≤ key b := ⟨fun a b => le_total (key a) (key b)⟩
  have : IsTrans α fun a b => key a ≤ key b := ⟨fun _ _ _ => le_trans⟩
  exact IsHeap.of_sorted (List.pairwise_insertionSort _ l)

/-- The algorithms by sorting. -/
def sorting (key : α → β) : StdHeap key where
  pushHeap := List.insertionSort (key · ≤ key ·)
  popHeap
    | [] => []
    | a :: l => l.insertionSort (key · ≤ key ·) ++ [a]
  makeHeap := List.insertionSort (key · ≤ key ·)
  push_perm := List.perm_insertionSort _
  push_isHeap := fun _ _ _ => isHeap_insertionSort key _
  pop_head := fun {_ l} _ => ⟨_, rfl, List.perm_insertionSort _ l, isHeap_insertionSort key l⟩
  make_perm := List.perm_insertionSort _
  make_isHeap := isHeap_insertionSort key

end StdHeap

end Synergy.Lib
