import Mathlib.Order.CompletePartialOrder
import Mathlib.Order.Interval.Set.Disjoint
import Synergy.Server.Config

/-! The links of a screen that share a side never overlap, and so the two links next to a position
tell all there is to know about it. -/
namespace Synergy
open Synergy.Lib

namespace CellEdge
variable {e x y : CellEdge}

theorem overlaps_iff : e.overlaps x = true ↔
    e.side = x.side ∧ e.interval.first < x.interval.second ∧ x.interval.first < e.interval.second := by
  have he := e.interval.lt
  have hx := x.interval.lt
  unfold overlaps
  by_cases hside : e.side = x.side
  · simp only [hside, ne_eq, not_true, if_false, Bool.or_eq_true, Bool.and_eq_true, decide_eq_true_eq, true_and]
    constructor
    · rintro (((h | h) | h) | h)
      · exact ⟨h.2, h.1.trans_lt he⟩
      · exact ⟨he.trans_le h.2, h.1⟩
      · exact ⟨h.1.trans_lt hx, h.2⟩
      · exact ⟨h.1, hx.trans_le h.2⟩
    · rintro ⟨hl, hr⟩
      rcases le_total x.interval.first e.interval.first with hle | hle
      · exact .inl (.inl (.inl ⟨hle, hl⟩))
      · exact .inl (.inr ⟨hle, hr⟩)
  · simp [hside]

/-- Edges of one side overlap when their intervals have a point in common. -/
theorem overlaps_iff_not_disjoint : e.overlaps x = true ↔ e.side = x.side ∧
    ¬ Disjoint (Set.Ico e.interval.first e.interval.second) (Set.Ico x.interval.first x.interval.second) := by
  have he := e.interval.lt
  have hx := x.interval.lt
  rw [overlaps_iff, Set.Ico_disjoint_Ico, not_le, lt_min_iff, max_lt_iff, max_lt_iff]
  simp only [he, hx, true_and, and_true]
  exact and_congr_right fun _ => And.comm

theorem overlaps_comm : e.overlaps x = x.overlaps e := by
  rw [Bool.eq_iff_iff, overlaps_iff, overlaps_iff]
  exact ⟨fun ⟨h, hl, hr⟩ => ⟨h.symm, hr, hl⟩, fun ⟨h, hl, hr⟩ => ⟨h.symm, hr, hl⟩⟩

theorem same_iff : e.same x = true ↔ e.side = x.side ∧ e.interval = x.interval := by
  simp [same]

theorem rank_lt_iff : e.rank < x.rank ↔
    e.side.toNat < x.side.toNat ∨ e.side.toNat = x.side.toNat ∧ e.interval.first < x.interval.first :=
  Prod.Lex.toLex_lt_toLex

theorem rank_le_iff {side : Direction} {position : ℚ} : e.rank ≤ toLex (side.toNat, position) ↔
    e.side.toNat < side.toNat ∨ e.side.toNat = side.toNat ∧ e.interval.first ≤ position :=
  Prod.Lex.toLex_le_toLex

theorem rank_eq_iff : e.rank = x.rank ↔ e.side.toNat = x.side.toNat ∧ e.interval.first = x.interval.first := by
  simp [rank]

/-- Between two edges of one side in the order lie edges of that side only. -/
theorem rank_between {side : Direction} {position : ℚ} (hx : x.rank ≤ y.rank)
    (hy : y.rank ≤ toLex (side.toNat, position)) (hside : x.side = side) :
    y.side = side ∧ x.interval.first ≤ y.interval.first ∧ y.interval.first ≤ position := by
  have hxy : x.side.toNat < y.side.toNat ∨ x.side.toNat = y.side.toNat ∧ x.interval.first ≤ y.interval.first :=
    rank_le_iff.mp hx
  have hyz := rank_le_iff.mp hy
  rw [hside] at hxy
  have heq : y.side.toNat = side.toNat := by omega
  refine ⟨Direction.toNat_injective heq, ?_, ?_⟩
  · rcases hxy with hlt | ⟨-, hle⟩
    · omega
    · exact hle
  · rcases hyz with hlt | ⟨-, hle⟩
    · omega
    · exact hle

end CellEdge

namespace Cell
variable {c : Cell}

/-- What can be done to the links of a cell; `eqName` is how a name is compared. -/
inductive LinkCall
  | add (src dst : CellEdge)
  | removeSide (side : Direction)
  | removeAt (side : Direction) (position : ℚ)
  | removeName (eqName : Str → Bool)
  | rename (eqName : Str → Bool) (newName : Str)

/-- A link that cannot be added leaves the cell as it was. -/
def call (c : Cell) : LinkCall → Cell
  | .add src dst => (c.add src dst).getD c
  | .removeSide side => c.removeSide side
  | .removeAt side position => c.removeAt side position
  | .removeName eqName => c.removeName eqName
  | .rename eqName newName => c.rename eqName newName

/-- No two links overlap. -/
def Separate (c : Cell) : Prop :=
  ∀ i ∈ c.neighbors.entries, ∀ j ∈ c.neighbors.entries, i.1.overlaps j.1 = true → i = j

theorem separate_empty : Separate empty := fun _ hi => absurd hi List.not_mem_nil

private theorem Separate.of_keys (h : Separate c) {d : Cell}
    (hkeys : ∀ i ∈ d.neighbors.entries, ∃ v, (i.1, v) ∈ c.neighbors.entries) : Separate d := by
  intro i hi j hj hover
  obtain ⟨v, hv⟩ := hkeys i hi
  obtain ⟨w, hw⟩ := hkeys j hj
  have hkey : i.1 = j.1 := (Prod.mk.inj (h _ hv _ hw hover)).1
  exact d.neighbors.entry_unique hi hj (congrArg CellEdge.rank hkey)

theorem hasEdge_iff (e : CellEdge) : c.hasEdge e = true ↔ ∃ i ∈ c.neighbors.entries, i.1.same e = true := by
  unfold hasEdge
  cases hfind : c.neighbors.find? e with
  | none =>
    refine ⟨fun hnot => (by cases hnot), ?_⟩
    rintro ⟨i, hi, hsame⟩
    obtain ⟨hside, hinterval⟩ := CellEdge.same_iff.mp hsame
    have hrank : i.1.rank = e.rank := CellEdge.rank_eq_iff.mpr ⟨by rw [hside], by rw [hinterval]⟩
    exact absurd hrank ((c.neighbors.find?_eq_none_iff e).mp hfind i hi)
  | some i =>
    obtain ⟨hi, hrank⟩ := (c.neighbors.find?_eq_some_iff e i).mp hfind
    refine ⟨fun hsame => ⟨i, hi, hsame⟩, ?_⟩
    rintro ⟨j, hj, hsame⟩
    obtain ⟨hside, hinterval⟩ := CellEdge.same_iff.mp hsame
    have hj' : j.1.rank = e.rank := CellEdge.rank_eq_iff.mpr ⟨by rw [hside], by rw [hinterval]⟩
    rwa [c.neighbors.entry_unique hi hj (hrank.trans hj'.symm)]

private theorem contains_erase_self (src : CellEdge) : (c.neighbors.erase src).contains src = false := by
  rw [SortedMap.contains_erase]
  simp

private theorem mem_added {src dst : CellEdge} {i : CellEdge × CellEdge} :
    i ∈ ((c.neighbors.erase src).insert src dst).entries ↔
      i = (src, dst) ∨ i ∈ c.neighbors.entries ∧ i.1.rank ≠ src.rank := by
  rw [SortedMap.mem_insert _ (contains_erase_self src), SortedMap.mem_erase]

/-- A link at or before a position, on its side and reaching past it, is the last link up to it. -/
private theorem Separate.getLast?_upTo (h : Separate c) {side : Direction} {position : ℚ}
    {i : CellEdge × CellEdge} (hi : i ∈ c.neighbors.entries) (hside : i.1.side = side)
    (hl : i.1.interval.first ≤ position) (hr : position < i.1.interval.second) :
    (c.neighbors.upTo (toLex (side.toNat, position))).getLast? = some i := by
  have hmem : i ∈ c.neighbors.upTo (toLex (side.toNat, position)) :=
    (c.neighbors.mem_upTo _ _).mpr ⟨hi, CellEdge.rank_le_iff.mpr (.inr ⟨by rw [hside], hl⟩)⟩
  obtain ⟨d, hd⟩ := Option.isSome_iff_exists.mp (List.getLast?_isSome.mpr (List.ne_nil_of_mem hmem))
  obtain ⟨hdm, hdp⟩ := (c.neighbors.mem_upTo _ _).mp (List.mem_of_getLast? hd)
  obtain ⟨hdside, hfirst, hdle⟩ := CellEdge.rank_between (c.neighbors.le_getLast_upTo hd hmem) hdp hside
  have hover : i.1.overlaps d.1 = true :=
    CellEdge.overlaps_iff.mpr ⟨hside.trans hdside.symm, hfirst.trans_lt d.1.interval.lt, hdle.trans_lt hr⟩
  rw [hd, h i hi d hdm hover]

/-- A link that overlaps `e` is the last one up to `e`, or else the first one after `e` overlaps too. -/
theorem Separate.overlaps_iff (h : Separate c) (e : CellEdge) :
    c.overlaps e = true ↔ ∃ i ∈ c.neighbors.entries, i.1.overlaps e = true := by
  rw [overlaps, Bool.or_eq_true, Option.any_eq_true, Option.any_eq_true]
  constructor
  · rintro (⟨d, hd, hover⟩ | ⟨d, hd, hover⟩)
    · exact ⟨d, ((c.neighbors.mem_after _ _).mp (List.mem_of_head? hd)).1, hover⟩
    · exact ⟨d, ((c.neighbors.mem_upTo _ _).mp (List.mem_of_getLast? hd)).1, hover⟩
  · rintro ⟨i, hi, hover⟩
    obtain ⟨hside, hl, hr⟩ := CellEdge.overlaps_iff.mp hover
    rcases le_or_gt i.1.interval.first e.interval.first with hle | hlt
    · exact .inr ⟨i, h.getLast?_upTo hi hside hle hr, hover⟩
    · left
      have hrank : e.rank < i.1.rank := CellEdge.rank_lt_iff.mpr (.inr ⟨by rw [hside], hlt⟩)
      have hmem : i ∈ c.neighbors.after e.rank := (c.neighbors.mem_after _ _).mpr ⟨hi, hrank⟩
      obtain ⟨d, hd⟩ := Option.isSome_iff_exists.mp (List.isSome_head?.mpr (List.ne_nil_of_mem hmem))
      have hed := ((c.neighbors.mem_after _ _).mp (List.mem_of_head? hd)).2
      have hdi : d.1.rank ≤ toLex (i.1.side.toNat, i.1.interval.first) := c.neighbors.head_after_le hd hmem
      obtain ⟨hdside, hfirst, hdle⟩ := CellEdge.rank_between hed.le hdi hside.symm
      exact ⟨d, hd, CellEdge.overlaps_iff.mpr
        ⟨hdside.trans hside, hdle.trans_lt hl, hfirst.trans_lt d.1.interval.lt⟩⟩

/-- A link is added when it takes the place of an equal one, or overlaps none. -/
theorem Separate.add_isSome_iff (h : Separate c) (src dst : CellEdge) : (c.add src dst).isSome = true ↔
    (∃ i ∈ c.neighbors.entries, i.1.same src = true) ∨ ¬ ∃ i ∈ c.neighbors.entries, i.1.overlaps src = true := by
  rw [← hasEdge_iff, ← h.overlaps_iff]
  unfold add
  cases c.hasEdge src <;> cases c.overlaps src <;> simp

/-- The link found is the only one of the side that covers the position. -/
theorem Separate.getLink_iff (h : Separate c) {side : Direction} {position : ℚ} {i : CellEdge × CellEdge} :
    c.getLink side position = some i ↔
      i ∈ c.neighbors.entries ∧ i.1.side = side ∧ i.1.isInside position = true := by
  refine ⟨getLink_eq_some, ?_⟩
  rintro ⟨hi, hside, hin⟩
  obtain ⟨hl, hr⟩ := (i.1.isInside_iff position).mp hin
  simp [getLink, h.getLast?_upTo hi hside hl hr, hside, hin]

theorem Separate.add (h : Separate c) {src dst : CellEdge} {d : Cell} (hadd : c.add src dst = some d) :
    Separate d := by
  have hfree : ∀ i ∈ c.neighbors.entries, i.1.rank ≠ src.rank → i.1.overlaps src = false := by
    intro i hi hrank
    rcases (h.add_isSome_iff src dst).mp (Option.isSome_of_eq_some hadd) with ⟨j, hj, hsame⟩ | hnone
    · obtain ⟨hside, hinterval⟩ := CellEdge.same_iff.mp hsame
      refine Bool.eq_false_iff.mpr fun hover => hrank ?_
      rw [h i hi j hj (by rwa [CellEdge.overlaps, hside, hinterval])]
      exact CellEdge.rank_eq_iff.mpr ⟨by rw [hside], by rw [hinterval]⟩
    · exact Bool.eq_false_iff.mpr fun hover => hnone ⟨i, hi, hover⟩
  obtain rfl : d = { c with neighbors := (c.neighbors.erase src).insert src dst } := by
    unfold Cell.add at hadd
    split_ifs at hadd
    exact (Option.some.inj hadd).symm
  intro i hi j hj hover
  rcases mem_added.mp hi with rfl | ⟨hi, hir⟩ <;> rcases mem_added.mp hj with rfl | ⟨hj, hjr⟩
  · rfl
  · rw [CellEdge.overlaps_comm, hfree j hj hjr] at hover
    cases hover
  · rw [hfree i hi hir] at hover
    cases hover
  · exact h i hi j hj hover

theorem Separate.call (h : Separate c) (o : LinkCall) : Separate (c.call o) := by
  cases o with
  | add src dst =>
    cases hadd : c.add src dst with
    | none => simpa [Cell.call, hadd] using h
    | some d => simpa [Cell.call, hadd] using h.add hadd
  | removeSide side => exact h.of_keys fun i hi => ⟨i.2, ((c.neighbors.mem_filter _ _).mp hi).1⟩
  | removeAt side position =>
    simp only [Cell.call, removeAt]
    split
    · exact h
    · exact h.of_keys fun i hi => ⟨i.2, ((c.neighbors.mem_erase _ _).mp hi).1⟩
  | removeName eqName => exact h.of_keys fun i hi => ⟨i.2, ((c.neighbors.mem_filter _ _).mp hi).1⟩
  | rename eqName newName =>
    refine h.of_keys fun i hi => ?_
    obtain ⟨v, hv, -⟩ := (c.neighbors.mem_mapValues _ _).mp hi
    exact ⟨v, hv⟩

/-- The links after any calls never overlap. -/
theorem Separate.run (calls : List LinkCall) : Separate (calls.foldl Cell.call empty) := by
  suffices hall : ∀ c, Separate c → Separate (calls.foldl Cell.call c) from hall _ separate_empty
  induction calls with
  | nil => exact fun _ h => h
  | cons o calls ih => exact fun c h => ih (c.call o) (h.call o)

/-- After any calls, links of a side are apart, the probe of two neighbours finds every overlap, a link
is added when it is stored or overlaps none, and a position finds the link that covers it. -/
theorem links_apart_and_found (calls : List LinkCall) :
    let c := calls.foldl Cell.call empty
    (∀ i ∈ c.neighbors.entries, ∀ j ∈ c.neighbors.entries, i ≠ j → i.1.side = j.1.side →
      Disjoint (Set.Ico i.1.interval.first i.1.interval.second)
        (Set.Ico j.1.interval.first j.1.interval.second)) ∧
    (∀ e : CellEdge, c.overlaps e = true ↔ ∃ i ∈ c.neighbors.entries, i.1.side = e.side ∧
      ¬ Disjoint (Set.Ico i.1.interval.first i.1.interval.second)
        (Set.Ico e.interval.first e.interval.second)) ∧
    (∀ src dst : CellEdge, (c.add src dst).isSome = true ↔
      (∃ i ∈ c.neighbors.entries, i.1.side = src.side ∧ i.1.interval = src.interval) ∨ c.overlaps src = false) ∧
    (∀ side position,
      (∀ i, c.getLink side position = some i ↔
        i ∈ c.neighbors.entries ∧ i.1.side = side ∧
          position ∈ Set.Ico i.1.interval.first i.1.interval.second) ∧
      (c.getLink side position = none ↔ ∀ i ∈ c.neighbors.entries, i.1.side = side →
        position ∉ Set.Ico i.1.interval.first i.1.interval.second) ∧
      (∀ i ∈ c.neighbors.entries, ∀ j ∈ c.neighbors.entries, i.1.side = side → j.1.side = side →
        position ∈ Set.Ico i.1.interval.first i.1.interval.second →
        position ∈ Set.Ico j.1.interval.first j.1.interval.second → i = j)) := by
  intro c
  have h : Separate c := .run calls
  have hget : ∀ side position i, c.getLink side position = some i ↔ i ∈ c.neighbors.entries ∧
      i.1.side = side ∧ position ∈ Set.Ico i.1.interval.first i.1.interval.second := by
    intro side position i
    rw [h.getLink_iff, CellEdge.isInside_iff, Set.mem_Ico]
  refine ⟨?_, fun e => ?_, fun src dst => ?_, fun side position => ⟨hget side position, ?_, ?_⟩⟩
  · intro i hi j hj hne hside
    by_contra hmeet
    exact hne (h i hi j hj (CellEdge.overlaps_iff_not_disjoint.mpr ⟨hside, hmeet⟩))
  · simp only [h.overlaps_iff, CellEdge.overlaps_iff_not_disjoint]
  · rw [h.add_isSome_iff, ← h.overlaps_iff, Bool.not_eq_true]
    simp only [CellEdge.same_iff]
  · rw [Option.eq_none_iff_forall_ne_some]
    simp only [ne_eq, hget, not_and]
  · intro i hi j hj hiside hjside hip hjp
    have hfound := (hget side position i).mpr ⟨hi, hiside, hip⟩
    rw [(hget side position j).mpr ⟨hj, hjside, hjp⟩] at hfound
    exact (Option.some.inj hfound).symm

end Cell
end Synergy
