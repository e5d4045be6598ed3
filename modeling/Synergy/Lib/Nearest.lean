import Mathlib.Algebra.Order.Group.Abs
import Mathlib.Tactic.SplitIfs

/-! The interval of a list that is nearest to a point, and the nearest point in it. -/
namespace Synergy.Lib
variable {α β : Type*} [LinearOrder α]

/-- The first of the members of a list whose cost is the least, if it is below a limit. -/
def cheapest (cost : β → α) (limit : α) (l : List β) : Option β :=
  (l.foldl (fun best b => if cost b < best.1 then (cost b, some b) else best) (limit, none)).2

/-- Nothing has been found yet, or the cost of what has been found is the least so far. -/
private def Least (cost : β → α) (limit : α) (l : List β) (best : α × Option β) : Prop :=
  (best.2 = none ∧ best.1 = limit ∨ ∃ b ∈ l, best.2 = some b ∧ best.1 = cost b ∧ cost b < limit) ∧
    ∀ c ∈ l, best.1 ≤ cost c

private theorem least_step {cost : β → α} {limit : α} {seen : List β} {best : α × Option β}
    (h : Least cost limit seen best) (b : β) :
    Least cost limit (seen ++ [b]) (if cost b < best.1 then (cost b, some b) else best) := by
  obtain ⟨hfound, hleast⟩ := h
  have hlimit : best.1 ≤ limit := by
    rcases hfound with ⟨-, heq⟩ | ⟨c, -, -, heq, hlt⟩
    · exact heq.le
    · exact heq.trans_le hlt.le
  split_ifs with hless
  · refine ⟨Or.inr ⟨b, List.mem_append_right _ (List.mem_singleton_self b), rfl, rfl, hless.trans_le hlimit⟩, ?_⟩
    intro c hc
    rcases List.mem_append.mp hc with hc | hc
    · exact hless.le.trans (hleast c hc)
    · exact (congrArg cost (List.mem_singleton.mp hc)).ge
  · refine ⟨hfound.imp id fun ⟨c, hc, hrest⟩ => ⟨c, List.mem_append_left _ hc, hrest⟩, ?_⟩
    intro c hc
    rcases List.mem_append.mp hc with hc | hc
    · exact hleast c hc
    · rw [List.mem_singleton.mp hc]
      exact not_lt.mp hless

private theorem least_foldl {cost : β → α} {limit : α} (l seen : List β) (best : α × Option β)
    (h : Least cost limit seen best) : Least cost limit (seen ++ l)
      (l.foldl (fun best b => if cost b < best.1 then (cost b, some b) else best) best) := by
  induction l generalizing seen best with
  | nil => rwa [List.append_nil]
  | cons b l ih =>
    rw [List.foldl_cons, List.append_cons]
    exact ih _ _ (least_step h b)

theorem cheapest_spec (cost : β → α) (limit : α) (l : List β) :
    (∀ b, cheapest cost limit l = some b → b ∈ l ∧ cost b < limit ∧ ∀ c ∈ l, cost b ≤ cost c) ∧
      (cheapest cost limit l = none ↔ ∀ c ∈ l, limit ≤ cost c) := by
  obtain ⟨hfound, hleast⟩ := least_foldl l [] (limit, none) (show Least cost limit [] (limit,
      none) from ⟨Or.inl ⟨rfl, rfl⟩, nofun⟩)
  rw [List.nil_append] at hfound hleast
  rw [cheapest]
  rcases hfound with ⟨hnone, heq⟩ | ⟨b, hb, hsome, heq, hlt⟩
  · rw [hnone]
    exact ⟨nofun, fun _ c hc => heq.symm.trans_le (hleast c hc), fun _ => rfl⟩
  · rw [hsome]
    refine ⟨fun c hc => ?_, nofun, fun hall => absurd (hall b hb) (not_le.mpr hlt)⟩
    obtain rfl := Option.some.inj hc
    exact ⟨hb, hlt, fun c hc => heq.symm.trans_le (hleast c hc)⟩

/-- The point of an interval that is nearest to a point. -/
def clamp (lo hi v : α) : α := max lo (min v hi)

theorem clamp_mem {lo hi : α} (h : lo ≤ hi) (v : α) : lo ≤ clamp lo hi v ∧ clamp lo hi v ≤ hi :=
  ⟨le_max_left _ _, max_le h (min_le_right _ _)⟩

theorem clamp_mono (lo hi : α) : Monotone (clamp lo hi) :=
  fun _ _ h => max_le_max le_rfl (min_le_min h le_rfl)

theorem clamp_of_mem {lo hi v : α} (hlo : lo ≤ v) (hhi : v ≤ hi) : clamp lo hi v = v := by
  rw [clamp, min_eq_left hhi, max_eq_right hlo]

section
variable [AddCommGroup α]

/-- How far a point is from an interval. -/
def gap (lo hi v : α) : α := if v < lo then lo - v else if hi < v then v - hi else 0

/-- The point goes to the nearest interval within a limit, the first one of several. -/
def snap (lo hi : β → α) (limit : α) (l : List β) (v : α) : α :=
  (cheapest (fun b => gap (lo b) (hi b) v) limit l).elim v fun b => clamp (lo b) (hi b) v

variable [IsOrderedAddMonoid α]

theorem gap_eq {lo hi : α} (h : lo ≤ hi) (v : α) : gap lo hi v = |v - clamp lo hi v| := by
  rw [gap]
  split_ifs with hlo hhi
  · rw [clamp, min_eq_left (hlo.le.trans h), max_eq_left hlo.le, abs_sub_comm, abs_of_nonneg (sub_nonneg.mpr hlo.le)]
  · rw [clamp, min_eq_right hhi.le, max_eq_right h, abs_of_nonneg (sub_nonneg.mpr hhi.le)]
  · rw [clamp_of_mem (not_lt.mp hlo) (not_lt.mp hhi), sub_self, abs_zero]

/-- No point of the interval is nearer. -/
theorem gap_le_abs {lo hi : α} {w : α} (hlo : lo ≤ w) (hhi : w ≤ hi) (v : α) : gap lo hi v ≤ |v - w| := by
  rw [gap]
  split_ifs with hless hmore
  · rw [abs_sub_comm]
    exact (sub_le_sub_right hlo v).trans (le_abs_self _)
  · exact (sub_le_sub_left hhi v).trans (le_abs_self _)
  · exact abs_nonneg _

private theorem above_middle {u p q : α} (hpq : p < q) (h : |u - q| ≤ |u - p|) : q - u ≤ u - p := by
  rcases le_or_gt u p with hup | hpu
  · have hp : |u - p| = p - u := by rw [abs_sub_comm, abs_of_nonneg (sub_nonneg.mpr hup)]
    have hq : q - u ≤ |u - q| := abs_sub_comm q u ▸ le_abs_self (q - u)
    exact absurd (hq.trans (h.trans hp.le)) (not_le.mpr (sub_lt_sub_right hpq u))
  · have hp : |u - p| = u - p := abs_of_nonneg (sub_nonneg.mpr hpu.le)
    have hq : q - u ≤ |u - q| := abs_sub_comm q u ▸ le_abs_self (q - u)
    exact hq.trans (h.trans hp.le)

private theorem below_middle {v p q : α} (hpq : p < q) (h : |v - p| ≤ |v - q|) : v - p ≤ q - v := by
  rcases le_or_gt q v with hqv | hvq
  · have hq : |v - q| = v - q := abs_of_nonneg (sub_nonneg.mpr hqv)
    exact absurd ((le_abs_self _).trans (h.trans hq.le)) (not_le.mpr (sub_lt_sub_left hpq v))
  · have hq : |v - q| = q - v := by rw [abs_sub_comm, abs_of_nonneg (sub_nonneg.mpr hvq.le)]
    exact (le_abs_self _).trans (h.trans hq.le)

/-- Going to the nearest interval keeps the order of points. -/
theorem snap_mono {lo hi : β → α} {limit : α} {l : List β} (h : ∀ b ∈ l, lo b ≤ hi b) :
    Monotone (snap lo hi limit l) := by
  intro u v huv
  obtain ⟨hu, hunone⟩ := cheapest_spec (fun b => gap (lo b) (hi b) u) limit l
  obtain ⟨hv, hvnone⟩ := cheapest_spec (fun b => gap (lo b) (hi b) v) limit l
  rcases huv.eq_or_lt with rfl | hlt
  · exact le_rfl
  rw [snap, snap]
  cases hua : cheapest (fun b => gap (lo b) (hi b) u) limit l with
  | none =>
    cases hvb : cheapest (fun b => gap (lo b) (hi b) v) limit l with
    | none => exact huv
    | some b =>
      obtain ⟨hb, hnear, -⟩ := hv b hvb
      have hmem := clamp_mem (h b hb) v
      change u ≤ clamp (lo b) (hi b) v
      by_contra hless
      have hpu := (not_le.mp hless).le
      have hcloser : |u - clamp (lo b) (hi b) v| ≤ |v - clamp (lo b) (hi b) v| := by
        rw [abs_of_nonneg (sub_nonneg.mpr hpu), abs_of_nonneg (sub_nonneg.mpr (hpu.trans huv))]
        exact sub_le_sub_right huv _
      rw [gap_eq (h b hb)] at hnear
      exact absurd (hunone.mp hua b hb)
        (not_le.mpr (((gap_le_abs hmem.1 hmem.2 u).trans hcloser).trans_lt hnear))
  | some a =>
    obtain ⟨ha, hanear, haleast⟩ := hu a hua
    have hamem := clamp_mem (h a ha) u
    cases hvb : cheapest (fun b => gap (lo b) (hi b) v) limit l with
    | none =>
      change clamp (lo a) (hi a) u ≤ v
      by_contra hless
      have hvq := (not_le.mp hless).le
      have hcloser : |v - clamp (lo a) (hi a) u| ≤ |u - clamp (lo a) (hi a) u| := by
        rw [abs_sub_comm v, abs_sub_comm u, abs_of_nonneg (sub_nonneg.mpr hvq),
          abs_of_nonneg (sub_nonneg.mpr (huv.trans hvq))]
        exact sub_le_sub_left huv _
      rw [gap_eq (h a ha)] at hanear
      exact absurd (hvnone.mp hvb a ha)
        (not_le.mpr (((gap_le_abs hamem.1 hamem.2 v).trans hcloser).trans_lt hanear))
    | some b =>
      obtain ⟨hb, -, hbleast⟩ := hv b hvb
      have hbmem := clamp_mem (h b hb) v
      change clamp (lo a) (hi a) u ≤ clamp (lo b) (hi b) v
      by_contra hless
      have hpq := not_le.mp hless
      have hua := (haleast b hb).trans (gap_le_abs hbmem.1 hbmem.2 u)
      have hvb := (hbleast a ha).trans (gap_le_abs hamem.1 hamem.2 v)
      rw [gap_eq (h a ha)] at hua
      rw [gap_eq (h b hb)] at hvb
      have habove := above_middle hpq hua
      have hbelow := below_middle hpq hvb
      have hqv : clamp (lo a) (hi a) u - v < clamp (lo a) (hi a) u - u := sub_lt_sub_left hlt _
      exact absurd (hbelow.trans (hqv.le.trans habove)) (not_le.mpr (sub_lt_sub_right hlt _))

end

end Synergy.Lib
