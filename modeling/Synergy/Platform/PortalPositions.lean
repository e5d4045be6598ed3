import Mathlib
import Synergy.Platform.PortalBarriers

/-! Positions that go to the portal and come back: they stay on the screen or in a zone, they keep their edge, and their
order along it. -/
namespace Synergy
open Lib

/-! ### Scaling -/

theorem lround_mono : Monotone lround := by
  intro p q hpq
  rw [lround, lround]
  split_ifs with hp hq hq
  · exact Int.floor_mono (by linarith)
  · exact absurd (hp.trans hpq) hq
  · have hleft : (0 : Int) ≤ ⌊-p + 1 / 2⌋ := Int.floor_nonneg.mpr (by linarith)
    have hright : (0 : Int) ≤ ⌊q + 1 / 2⌋ := Int.floor_nonneg.mpr (by linarith)
    omega
  · exact neg_le_neg (Int.floor_mono (by linarith))

theorem scale_mem {destinationMin destinationMax : Int} (h : destinationMin ≤ destinationMax) (value : ℚ)
    (sourceMin sourceMax : Int) :
    destinationMin ≤ scaleCoordinateBetweenRanges value sourceMin sourceMax destinationMin destinationMax ∧
      scaleCoordinateBetweenRanges value sourceMin sourceMax destinationMin destinationMax ≤ destinationMax := by
  rw [scaleCoordinateBetweenRanges]
  split_ifs
  · exact ⟨le_rfl, h⟩
  · exact clamp_mem h _

theorem scale_mono (sourceMin sourceMax destinationMin destinationMax : Int) :
    Monotone fun value => scaleCoordinateBetweenRanges value sourceMin sourceMax destinationMin destinationMax := by
  intro u v huv
  dsimp only
  rw [scaleCoordinateBetweenRanges, scaleCoordinateBetweenRanges]
  split_ifs with hdegenerate
  · exact le_rfl
  · obtain ⟨hsource, hdestination⟩ := not_or.mp hdegenerate
    have hsource : (0 : ℚ) < sourceMax - sourceMin := sub_pos.mpr (Int.cast_lt.mpr (not_le.mp hsource))
    have hdestination : (0 : ℚ) ≤ destinationMax - destinationMin :=
      sub_nonneg.mpr (Int.cast_le.mpr (not_le.mp hdestination).le)
    refine clamp_mono _ _ (lround_mono ?_)
    have hclamp := clamp_mono (sourceMin : ℚ) sourceMax huv
    gcongr

/-! ### Barriers -/

theorem addBarrier_spec (id : Nat) (side : BarrierSide) (zone : PortalZone) :
    (addBarrier id side zone).id = id ∧ (addBarrier id side zone).side = side ∧
      (addBarrier id side zone).zone = zone := by
  cases side <;> exact ⟨rfl, rfl, rfl⟩

theorem ids_handleZonesChanged (activeSides id : Nat) (zones : List PortalZone) :
    (handleZonesChanged activeSides id zones).map BarrierInfo.id =
      List.range' (id + 1) (handleZonesChanged activeSides id zones).length := by
  induction zones generalizing id with
  | nil => rfl
  | cons zone zones ih =>
    have hadded (sides : List BarrierSide) :
        ((sides.zipIdx (id + 1)).map fun e => addBarrier e.2 e.1 zone).map BarrierInfo.id =
          List.range' (id + 1) sides.length := by
      rw [List.map_map, ← List.zipIdx_map_snd (id + 1) sides]
      exact List.map_congr_left fun e _ => (addBarrier_spec e.2 e.1 zone).1
    rw [handleZonesChanged, List.map_append, hadded, ih, List.length_append, List.length_map, List.length_zipIdx,
      Nat.add_right_comm, List.range'_append_1]

/-- Each barrier belongs to a zone, and its side is active. -/
theorem mem_handleZonesChanged {activeSides id : Nat} {zones : List PortalZone} {info : BarrierInfo}
    (h : info ∈ handleZonesChanged activeSides id zones) :
    info.zone ∈ zones ∧ BarrierSide.isActive activeSides info.side = true := by
  induction zones generalizing id with
  | nil => cases h
  | cons zone zones ih =>
    rw [handleZonesChanged] at h
    rcases List.mem_append.mp h with hadded | hmore
    · obtain ⟨e, he, rfl⟩ := List.mem_map.mp hadded
      obtain ⟨-, hside, hzone⟩ := addBarrier_spec e.2 e.1 zone
      rw [hside, hzone]
      exact ⟨List.mem_cons_self, (List.mem_filter.mp (List.fst_mem_of_mem_zipIdx he)).2⟩
    · obtain ⟨hzone, hside⟩ := ih hmore
      exact ⟨List.mem_cons_of_mem _ hzone, hside⟩

/-- The barriers that are left of those of some zones. -/
def remaining (activeSides : Nat) (zones : List PortalZone) (failed : List Nat) : List BarrierInfo :=
  handleSetPointerBarriers failed (handleZonesChanged activeSides 0 zones)

variable {activeSides : Nat} {zones : List PortalZone} {failed : List Nat} {info : BarrierInfo} {screen : Rect}

private theorem mem_remaining (h : info ∈ remaining activeSides zones failed) :
    info.zone ∈ zones ∧ BarrierSide.isActive activeSides info.side = true :=
  mem_handleZonesChanged (List.mem_filter.mp h).1

/-- A barrier is found by its id. -/
theorem find_id (h : info ∈ remaining activeSides zones failed) :
    (remaining activeSides zones failed).find? (fun other => other.id = info.id) = some info := by
  have hnodup : ((handleZonesChanged activeSides 0 zones).map BarrierInfo.id).Nodup := by
    rw [ids_handleZonesChanged]
    exact List.nodup_range'
  have hinjective := List.inj_on_of_nodup_map hnodup
  cases hfind : (remaining activeSides zones failed).find? (fun other => other.id = info.id) with
  | none => exact absurd rfl (of_decide_eq_false (Bool.eq_false_iff.mpr (List.find?_eq_none.mp hfind info h)))
  | some other =>
    have hid : other.id = info.id := by simpa using List.find?_some hfind
    have hmem := List.mem_of_find?_eq_some hfind
    rw [hinjective (List.mem_filter.mp hmem).1 (List.mem_filter.mp h).1 hid]

private theorem getPortalBounds_some (h : info ∈ remaining activeSides zones failed) :
    ∃ bounds, getPortalBounds (remaining activeSides zones failed) = some bounds := by
  have hne : (remaining activeSides zones failed).isEmpty = false :=
    List.isEmpty_eq_false_iff.mpr (List.ne_nil_of_mem h)
  rw [getPortalBounds, hne]
  exact ⟨_, rfl⟩

/-! ### Activation -/

/-- The point is on the edge of the screen at a side. -/
def OnEdge (screen : Rect) (side : BarrierSide) (p : Int × Int) : Prop :=
  match side with
  | .left => p.1 = screen.x
  | .right => p.1 = screen.right
  | .top => p.2 = screen.y
  | .bottom => p.2 = screen.bottom

/-- The coordinate along a side. -/
def BarrierSide.along {α : Type*} (side : BarrierSide) (p : α × α) : α := if side.isHorizontal then p.2 else p.1

private theorem activation_eq (h : info ∈ remaining activeSides zones failed) : ∃ bounds : Bounds, ∀ screen rawX rawY,
    mapPortalActivationToScreenPosition (remaining activeSides zones failed) screen info.id rawX rawY =
      toEdge screen (scaleCoordinateBetweenRanges rawX bounds.left bounds.right screen.x screen.right,
        scaleCoordinateBetweenRanges rawY bounds.top bounds.bottom screen.y screen.bottom) info.side ∧
      getPortalBounds (remaining activeSides zones failed) = some bounds := by
  obtain ⟨bounds, hbounds⟩ := getPortalBounds_some h
  refine ⟨bounds, fun screen rawX rawY => ⟨?_, hbounds⟩⟩
  rw [mapPortalActivationToScreenPosition, find_id h]
  dsimp only
  rw [hbounds]

/-- A barrier that is activated gives a point of its edge. -/
theorem activation_mem (h : info ∈ remaining activeSides zones failed) (hw : 0 < screen.w) (hh : 0 < screen.h)
    (rawX rawY : ℚ) :
    let p := mapPortalActivationToScreenPosition (remaining activeSides zones failed) screen info.id rawX rawY
    screen.Contains p.1 p.2 ∧ OnEdge screen info.side p := by
  obtain ⟨bounds, heq⟩ := activation_eq h
  have hright : screen.right = screen.x + screen.w - 1 := rfl
  have hbottom : screen.bottom = screen.y + screen.h - 1 := rfl
  have hx := scale_mem (show screen.x ≤ screen.right by omega) rawX bounds.left bounds.right
  have hy := scale_mem (show screen.y ≤ screen.bottom by omega) rawY bounds.top bounds.bottom
  rw [(heq screen rawX rawY).1]
  generalize scaleCoordinateBetweenRanges rawX bounds.left bounds.right screen.x screen.right = x at hx ⊢
  generalize scaleCoordinateBetweenRanges rawY bounds.top bounds.bottom screen.y screen.bottom = y at hy ⊢
  rw [hright] at hx
  rw [hbottom] at hy
  cases info.side with
  | left => exact ⟨⟨le_rfl, by change screen.x < _; omega, by change _ ≤ y; omega, by change y < _; omega⟩, rfl⟩
  | right =>
    refine ⟨⟨?_, ?_, by change _ ≤ y; omega, by change y < _; omega⟩, rfl⟩
    · change screen.x ≤ screen.right
      omega
    · change screen.right < _
      omega
  | top => exact ⟨⟨by change _ ≤ x; omega, by change x < _; omega, le_rfl, by change screen.y < _; omega⟩, rfl⟩
  | bottom =>
    refine ⟨⟨by change _ ≤ x; omega, by change x < _; omega, ?_, ?_⟩, rfl⟩
    · change screen.y ≤ screen.bottom
      omega
    · change screen.bottom < _
      omega

/-- The order of activations along an edge is kept, whichever of its barriers they come from. -/
theorem activation_mono {other : BarrierInfo} (h : info ∈ remaining activeSides zones failed)
    (hother : other ∈ remaining activeSides zones failed) (hside : other.side = info.side) {p q : ℚ × ℚ}
    (hpq : info.side.along p ≤ info.side.along q) :
    info.side.along (mapPortalActivationToScreenPosition (remaining activeSides zones failed) screen info.id p.1 p.2) ≤
      info.side.along
        (mapPortalActivationToScreenPosition (remaining activeSides zones failed) screen other.id q.1 q.2) := by
  obtain ⟨bounds, heq⟩ := activation_eq h
  obtain ⟨bounds', heq'⟩ := activation_eq hother
  obtain rfl : bounds = bounds' := Option.some.inj ((heq screen p.1 p.2).2.symm.trans (heq' screen p.1 p.2).2)
  rw [(heq screen p.1 p.2).1, (heq' screen q.1 q.2).1, hside]
  revert hpq
  cases info.side with
  | left => exact fun hpq => scale_mono _ _ _ _ hpq
  | right => exact fun hpq => scale_mono _ _ _ _ hpq
  | top => exact fun hpq => scale_mono _ _ _ _ hpq
  | bottom => exact fun hpq => scale_mono _ _ _ _ hpq

/-! ### Release -/

variable {barrierInfo : List BarrierInfo} {bounds : Bounds} {x y : ℚ} {jumpZoneSize : Int}

private theorem closestSide_eq_argmin : closestSide activeSides screen x y =
    (BarrierSide.all.filter (BarrierSide.isActive activeSides)).argmin (sideDistance screen x y) := by
  rw [closestSide, List.argmin]
  congr 1
  funext side candidate
  cases side <;> rfl

/-- On an edge of an active side that side is the closest, unless the position is in a corner with one that is looked at
before it. -/
theorem closestSide_of_edge {side : BarrierSide} (hactive : side.isActive activeSides = true)
    (hedge : sideDistance screen x y side = 0)
    (hcorner : ∀ other ∈ BarrierSide.all.takeWhile (· ≠ side), other.isActive activeSides = true →
      sideDistance screen x y other ≠ 0) : closestSide activeSides screen x y = some side := by
  have hnonneg (other : BarrierSide) : 0 ≤ sideDistance screen x y other := by
    cases other <;> exact abs_nonneg _
  obtain ⟨after, hall⟩ : ∃ after, BarrierSide.all = BarrierSide.all.takeWhile (· ≠ side) ++ side :: after := by
    cases side <;> exact ⟨_, rfl⟩
  rw [closestSide_eq_argmin, hall, List.filter_append, List.filter_cons_of_pos hactive]
  generalize hbefore : (BarrierSide.all.takeWhile (· ≠ side)).filter (BarrierSide.isActive activeSides) = before
  have hfar {other : BarrierSide} (hother : other ∈ before) : sideDistance screen x y other ≠ 0 := by
    obtain ⟨hmem, hother⟩ := List.mem_filter.mp (hbefore ▸ hother)
    exact hcorner other hmem hother
  refine List.mem_argmin_iff.mpr ⟨List.mem_append_right _ List.mem_cons_self,
      fun other _ => hedge.trans_le (hnonneg other),
    fun other _ hnear => ?_⟩
  have hother : other ∉ before := fun hmem => hfar hmem (le_antisymm (hnear.trans_eq hedge) (hnonneg other))
  rw [List.idxOf_append_of_notMem fun hmem => hfar hmem hedge, List.idxOf_append_of_notMem hother, List.idxOf_cons_self]
  omega
/-- A barrier of the active side that is closest to a position is left, near enough to be found. -/
def BarrierLeft (activeSides : Nat) (barrierInfo : List BarrierInfo) (screen : Rect) (bounds : Bounds) (x y : ℚ) :
    Prop :=
  ∃ info ∈ barrierInfo, closestSide activeSides screen x y = some info.side ∧
    barrierDistance info.side (portalPosition screen bounds x y) info < 2 ^ 31 - 1

theorem getClosestReleaseBarrier_mem (h : getClosestReleaseBarrier activeSides barrierInfo x y screen bounds =
    some info) :
    info ∈ barrierInfo ∧ closestSide activeSides screen x y = some info.side ∧
      barrierDistance info.side (portalPosition screen bounds x y) info < 2 ^ 31 - 1 := by
  rw [getClosestReleaseBarrier] at h
  cases hside : closestSide activeSides screen x y with
  | none => simp only [hside, reduceCtorEq] at h
  | some side =>
    simp only [hside] at h
    obtain ⟨hmem, hnear, -⟩ := (cheapest_spec _ _ _).1 info h
    obtain ⟨hleft, hinfo⟩ := List.mem_filter.mp hmem
    obtain rfl : info.side = side := of_decide_eq_true hinfo
    exact ⟨hleft, rfl, hnear⟩

theorem getClosestReleaseBarrier_none (h : getClosestReleaseBarrier activeSides barrierInfo x y screen bounds = none) :
    ¬BarrierLeft activeSides barrierInfo screen bounds x y := by
  rintro ⟨info, hmem, hside, hnear⟩
  rw [getClosestReleaseBarrier] at h
  simp only [hside] at h
  exact absurd hnear (not_lt.mpr ((cheapest_spec _ _ _).2.mp h info (List.mem_filter.mpr ⟨hmem, decide_eq_true rfl⟩)))

/-- The release through a barrier ends in its zone. -/
theorem releaseWithin_mem (hjump : 0 ≤ jumpZoneSize)
    (h : getClosestReleaseBarrier activeSides barrierInfo x y screen bounds = some info) :
    let p := releaseWithin bounds activeSides barrierInfo screen jumpZoneSize x y
    info.zone.Contains (p.1, p.2) := by
  have hw := info.zone.width_pos
  have hh := info.zone.height_pos
  have hright : info.zone.right = info.zone.x + info.zone.width - 1 := rfl
  have hbottom : info.zone.bottom = info.zone.y + info.zone.height - 1 := rfl
  obtain ⟨hxlo, hxhi⟩ := clamp_mem (show info.zone.x ≤ info.zone.right by omega) (portalPosition screen bounds x y).1
  obtain ⟨hylo, hyhi⟩ := clamp_mem (show info.zone.y ≤ info.zone.bottom by omega) (portalPosition screen bounds x y).2
  have hzone {px py : Int} (hx : info.zone.x ≤ px ∧ px ≤ info.zone.right)
      (hy : info.zone.y ≤ py ∧ py ≤ info.zone.bottom) : info.zone.Contains (px, py) :=
    ⟨⟨Int.cast_le.mpr hx.1, Int.cast_le.mpr hx.2⟩, Int.cast_le.mpr hy.1, Int.cast_le.mpr hy.2⟩
  simp only [releaseWithin, h]
  cases info.side with
  | left => exact hzone (by dsimp only; omega) ⟨hylo, hyhi⟩
  | right => exact hzone (by dsimp only; omega) ⟨hylo, hyhi⟩
  | top => exact hzone ⟨hxlo, hxhi⟩ (by dsimp only; omega)
  | bottom => exact hzone ⟨hxlo, hxhi⟩ (by dsimp only; omega)

/-- A release is in a zone if it uses a barrier, and else exactly if the scaled position is in one. -/
theorem release_in_zone_iff (hjump : 0 ≤ jumpZoneSize) (x y : ℚ) :
    let p := releaseWithin bounds activeSides (remaining activeSides zones failed) screen jumpZoneSize x y
    (∃ zone ∈ zones, zone.Contains (p.1, p.2)) ↔
      BarrierLeft activeSides (remaining activeSides zones failed) screen bounds x y ∨
        ∃ zone ∈ zones, zone.Contains ((portalPosition screen bounds x y).1, (portalPosition screen bounds x y).2) := by
  cases hrelease : getClosestReleaseBarrier activeSides (remaining activeSides zones failed) x y screen bounds with
  | none =>
    simp only [releaseWithin, hrelease]
    exact (or_iff_right (getClosestReleaseBarrier_none hrelease)).symm
  | some info =>
    have hleft := getClosestReleaseBarrier_mem hrelease
    exact iff_of_true ⟨info.zone, (mem_remaining hleft.1).1, releaseWithin_mem hjump hrelease⟩ (Or.inl ⟨info, hleft⟩)

/-- How far a point of the zone is from the edge of the barrier, and how far the zone reaches there. -/
def edgeDistance (info : BarrierInfo) (p : ℚ × ℚ) : ℚ :=
  match info.side with
  | .left => p.1 - info.zone.x
  | .right => info.zone.right - p.1
  | .top => p.2 - info.zone.y
  | .bottom => info.zone.bottom - p.2

def BarrierInfo.depth (info : BarrierInfo) : Nat := if info.side.isHorizontal then info.zone.width else info.zone.height

theorem releaseWithin_away (h : getClosestReleaseBarrier activeSides barrierInfo x y screen bounds = some info)
    (hdepth : jumpZoneSize < info.depth) :
    let p := releaseWithin bounds activeSides barrierInfo screen jumpZoneSize x y
    jumpZoneSize ≤ edgeDistance info (p.1, p.2) := by
  have hright : info.zone.right = info.zone.x + info.zone.width - 1 := rfl
  have hbottom : info.zone.bottom = info.zone.y + info.zone.height - 1 := rfl
  have haway {u v : Int} (huv : jumpZoneSize ≤ u - v) : (jumpZoneSize : ℚ) ≤ u - v := by exact_mod_cast huv
  rw [BarrierInfo.depth] at hdepth
  simp only [releaseWithin, h, edgeDistance]
  revert hdepth
  cases info.side with
  | left =>
    intro hdepth
    have hwidth : jumpZoneSize < info.zone.width := hdepth
    exact haway (by dsimp only; omega)
  | right =>
    intro hdepth
    have hwidth : jumpZoneSize < info.zone.width := hdepth
    exact haway (by dsimp only; omega)
  | top =>
    intro hdepth
    have hheight : jumpZoneSize < info.zone.height := hdepth
    exact haway (by dsimp only; omega)
  | bottom =>
    intro hdepth
    have hheight : jumpZoneSize < info.zone.height := hdepth
    exact haway (by dsimp only; omega)

/-- Along its barriers a release goes to the nearest zone. -/
theorem along_releaseWithin {side : BarrierSide} (h : closestSide activeSides screen x y = some side) :
    side.along (releaseWithin bounds activeSides barrierInfo screen jumpZoneSize x y) =
      snap (fun info => side.along (info.zone.x, info.zone.y)) (fun info => side.along (info.zone.right,
          info.zone.bottom))
        (2 ^ 31 - 1) (barrierInfo.filter fun info => info.side = side)
            (side.along (portalPosition screen bounds x y)) := by
  have hcost : (fun info : BarrierInfo => gap (side.along (info.zone.x, info.zone.y))
      (side.along (info.zone.right, info.zone.bottom)) (side.along (portalPosition screen bounds x y))) =
      barrierDistance side (portalPosition screen bounds x y) := by
    funext info
    cases side <;> rfl
  have hfound : getClosestReleaseBarrier activeSides barrierInfo x y screen bounds =
      cheapest (barrierDistance side (portalPosition screen bounds x y)) (2 ^ 31 - 1)
        (barrierInfo.filter fun info => info.side = side) := by
    rw [getClosestReleaseBarrier, h]
  rw [snap, hcost, ← hfound]
  cases hrelease : getClosestReleaseBarrier activeSides barrierInfo x y screen bounds with
  | none => simp only [releaseWithin, hrelease, Option.elim_none]
  | some info =>
    obtain rfl : side = info.side :=
      Option.some.inj (h.symm.trans (getClosestReleaseBarrier_mem hrelease).2.1)
    simp only [releaseWithin, hrelease, Option.elim_some]
    cases info.side <;> rfl

/-- Along an edge the order of releases is kept. -/
theorem releaseWithin_mono (barrierInfo : List BarrierInfo) (bounds : Bounds) (jumpZoneSize : Int) {side : BarrierSide}
    {p q : ℚ × ℚ} (hp : closestSide activeSides screen p.1 p.2 = some side)
        (hq : closestSide activeSides screen q.1 q.2 = some side)
    (hpq : side.along p ≤ side.along q) :
    side.along (releaseWithin bounds activeSides barrierInfo screen jumpZoneSize p.1 p.2) ≤
      side.along (releaseWithin bounds activeSides barrierInfo screen jumpZoneSize q.1 q.2) := by
  rw [along_releaseWithin hp, along_releaseWithin hq]
  refine snap_mono ?_ ?_
  · intro info _
    have hw := info.zone.width_pos
    have hh := info.zone.height_pos
    have hright : info.zone.right = info.zone.x + info.zone.width - 1 := rfl
    have hbottom : info.zone.bottom = info.zone.y + info.zone.height - 1 := rfl
    cases side with
    | left | right => change info.zone.y ≤ info.zone.bottom; omega
    | top | bottom => change info.zone.x ≤ info.zone.right; omega
  · cases side with
    | left | right => exact scale_mono _ _ _ _ hpq
    | top | bottom => exact scale_mono _ _ _ _ hpq

/-- Points of activations are on their edge of the screen,
    and points of releases are in a zone exactly if a barrier of the
closest side is left or the scaled position is in one; the depth of releases and the order along an edge are kept. -/
theorem portal_positions (h : info ∈ remaining activeSides zones failed) (hw : 0 < screen.w) (hh : 0 < screen.h)
    (hjump : 0 ≤ jumpZoneSize) :
    let left := remaining activeSides zones failed
    (∀ rawX rawY,
      let p := mapPortalActivationToScreenPosition left screen info.id rawX rawY
      screen.Contains p.1 p.2 ∧ OnEdge screen info.side p) ∧
    (∀ other ∈ left, other.side = info.side → ∀ p q : ℚ × ℚ, info.side.along p ≤ info.side.along q →
      info.side.along (mapPortalActivationToScreenPosition left screen info.id p.1 p.2) ≤
        info.side.along (mapPortalActivationToScreenPosition left screen other.id q.1 q.2)) ∧
    ∃ bounds, getPortalBounds left = some bounds ∧
      (∀ x y, (∃ zone ∈ zones, zone.Contains (mapPortalReleasePosition activeSides left screen jumpZoneSize x y)) ↔
        BarrierLeft activeSides left screen bounds x y ∨
          ∃ zone ∈ zones, zone.Contains ((portalPosition screen bounds x y).1, (portalPosition screen bounds x y).2)) ∧
      (∀ x y used, getClosestReleaseBarrier activeSides left x y screen bounds = some used →
        jumpZoneSize < used.depth →
        jumpZoneSize ≤ edgeDistance used (mapPortalReleasePosition activeSides left screen jumpZoneSize x y)) ∧
      (∀ side (p : ℚ × ℚ), side.isActive activeSides = true → sideDistance screen p.1 p.2 side = 0 →
        (∀ other ∈ BarrierSide.all.takeWhile (· ≠ side), other.isActive activeSides = true →
          sideDistance screen p.1 p.2 other ≠ 0) → closestSide activeSides screen p.1 p.2 = some side) ∧
      ∀ side (p q : ℚ × ℚ), closestSide activeSides screen p.1 p.2 = some side →
        closestSide activeSides screen q.1 q.2 = some side → side.along p ≤ side.along q →
        side.along (mapPortalReleasePosition activeSides left screen jumpZoneSize p.1 p.2) ≤
          side.along (mapPortalReleasePosition activeSides left screen jumpZoneSize q.1 q.2) := by
  intro left
  obtain ⟨bounds, hbounds⟩ := getPortalBounds_some h
  have hrelease (x y : ℚ) : mapPortalReleasePosition activeSides left screen jumpZoneSize x y =
      (((releaseWithin bounds activeSides left screen jumpZoneSize x y).1 : ℚ),
        ((releaseWithin bounds activeSides left screen jumpZoneSize x y).2 : ℚ)) := by
    rw [mapPortalReleasePosition, hbounds]
  refine ⟨activation_mem h hw hh, fun other hother hside p q => activation_mono h hother hside, bounds, hbounds,
    fun x y => ?_, fun x y used hused hdepth => ?_, fun side p => closestSide_of_edge, fun side p q hp hq hpq => ?_⟩
  · rw [hrelease]
    exact release_in_zone_iff hjump x y
  · rw [hrelease]
    exact releaseWithin_away hused hdepth
  · have hmono := releaseWithin_mono left bounds jumpZoneSize hp hq hpq
    rw [hrelease, hrelease]
    cases side with
    | left | right | top | bottom => exact Int.cast_le.mpr hmono

/-- Two outputs with a gap between them. -/
def twoOutputs : List PortalZone :=
  [⟨0, 0, 100, 100, by decide, by decide, by decide, by decide, by decide, by decide⟩,
    ⟨200, 0, 100, 100, by decide, by decide, by decide, by decide, by decide, by decide⟩]

/-- Sides `left` and `top`, of which the portal refuses the barriers at the top. -/
theorem portal_positions_left : ∃ bounds, getPortalBounds (remaining 10 twoOutputs [2, 4]) = some bounds ∧
    ((∃ zone ∈ twoOutputs, zone.Contains
      (mapPortalReleasePosition 10 (remaining 10 twoOutputs [2, 4]) ⟨0, 0, 300, 100⟩ 1 0 50)) ↔
      BarrierLeft 10 (remaining 10 twoOutputs [2, 4]) ⟨0, 0, 300, 100⟩ bounds 0 50 ∨
        ∃ zone ∈ twoOutputs, zone.Contains ((portalPosition ⟨0, 0, 300, 100⟩ bounds 0 50).1,
          (portalPosition ⟨0, 0, 300, 100⟩ bounds 0 50).2)) := by
  have hleft : addBarrier 1 .left ⟨0, 0, 100, 100, by decide, by decide, by decide, by decide, by decide, by decide⟩ ∈
      remaining 10 twoOutputs [2, 4] := by decide
  obtain ⟨-, -, bounds, hbounds, hzone, -⟩ := portal_positions hleft
    (show 0 < (⟨0, 0, 300, 100⟩ : Rect).w by decide) (by decide) (show (0 : Int) ≤ 1 by decide)
  exact ⟨bounds, hbounds, hzone 0 50⟩

/-- A release at the top, of which no barrier is left, ends in the gap. -/
theorem release_into_gap :
    twoOutputs.Pairwise (fun zone other => zone.right < other.x) ∧ remaining 10 twoOutputs [2, 4] ≠ [] ∧
      Rect.Contains ⟨0, 0, 300, 100⟩ 150 0 ∧
      ¬∃ zone ∈ twoOutputs, zone.Contains
        (mapPortalReleasePosition 10 (remaining 10 twoOutputs [2, 4]) ⟨0, 0, 300, 100⟩ 1 150 0) := by
  have hrelease : mapPortalReleasePosition 10 (remaining 10 twoOutputs [2, 4]) ⟨0, 0, 300, 100⟩ 1 150 0 = (150, 0) := by
    decide +kernel
  rw [hrelease]
  exact ⟨by decide, by decide, ⟨by decide, by decide, by decide, by decide⟩, by decide⟩

end Synergy
