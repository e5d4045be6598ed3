import Synergy.Server.Switch

/-! The mirror symmetries of a screen, and a motion that stays on the active screen
while a switch is pending at one of its edges. -/
namespace Synergy

/-- A symmetry of the screens: it exchanges two opposite edges, or the two axes. -/
inductive Mirror where
  | leftRight | topBottom | transpose
  deriving DecidableEq

namespace Mirror

def dir : Mirror → Direction → Direction
  | leftRight, .left => .right
  | leftRight, .right => .left
  | leftRight, d => d
  | topBottom, .top => .bottom
  | topBottom, .bottom => .top
  | topBottom, d => d
  | transpose, .left => .top
  | transpose, .top => .left
  | transpose, .right => .bottom
  | transpose, .bottom => .right

/-- The image of a motion. -/
def vec : Mirror → Int × Int → Int × Int
  | leftRight, d => (-d.1, d.2)
  | topBottom, d => (d.1, -d.2)
  | transpose, d => (d.2, d.1)

def shape : Mirror → Shape → Shape
  | transpose, a => ⟨a.y, a.x, a.h, a.w⟩
  | _, a => a

/-- The image of a point of the screen; its first and last pixels change places. -/
def point : Mirror → Shape → Int × Int → Int × Int
  | leftRight, a, p => (2 * a.x + a.w - 1 - p.1, p.2)
  | topBottom, a, p => (p.1, 2 * a.y + a.h - 1 - p.2)
  | transpose, _, p => (p.2, p.1)

variable (m : Mirror) (e : Platform)

def platform : Platform := { e with shape := fun client => m.shape (e.shape client) }

/-- The same call about the mirrored screen of the client. -/
def told (c : BaseClientProxy × Call) : BaseClientProxy × Call :=
  match c with
  | (client, .enter x y seqNum mask forScreensaver) =>
    let p := m.point (e.shape client) (x, y)
    (client, .enter p.1 p.2 seqNum mask forScreensaver)
  | (client, .mouseMove x y) =>
    let p := m.point (e.shape client) (x, y)
    (client, .mouseMove p.1 p.2)
  | (client, .mouseRelativeMove dx dy) =>
    let d := m.vec (dx, dy)
    (client, .mouseRelativeMove d.1 d.2)
  | c => c

/-- The position, the motions, the pending direction and what the clients were told, mirrored. -/
def server (s : Server) : Server :=
  let p := m.point (e.shape s.active) (s.x, s.y)
  let d := m.vec (s.xDelta, s.yDelta)
  let d2 := m.vec (s.xDelta2, s.yDelta2)
  { s with
    x := p.1, y := p.2, xDelta := d.1, yDelta := d.2, xDelta2 := d2.1, yDelta2 := d2.2
    switchDir := s.switchDir.map m.dir, calls := s.calls.map (m.told e) }

end Mirror

/-- How far the point is from an edge: zero on its last row or column. -/
def Shape.distance (a : Shape) (p : Int × Int) : Direction → Int
  | .left => p.1 - a.x
  | .right => a.x + a.w - 1 - p.1
  | .top => p.2 - a.y
  | .bottom => a.y + a.h - 1 - p.2

instance (a : Shape) (p : Int × Int) : Decidable (a.contains p) := inferInstanceAs (Decidable (_ ∧ _ ∧ _ ∧ _))

namespace Server
variable (e : Platform) (s : Server)

/-- The state in which the edges are tested. -/
def tested (dx dy : Int) : Server :=
  s.recordMotion (s.x + adjustMotion e dx) (s.y + adjustMotion e dy) (adjustMotion e dx) (adjustMotion e dy)

/-- A motion that is stale or relative tests no edge. -/
def testsNoEdge : Prop := s.active = s.primaryClient ∨ (s.relativeMoves && s.isLockedToScreenServer) = true

instance : Decidable s.testsNoEdge := inferInstanceAs (Decidable (_ ∨ _))

def inTapZone : Prop :=
  let a := e.shape s.active
  let tapZone := max e.jumpZoneSize switchTwoTapZone
  a.x + tapZone ≤ s.x ∧ s.x < a.x + a.w - tapZone ∧ a.y + tapZone ≤ s.y ∧ s.y < a.y + a.h - tapZone

/-- The last two motions both went away from the edge. -/
def movesAway : Direction → Prop
  | .left => 0 < s.xDelta ∧ 0 < s.xDelta2
  | .right => s.xDelta < 0 ∧ s.xDelta2 < 0
  | .top => 0 < s.yDelta ∧ 0 < s.yDelta2
  | .bottom => s.yDelta < 0 ∧ s.yDelta2 < 0

/-- A double tap is under way and the second tap comes too late. -/
def endsTwoTap : Prop := s.switchTwoTapEngaged = true ∧ s.switchTwoTapDelay < s.switchTwoTapTime e

/-- A double tap is under way and the cursor has now left the edge for it. -/
def armsTwoTap (dir : Direction) : Prop :=
  s.switchTwoTapEngaged = true ∧ s.switchTwoTapTime e ≤ s.switchTwoTapDelay ∧ s.switchTwoTapArmed = false ∧
    s.inTapZone e ∧ s.movesAway dir

/-- No wait is running, and no double tap is under way that has to be given up or armed. -/
def nothingToClear (dir : Direction) : Prop :=
  s.switchWaitTimer = false ∧ ¬ s.endsTwoTap e ∧ ¬ s.armsTwoTap e dir

/-- The motion ends here, with the pending switch given up or not. -/
def settled (dx dy : Int) (cleared : Prop) [Decidable cleared] : Server :=
  let t := s.tested e dx dy
  (if cleared then t.noSwitch e t.x t.y else t).clampMove e s.x s.y (adjustMotion e dx) (adjustMotion e dy)

/-- The edges are treated alike: mirroring the state and the motion mirrors the result,
and the wait is cleared exactly from the zone size on. -/
structure EdgesAlike (m : Mirror) (fuel : Nat) (dx dy : Int) (dir : Direction) : Prop where
  mirrored : ((m.server e s).onMouseMoveSecondary (m.platform e) fuel
      (m.vec (dx, dy)).1 (m.vec (dx, dy)).2).map Motion.server =
    (s.onMouseMoveSecondary e fuel dx dy).map fun r => m.server e r.server
  cleared : ¬ s.testsNoEdge → (s.onMouseMoveSecondary e fuel dx dy).map Motion.server =
    some (s.settled e dx dy (e.jumpZoneSize ≤
      (e.shape s.active).distance ((s.tested e dx dy).x, (s.tested e dx dy).y) dir))

variable {e s} {m : Mirror}

private theorem roundAway_neg (q : ℚ) : roundAway (-q) = -roundAway q := by
  unfold roundAway
  rcases lt_trichotomy q 0 with h | rfl | h
  · rw [if_pos (by linarith), if_neg (by linarith), show -q + 1 / 2 = -(q - 1 / 2) by ring, Int.floor_neg]
  · norm_num
  · rw [if_neg (by linarith), if_pos h.le, show -q - 1 / 2 = -(q + 1 / 2) by ring, Int.ceil_neg]

private theorem adjustMotion_neg (d : Int) : adjustMotion e (-d) = -adjustMotion e d := by
  unfold adjustMotion
  cases e.mouseAdjustment with
  | none => rfl
  | some multiplier =>
    change roundAway ((-d : Int) * multiplier) = -roundAway (d * multiplier)
    rw [Int.cast_neg, neg_mul, roundAway_neg]

private theorem adjustMotion_mirror (dx dy : Int) :
    (adjustMotion (m.platform e) (m.vec (dx, dy)).1, adjustMotion (m.platform e) (m.vec (dx, dy)).2) =
      m.vec (adjustMotion e dx, adjustMotion e dy) := by
  have hsame : ∀ d, adjustMotion (m.platform e) d = adjustMotion e d := fun _ => rfl
  cases m <;> simp only [hsame, Mirror.vec, adjustMotion_neg]

/-- Mirroring and moving can change places. -/
private theorem tested_mirror (dx dy : Int) :
    (m.server e s).tested (m.platform e) (m.vec (dx, dy)).1 (m.vec (dx, dy)).2 = m.server e (s.tested e dx dy) := by
  obtain ⟨hx, hy⟩ := Prod.mk.inj (adjustMotion_mirror (e := e) (m := m) dx dy)
  unfold tested
  rw [hx, hy]
  cases m <;> simp [Mirror.server, Mirror.vec, Mirror.point, recordMotion] <;> omega

private theorem contains_mirror {a : Shape} {p : Int × Int} (h : a.contains p) :
    (m.shape a).contains (m.point a p) := by
  unfold Shape.contains at h ⊢
  cases m <;> simp only [Mirror.shape, Mirror.point] <;> omega

private theorem distance_mirror {a : Shape} {p : Int × Int} (dir : Direction) :
    (m.shape a).distance (m.point a p) (m.dir dir) = a.distance p dir := by
  cases m <;> cases dir <;> simp only [Mirror.shape, Mirror.point, Mirror.dir, Shape.distance] <;> omega

private theorem exitSide_of_contains (h : (e.shape s.active).contains (s.x, s.y)) : s.exitSide e = none := by
  obtain ⟨hleft, hright, htop, hbottom⟩ := h
  unfold exitSide
  rw [if_neg (by omega), if_neg (by omega), if_neg (by omega), if_neg (by omega)]

/-! The double tap -/

private theorem inTapZone_mirror : (m.server e s).inTapZone (m.platform e) ↔ s.inTapZone e := by
  unfold inTapZone
  cases m <;> simp only [Mirror.platform, Mirror.server, Mirror.shape, Mirror.point] <;> omega

private theorem movesAway_mirror (dir : Direction) : (m.server e s).movesAway (m.dir dir) ↔ s.movesAway dir := by
  cases m <;> cases dir <;> simp only [Mirror.server, Mirror.vec, Mirror.dir, movesAway] <;> omega

private theorem armsTwoTap_mirror (dir : Direction) :
    (m.server e s).armsTwoTap (m.platform e) (m.dir dir) ↔ s.armsTwoTap e dir := by
  unfold armsTwoTap
  rw [inTapZone_mirror, movesAway_mirror]
  rfl

private theorem noSwitch_of_ends (h : s.endsTwoTap e) :
    s.noSwitch e s.x s.y = s.stopSwitchTwoTap.stopSwitchWait := by
  obtain ⟨hengaged, hlate⟩ := h
  simp [noSwitch, armSwitchTwoTap, hengaged, hlate]

private theorem noSwitch_of_arms {dir : Direction} (hdir : s.switchDir = some dir) (h : s.armsTwoTap e dir) :
    s.noSwitch e s.x s.y = { s with switchTwoTapArmed := true }.stopSwitchWait := by
  obtain ⟨hengaged, htime, harmed, hzone, haway⟩ := h
  unfold inTapZone at hzone
  cases dir <;> simp only [movesAway] at haway <;>
    simp [noSwitch, armSwitchTwoTap, hengaged, htime.not_gt, harmed, hzone, haway, hdir]

private theorem withArmed_of_false {armed : Bool} (h : s.switchTwoTapArmed = false) (harmed : armed = false) :
    { s with switchTwoTapArmed := armed } = s := by
  rw [harmed, ← h]

private theorem noSwitch_of_keeps {dir : Direction} (hdir : s.switchDir = some dir) (hends : ¬ s.endsTwoTap e)
    (harms : ¬ s.armsTwoTap e dir) : s.noSwitch e s.x s.y = s.stopSwitchWait := by
  have harm : s.armSwitchTwoTap e s.x s.y = s := by
    unfold armSwitchTwoTap
    by_cases hengaged : s.switchTwoTapEngaged = true
    · have htime : s.switchTwoTapTime e ≤ s.switchTwoTapDelay := not_lt.mp fun hlate => hends ⟨hengaged, hlate⟩
      rw [if_neg (by simp [hengaged]), if_neg htime.not_gt]
      by_cases harmed : s.switchTwoTapArmed = true
      · rw [if_pos harmed]
      rw [if_neg harmed]
      have hstill : ¬ (s.inTapZone e ∧ s.movesAway dir) := fun hleft =>
        harms ⟨hengaged, htime, Bool.eq_false_iff.mpr harmed, hleft⟩
      by_cases hzone : s.inTapZone e
      · have haway : ¬ s.movesAway dir := fun haway => hstill ⟨hzone, haway⟩
        refine (if_pos hzone).trans ?_
        split <;> rename_i hcase <;> cases hdir.symm.trans hcase
        all_goals refine withArmed_of_false (Bool.eq_false_iff.mpr harmed) ?_
        all_goals simpa [movesAway] using haway
      · exact if_neg hzone
    · rw [if_pos (by simp [hengaged])]
  rw [noSwitch, harm]

/-- Leaving the edge of the mirrored screen mirrors leaving the edge. -/
private theorem noSwitch_mirror {dir : Direction} (hdir : s.switchDir = some dir) :
    (m.server e s).noSwitch (m.platform e) (m.server e s).x (m.server e s).y = m.server e (s.noSwitch e s.x s.y) := by
  have hdir' : (m.server e s).switchDir = some (m.dir dir) := congrArg (Option.map m.dir) hdir
  by_cases hends : s.endsTwoTap e
  · rw [noSwitch_of_ends hends, noSwitch_of_ends (e := m.platform e) (s := m.server e s) hends]
    rfl
  by_cases harms : s.armsTwoTap e dir
  · rw [noSwitch_of_arms hdir harms, noSwitch_of_arms hdir' ((armsTwoTap_mirror dir).mpr harms)]
    rfl
  · rw [noSwitch_of_keeps hdir hends harms,
      noSwitch_of_keeps (e := m.platform e) (s := m.server e s) hdir' hends
        fun h => harms ((armsTwoTap_mirror dir).mp h)]
    rfl

/-- The members that leaving an edge can change. -/
def waits (s : Server) : Bool × Bool × Bool := (s.switchTwoTapEngaged, s.switchTwoTapArmed, s.switchWaitTimer)

private theorem waits_noSwitch {dir : Direction} (hdir : s.switchDir = some dir) :
    (s.noSwitch e s.x s.y).waits = s.waits ↔ s.nothingToClear e dir := by
  unfold nothingToClear
  by_cases hends : s.endsTwoTap e
  · rw [noSwitch_of_ends hends]
    simp only [waits, stopSwitchTwoTap, stopSwitchWait, hends.1, hends, not_true, false_and, and_false]
    simp
  by_cases harms : s.armsTwoTap e dir
  · rw [noSwitch_of_arms hdir harms]
    simp only [waits, stopSwitchWait, harms.2.2.1, harms, not_true, and_false]
    simp
  · rw [noSwitch_of_keeps hdir hends harms]
    simp only [waits, stopSwitchWait, hends, harms, not_false_eq_true, and_true, Prod.mk.injEq, true_and, eq_comm]

private theorem noSwitch_of_nothing {dir : Direction} (hdir : s.switchDir = some dir) (h : s.nothingToClear e dir) :
    s.noSwitch e s.x s.y = s := by
  obtain ⟨htimer, hends, harms⟩ := h
  rw [noSwitch_of_keeps hdir hends harms, stopSwitchWait, ← htimer]

/-! Ending the motion -/

private theorem clampMove_of_contains {x y dx dy : Int} (hx : s.x = x + dx) (hy : s.y = y + dy)
    (h : (e.shape s.active).contains (s.x, s.y)) : s.clampMove e x y dx dy =
      if s.x ≠ x ∨ s.y ≠ y then s.call s.active (.mouseMove s.x s.y) else s := by
  have hclamp : ∀ v lo size : Int, lo ≤ v → v < lo + size →
      (if v < lo then lo else if v > lo + size - 1 then lo + size - 1 else v) = v := by
    intro v lo size hlo hsize
    rw [if_neg (by omega), if_neg (by omega)]
  obtain ⟨hleft, hright, htop, hbottom⟩ := h
  simp only [clampMove, ← hx, ← hy]
  rw [hclamp _ _ _ hleft hright, hclamp _ _ _ htop hbottom]

private theorem waits_clampMove (x y dx dy : Int) : (s.clampMove e x y dx dy).waits = s.waits := by
  unfold clampMove
  exact (apply_ite waits _ _ _).trans (ite_self _)

private theorem position_noSwitch (x y : Int) : (s.noSwitch e x y).active = s.active ∧
    (s.noSwitch e x y).x = s.x ∧ (s.noSwitch e x y).y = s.y := by
  unfold noSwitch armSwitchTwoTap
  simp only
  repeat' split
  all_goals exact ⟨rfl, rfl, rfl⟩

private theorem call_mouseMove_mirror : (m.server e s).call s.active (.mouseMove (m.server e s).x (m.server e s).y) =
    m.server e (s.call s.active (.mouseMove s.x s.y)) := by
  simp [call, Mirror.server, Mirror.told]

/-- The cursor stays where it is exactly if its image does. -/
private theorem position_mirror {t : Server} (hactive : t.active = s.active) :
    ((m.server e t).x ≠ (m.server e s).x ∨ (m.server e t).y ≠ (m.server e s).y) ↔ t.x ≠ s.x ∨ t.y ≠ s.y := by
  cases m <;> simp only [Mirror.server, Mirror.point, hactive] <;> omega

variable {dx dy : Int} {dir : Direction}

/-- Whether the wait was cleared shows in the members unless there was nothing to clear. -/
private theorem iff_of_waits_settled (hdir : s.switchDir = some dir) {p q : Prop} [Decidable p] [Decidable q]
    (h : (s.settled e dx dy p).waits = (s.settled e dx dy q).waits) :
    (p ↔ q) ∨ (s.tested e dx dy).nothingToClear e dir := by
  have hdir' : (s.tested e dx dy).switchDir = some dir := hdir
  simp only [settled, waits_clampMove] at h
  by_cases hp : p <;> by_cases hq : q
  · exact Or.inl (iff_of_true hp hq)
  · rw [if_pos hp, if_neg hq] at h
    exact Or.inr ((waits_noSwitch hdir').mp h)
  · rw [if_neg hp, if_pos hq] at h
    exact Or.inr ((waits_noSwitch hdir').mp h.symm)
  · exact Or.inl (iff_of_false hp hq)

private theorem settled_congr (hdir : s.switchDir = some dir) {p q : Prop} [Decidable p] [Decidable q]
    (h : (p ↔ q) ∨ (s.tested e dx dy).nothingToClear e dir) : s.settled e dx dy p = s.settled e dx dy q := by
  have hdir' : (s.tested e dx dy).switchDir = some dir := hdir
  rcases h with h | h
  · simp only [settled, h]
  · simp only [settled, noSwitch_of_nothing hdir' h, ite_self]

private theorem onMouseMoveSecondary_settled (fuel : Nat) (dx dy : Int) (htests : ¬ s.testsNoEdge)
    (hpending : s.mSwitchScreen ≠ none)
    (hin : (e.shape s.active).contains ((s.tested e dx dy).x, (s.tested e dx dy).y)) :
    (s.onMouseMoveSecondary e fuel dx dy).map Motion.server =
      some (s.settled e dx dy ((s.tested e dx dy).clearWait e = true)) := by
  have hexit : (s.tested e dx dy).exitSide e = none := exitSide_of_contains hin
  have hpending' : (s.tested e dx dy).mSwitchScreen ≠ none := hpending
  unfold testsNoEdge at htests
  obtain ⟨hactive, hrelative⟩ := not_or.mp htests
  have hleave : (s.tested e dx dy).leaveBorder e = if (s.tested e dx dy).clearWait e = true then
      (s.tested e dx dy).noSwitch e (s.tested e dx dy).x (s.tested e dx dy).y else s.tested e dx dy := by
    by_cases hclear : (s.tested e dx dy).clearWait e = true
    · rw [leaveBorder, if_pos ⟨hpending', hclear⟩, if_pos hclear]
    · rw [leaveBorder, if_neg fun h => hclear h.2, if_neg hclear]
  rw [settled, ← hleave]
  unfold tested at hexit ⊢
  simp only [onMouseMoveSecondary, if_neg hactive, if_neg hrelative, hexit]
  rfl

private theorem settled_mirror (hdir : s.switchDir = some dir)
    (hin : (e.shape s.active).contains ((s.tested e dx dy).x, (s.tested e dx dy).y)) (p : Prop) [Decidable p] :
    (m.server e s).settled (m.platform e) (m.vec (dx, dy)).1 (m.vec (dx, dy)).2 p =
      m.server e (s.settled e dx dy p) := by
  have hmoved := tested_mirror (e := e) (s := s) (m := m) dx dy
  have hleave := noSwitch_mirror (e := e) (m := m) (s := s.tested e dx dy) hdir
  set t := s.tested e dx dy with ht
  obtain ⟨u, hu, hactive, hux, huy⟩ : ∃ u, u = (if p then t.noSwitch e t.x t.y else t) ∧
      u.active = s.active ∧ u.x = t.x ∧ u.y = t.y := by
    refine ⟨_, rfl, ?_⟩
    split
    · exact position_noSwitch t.x t.y
    · exact ⟨rfl, rfl, rfl⟩
  have hmu : (if p then (m.server e t).noSwitch (m.platform e) (m.server e t).x (m.server e t).y else m.server e t) =
      m.server e u := by
    rw [hleave, hu]
    split <;> rfl
  have hplace : (m.server e u).x = (m.server e t).x ∧ (m.server e u).y = (m.server e t).y := by
    simp only [Mirror.server, hactive, hux, huy, ht]
    exact ⟨rfl, rfl⟩
  have hin' : (e.shape u.active).contains (u.x, u.y) := by rwa [hactive, hux, huy]
  have hx : (m.server e u).x = (m.server e s).x + adjustMotion (m.platform e) (m.vec (dx, dy)).1 := by
    rw [hplace.1, ← hmoved]
    rfl
  have hy : (m.server e u).y = (m.server e s).y + adjustMotion (m.platform e) (m.vec (dx, dy)).2 := by
    rw [hplace.2, ← hmoved]
    rfl
  unfold settled
  simp only [hmoved, hmu]
  rw [← hu]
  rw [clampMove_of_contains hx hy (contains_mirror hin'), clampMove_of_contains hux huy hin']
  simp only [position_mirror hactive]
  rw [apply_ite (m.server e), ← call_mouseMove_mirror]
  rfl

private theorem onMouseMoveSecondary_mirror_of_testsNoEdge (fuel : Nat) (h : s.testsNoEdge) :
    ((m.server e s).onMouseMoveSecondary (m.platform e) fuel (m.vec (dx, dy)).1 (m.vec (dx, dy)).2).map Motion.server =
      (s.onMouseMoveSecondary e fuel dx dy).map fun r => m.server e r.server := by
  have hx : adjustMotion (m.platform e) (m.vec (dx, dy)).1 = (m.vec (adjustMotion e dx, adjustMotion e dy)).1 :=
    congrArg Prod.fst (adjustMotion_mirror dx dy)
  have hy : adjustMotion (m.platform e) (m.vec (dx, dy)).2 = (m.vec (adjustMotion e dx, adjustMotion e dy)).2 :=
    congrArg Prod.snd (adjustMotion_mirror dx dy)
  by_cases hactive : s.active = s.primaryClient
  · have hactive' : (m.server e s).active = (m.server e s).primaryClient := hactive
    simp only [onMouseMoveSecondary, if_pos hactive, if_pos hactive', Option.map_some, stay]
  · have hactive' : ¬ (m.server e s).active = (m.server e s).primaryClient := hactive
    have hrelative := h.resolve_left hactive
    have hrelative' : ((m.server e s).relativeMoves && (m.server e s).isLockedToScreenServer) = true := hrelative
    simp only [onMouseMoveSecondary, if_neg hactive, if_neg hactive', if_pos hrelative, if_pos hrelative', hx, hy,
      Option.map_some, stay]
    simp [call, Mirror.server, Mirror.told]

/-- Three edges are cleared from the zone size on; the bottom one from minus the zone size on. -/
private theorem clearWait_iff (dir : Direction) (hdir : s.switchDir = some dir) : s.clearWait e = true ↔
    if dir = .bottom then -e.jumpZoneSize ≤ (e.shape s.active).distance (s.x, s.y) dir
    else e.jumpZoneSize ≤ (e.shape s.active).distance (s.x, s.y) dir := by
  cases dir <;> simp [clearWait, hdir, Shape.distance] <;> omega

private theorem distance_nonneg {a : Shape} {p : Int × Int} (h : a.contains p) (dir : Direction) :
    0 ≤ a.distance p dir := by
  unfold Shape.contains at h
  cases dir <;> simp only [Shape.distance] <;> omega

/-- In the state with a switch pending at one edge, the edges are treated alike exactly if
the bottom edge is neither that edge nor its image, or the cursor is far enough from the
edge for its wrong sign not to matter, or there is nothing to clear. -/
theorem edgesAlike_iff (fuel : Nat) (hpending : s.mSwitchScreen ≠ none) (hdir : s.switchDir = some dir)
    (hin : (e.shape s.active).contains ((s.tested e dx dy).x, (s.tested e dx dy).y)) :
    s.EdgesAlike e m fuel dx dy dir ↔ s.testsNoEdge ∨ (dir ≠ .bottom ∧ m.dir dir ≠ .bottom) ∨
      |e.jumpZoneSize| ≤ (e.shape s.active).distance ((s.tested e dx dy).x, (s.tested e dx dy).y) dir ∨
      (s.tested e dx dy).nothingToClear e dir := by
  by_cases htests : s.testsNoEdge
  · exact iff_of_true ⟨onMouseMoveSecondary_mirror_of_testsNoEdge fuel htests, fun h => absurd htests h⟩ (Or.inl htests)
  have hdir' : (s.tested e dx dy).switchDir = some dir := hdir
  have hmoved := tested_mirror (e := e) (s := s) (m := m) dx dy
  have hresult := onMouseMoveSecondary_settled fuel dx dy htests hpending hin
  have hresult' := onMouseMoveSecondary_settled (e := m.platform e) (s := m.server e s) fuel
    (m.vec (dx, dy)).1 (m.vec (dx, dy)).2 htests hpending (by rw [hmoved]; exact contains_mirror hin)
  rw [settled_mirror hdir hin, hmoved] at hresult'
  have hclear : (s.tested e dx dy).clearWait e = true ↔
      if dir = .bottom then
        -e.jumpZoneSize ≤ (e.shape s.active).distance ((s.tested e dx dy).x, (s.tested e dx dy).y) dir
      else e.jumpZoneSize ≤ (e.shape s.active).distance ((s.tested e dx dy).x, (s.tested e dx dy).y) dir :=
    clearWait_iff dir hdir'
  have hclear' := clearWait_iff (e := m.platform e) (s := m.server e (s.tested e dx dy)) (m.dir dir)
    (congrArg (Option.map m.dir) hdir')
  have hdistance : ((m.platform e).shape (m.server e (s.tested e dx dy)).active).distance
      ((m.server e (s.tested e dx dy)).x, (m.server e (s.tested e dx dy)).y) (m.dir dir) =
      (e.shape s.active).distance ((s.tested e dx dy).x, (s.tested e dx dy).y) dir := distance_mirror dir
  rw [hdistance, show (m.platform e).jumpZoneSize = e.jumpZoneSize from rfl] at hclear'
  have hnonneg := distance_nonneg hin dir
  have himage : (s.onMouseMoveSecondary e fuel dx dy).map (fun r => m.server e r.server) =
      ((s.onMouseMoveSecondary e fuel dx dy).map Motion.server).map (m.server e) := by
    rw [Option.map_map]
    rfl
  rw [abs_le]
  constructor
  · rintro ⟨hmirrored, hcleared⟩
    have hcleared := hcleared htests
    rw [himage, hresult, hresult', Option.map_some] at hmirrored
    rw [hresult] at hcleared
    by_cases hnothing : (s.tested e dx dy).nothingToClear e dir
    · exact Or.inr (Or.inr (Or.inr hnothing))
    have hservers := Option.some.inj hmirrored
    have hwaits : (s.settled e dx dy ((m.server e (s.tested e dx dy)).clearWait (m.platform e) = true)).waits =
        (s.settled e dx dy ((s.tested e dx dy).clearWait e = true)).waits := by
      have h := congrArg waits hservers
      exact h
    have hboth := (iff_of_waits_settled hdir hwaits).resolve_right hnothing
    have hone := (iff_of_waits_settled hdir (congrArg waits (Option.some.inj hcleared))).resolve_right hnothing
    rw [hclear] at hboth hone
    rw [hclear'] at hboth
    refine Or.inr ?_
    by_cases hbottom : dir = .bottom
    · rw [if_pos hbottom] at hone
      omega
    by_cases hbottom' : m.dir dir = .bottom
    · rw [if_neg hbottom, if_pos hbottom'] at hboth
      omega
    · exact Or.inl ⟨hbottom, hbottom'⟩
  · intro h
    refine ⟨?_, fun _ => ?_⟩
    · rw [himage, hresult, hresult', Option.map_some]
      refine congrArg some (congrArg (m.server e) (settled_congr hdir ?_))
      rw [hclear, hclear']
      rcases h.resolve_left htests with ⟨hbottom, hbottom'⟩ | hfar | hnothing
      · rw [if_neg hbottom, if_neg hbottom']
        exact Or.inl Iff.rfl
      · refine Or.inl ?_
        split <;> split <;> omega
      · exact Or.inr hnothing
    · rw [hresult]
      refine congrArg some (settled_congr hdir ?_)
      rw [hclear]
      rcases h.resolve_left htests with ⟨hbottom, -⟩ | hfar | hnothing
      · rw [if_neg hbottom]
        exact Or.inl Iff.rfl
      · refine Or.inl ?_
        split <;> omega
      · exact Or.inr hnothing

/-- The cursor is on the last row of the secondary screen and waits to switch over its bottom edge. -/
def waitingAtBottom : Server :=
  { initial .empty ⟨0, ['p']⟩ with
    active := ⟨1, ['s']⟩, x := 50, y := 99, mSwitchScreen := some ⟨0, ['p']⟩, switchDir := some .bottom
    switchWaitTimer := true }

/-- Moving along the bottom edge, in its last row, ends the wait. -/
theorem edgesAlike_fails_at_bottom :
    ¬ ∀ (e : Platform) (s : Server) (m : Mirror) (fuel : Nat) (dx dy : Int) (dir : Direction), s.mSwitchScreen ≠ none →
      s.switchDir = some dir → (e.shape s.active).contains ((s.tested e dx dy).x, (s.tested e dx dy).y) →
      s.EdgesAlike e m fuel dx dy dir := by
  intro h
  have hcleared := (h .still waitingAtBottom .topBottom 0 1 0 .bottom (by decide) rfl (by decide)).cleared (by decide)
  have htimer := congrArg (Option.map switchWaitTimer) hcleared
  exact absurd htimer (by decide)

/-- Ten rows above that edge the wait ends as it should. -/
theorem edgesAlike_above_bottom : waitingAtBottom.EdgesAlike .still .topBottom 0 0 (-10) .bottom :=
  (edgesAlike_iff 0 (by decide) rfl (by decide)).mpr (Or.inr (Or.inr (Or.inl (by decide))))

end Server
end Synergy
