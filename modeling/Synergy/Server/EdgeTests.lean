import Synergy.Server.Step
import Synergy.Server.SwitchMoves

/-! Which edges an event tests, and from what state: the first one from the state
before the event, apart from the position, and a second one after aiming elsewhere. -/
namespace Synergy
open Synergy.Lib

/-- The test was made on what one call of `mapToNeighbor` returned. -/
def EdgeTest.Mapped (e : Platform) (fuel : Nat) (t : EdgeTest) : Prop :=
  ∃ p, t.before.mapToNeighbor e fuel t.before.active t.dir p = some (t.newScreen, t.x, t.y)

namespace Server
variable (e : Platform) (s : Server)

/-- The first edge that a motion on the primary screen tests, and the point beyond it. -/
def primaryEdge (x y : Int) : Option (Direction × Int × Int) :=
  if s.active ≠ s.primaryClient then none else (s.edgesAt e x y).head?

/-- The edge that a motion on a secondary screen tests, and the point beyond it. -/
def secondaryEdge (dx dy : Int) : Option (Direction × Int × Int) :=
  if s.active = s.primaryClient then none
  else if s.relativeMoves && s.isLockedToScreenServer then none
  else
    let s := s.recordMotion (s.x + adjustMotion e dx) (s.y + adjustMotion e dy) (adjustMotion e dx) (adjustMotion e dy)
    (s.exitSide e).map fun dir => (dir, s.x, s.y)

/-- The first edge that an event tests, and the point beyond it. -/
def firstEdge : ServerEvent → Option (Direction × Int × Int)
  | .motionPrimary x y => s.primaryEdge e x y
  | .motionSecondary dx dy => s.secondaryEdge e dx dy
  | .shapeChanged client =>
    let t := s.takeCursorPos e client
    if client ∉ s.clientSet ∨ client ≠ s.primaryClient then none
    else if client = s.active then t.primaryEdge e t.x t.y
    else t.secondaryEdge e 0 0
  | _ => none

variable {e s} {t u : Server} {fuel : Nat}

/-- Only positions have changed. -/
def Moved (s t : Server) : Prop := ∃ x y xDelta yDelta xDelta2 yDelta2 jumpCursorPos,
  t = { s with
    x := x, y := y, xDelta := xDelta, yDelta := yDelta, xDelta2 := xDelta2, yDelta2 := yDelta2
    jumpCursorPos := jumpCursorPos }

namespace Moved

theorem recordMotion (s : Server) (x y dx dy : Int) : Moved s (s.recordMotion x y dx dy) := ⟨_, _, _, _, _, _, _, rfl⟩

theorem moveTo (s : Server) (x y : Int) : Moved s (s.moveTo x y) := ⟨_, _, _, _, _, _, _, rfl⟩

theorem takeCursorPos (e : Platform) (s : Server) (c : BaseClientProxy) : Moved s (s.takeCursorPos e c) := by
  unfold Server.takeCursorPos
  dsimp only
  split <;> exact ⟨_, _, _, _, _, _, _, rfl⟩

theorem refl (s : Server) : Moved s s := ⟨_, _, _, _, _, _, _, rfl⟩

theorem trans (h : Moved s t) (k : Moved t u) : Moved s u := by
  obtain ⟨_, _, _, _, _, _, _, rfl⟩ := h
  obtain ⟨_, _, _, _, _, _, _, rfl⟩ := k
  exact ⟨_, _, _, _, _, _, _, rfl⟩

theorem rewaits (h : Moved s t) {dir : Direction} (hr : t.Rewaits e dir) : s.Rewaits e dir := by
  obtain ⟨_, _, _, _, _, _, _, rfl⟩ := h
  exact hr

theorem mSwitchScreen (h : Moved s t) : t.mSwitchScreen = s.mSwitchScreen := by
  obtain ⟨_, _, _, _, _, _, _, rfl⟩ := h
  rfl

theorem mapToNeighbor (h : Moved s t) (src : BaseClientProxy) (side : Direction) (p : Int × Int) :
    t.mapToNeighbor e fuel src side p = s.mapToNeighbor e fuel src side p := by
  obtain ⟨_, _, _, _, _, _, _, rfl⟩ := h
  apply mapToNeighbor_congr <;> rfl

theorem primaryClient (h : Moved s t) : t.primaryClient = s.primaryClient := by
  obtain ⟨_, _, _, _, _, _, _, rfl⟩ := h
  rfl

theorem active (h : Moved s t) : t.active = s.active := by
  obtain ⟨_, _, _, _, _, _, _, rfl⟩ := h
  rfl

end Moved

/-- A test of the given edge from the given state, apart from the position. -/
def TestsAt (e : Platform) (fuel : Nat) (s : Server) (t : EdgeTest) (p : Int × Int) : Prop :=
  Moved s t.before ∧ s.mapToNeighbor e fuel s.active t.dir p = some (t.newScreen, t.x, t.y)

theorem TestsAt.mapped {t : EdgeTest} {p : Int × Int} (h : TestsAt e fuel s t p) : t.Mapped e fuel :=
  ⟨p, by rw [h.1.mapToNeighbor, h.1.active, h.2]⟩

theorem TestsAt.of_moved {t : EdgeTest} {p : Int × Int} (h : Moved s u) (ht : TestsAt e fuel u t p) : TestsAt e fuel s t p :=
  ⟨h.trans ht.1, by rw [← ht.2, h.mapToNeighbor, h.active]⟩

/-- No switch is pending in another direction. -/
private def AimsAt (dir : Direction) (s : Server) : Prop := s.mSwitchScreen = none ∨ s.switchDir = some dir

private theorem AimsAt.refuseIf {dir : Direction} {r : Server × Bool} (h : AimsAt dir r.1) (refused : Bool) :
    AimsAt dir (Server.refuseIf refused r).1 := by
  unfold Server.refuseIf
  split
  · exact .inl (stopSwitch_mSwitchScreen _)
  · exact h

private theorem isSwitchOkay_aimsAt (s : Server) (newScreen : Option BaseClientProxy) (dir : Direction)
    (x y xActive yActive : Int) : AimsAt dir (s.isSwitchOkay e newScreen dir x y xActive yActive).1 := by
  cases newScreen with
  | none => exact .inl (stopSwitch_mSwitchScreen s)
  | some n =>
    unfold isSwitchOkay
    exact AimsAt.refuseIf (AimsAt.refuseIf (AimsAt.refuseIf (.inr (aimAndWait_switchDir s n dir x y)) _) _) _

private theorem AimsAt.not_rewaits {dir dir' : Direction} (h : AimsAt dir s) (hne : dir ≠ dir') : ¬ s.Rewaits e dir' := by
  rintro ⟨hdir, hscreen, -⟩
  rcases h with h | h
  · exact hscreen h
  · exact hne (Option.some.inj (h.symm.trans hdir))

/-- The test was made by one call at the first edge, from the given state, or with no
switch pending that a wait could start again for. -/
private def Sound (e : Platform) (fuel : Nat) (s : Server) (first : Option (Direction × Int × Int)) (t : EdgeTest) : Prop :=
  t.Mapped e fuel ∧ ((∃ p, first = some (t.dir, p) ∧ TestsAt e fuel s t p) ∨ ¬ t.before.Rewaits e t.dir)

private theorem Sound.of_testsAt {t : EdgeTest} {p : Int × Int} (h : TestsAt e fuel s t p) :
    Sound e fuel s (some (t.dir, p)) t := ⟨h.mapped, .inl ⟨p, rfl, h⟩⟩

private theorem Sound.of_moved {first : Option (Direction × Int × Int)} {t : EdgeTest} (hm : Moved s u)
    (h : Sound e fuel u first t) : Sound e fuel s first t :=
  ⟨h.1, h.2.imp_left fun ⟨p, hp, ht⟩ => ⟨p, hp, ht.of_moved hm⟩⟩

private theorem tryEdges_tests {xActive yActive : Int} {edges : List (Direction × Int × Int)} {m : Motion}
    (hdistinct : edges.Pairwise fun a b => a.1 ≠ b.1) (h : tryEdges e fuel xActive yActive s edges = some m) :
    ∀ t ∈ m.tests, Sound e fuel s edges.head? t := by
  induction edges generalizing s m with
  | nil =>
    obtain rfl := Option.some.inj h
    simp [stay]
  | cons edge rest ih =>
    obtain ⟨dir, p⟩ := edge
    obtain ⟨hne, hrest⟩ := List.pairwise_cons.mp hdistinct
    rw [tryEdges] at h
    split at h
    · cases h
    · rename_i newScreen x y hn
      have hfirst : TestsAt e fuel s (s.testEdge e dir newScreen x y xActive yActive) p := ⟨.refl s, hn⟩
      dsimp only at h
      split at h
      · obtain rfl := Option.some.inj h
        intro t ht
        obtain rfl := List.mem_singleton.mp ht
        exact .of_testsAt hfirst
      · obtain ⟨m', hm', rfl⟩ := Option.map_eq_some_iff.mp h
        intro t ht
        rcases List.mem_cons.mp ht with rfl | ht
        · exact .of_testsAt hfirst
        · obtain ⟨hmapped, ht⟩ := ih hrest hm' t ht
          refine ⟨hmapped, .inr ?_⟩
          rcases ht with ⟨q, hq, hmoved, -⟩ | ht
          · have hdir : dir ≠ t.dir := hne _ (List.mem_of_head? hq)
            exact fun hr => (isSwitchOkay_aimsAt s _ dir x y _ _).not_rewaits hdir (hmoved.rewaits hr)
          · exact ht

private theorem edgesAt_distinct (s : Server) (x y : Int) : (s.edgesAt e x y).Pairwise fun a b => a.1 ≠ b.1 := by
  unfold edgesAt
  dsimp only
  split_ifs <;> simp

private theorem onMouseMovePrimary_tests {x y : Int} {m : Motion} (h : s.onMouseMovePrimary e fuel x y = some m) :
    ∀ t ∈ m.tests, Sound e fuel s (s.primaryEdge e x y) t := by
  unfold onMouseMovePrimary at h
  split at h
  · obtain rfl := Option.some.inj h
    simp [stay]
  · rename_i hactive
    have hmoved : Moved s (s.recordMotion x y (x - s.x) (y - s.y)) := .recordMotion s x y _ _
    have hfirst : s.primaryEdge e x y = ((s.recordMotion x y (x - s.x) (y - s.y)).edgesAt e x y).head? := if_neg hactive
    dsimp only at h
    split at h
    · obtain rfl := Option.some.inj h
      simp [stay]
    · intro t ht
      rw [hfirst]
      exact (tryEdges_tests (edgesAt_distinct _ x y) h t ht).of_moved hmoved

private theorem crossSide_tests {xOld yOld dx dy : Int} {dir : Direction} {m : Motion}
    (h : s.crossSide e fuel xOld yOld dx dy dir = some m) :
    ∀ t ∈ m.tests, Sound e fuel s (some (dir, s.x, s.y)) t := by
  unfold crossSide at h
  split at h
  · cases h
  · rename_i newScreen x y hn
    dsimp only at h
    have hfirst : TestsAt e fuel s ((s.moveTo x y).testEdge e dir newScreen x y
      (clampToBorder s.x (e.shape s.active).x (e.shape s.active).w 0)
      (clampToBorder s.y (e.shape s.active).y (e.shape s.active).h 0)) (s.x, s.y) := ⟨.moveTo s x y, hn⟩
    split at h
    all_goals
      obtain rfl := Option.some.inj h
      intro t ht
      obtain rfl := List.mem_singleton.mp ht
      exact .of_testsAt hfirst

private theorem onMouseMoveSecondary_tests {dx dy : Int} {m : Motion} (h : s.onMouseMoveSecondary e fuel dx dy = some m) :
    ∀ t ∈ m.tests, Sound e fuel s (s.secondaryEdge e dx dy) t := by
  unfold onMouseMoveSecondary at h
  dsimp only at h
  split at h
  · obtain rfl := Option.some.inj h
    simp [stay]
  rename_i hactive
  split at h
  · obtain rfl := Option.some.inj h
    simp [stay]
  rename_i hrelative
  split at h
  · obtain rfl := Option.some.inj h
    simp [stay]
  · rename_i dir hside
    intro t ht
    have hfirst : s.secondaryEdge e dx dy = some (dir, s.x + adjustMotion e dx, s.y + adjustMotion e dy) := by
      rw [secondaryEdge, if_neg hactive, if_neg hrelative]
      dsimp only
      rw [hside]
      rfl
    rw [hfirst]
    exact (crossSide_tests h t ht).of_moved (.recordMotion s _ _ _ _)

/-- Every test is made on what one call of `mapToNeighbor` returned. If it can start a
wait again for the pending switch, it is made at the first edge and from the state
before the event, apart from the position. -/
theorem handle_tests {ev : ServerEvent} {m : Motion} (h : s.handle e fuel ev = some m) :
    ∀ t ∈ m.tests, t.Mapped e fuel ∧
      ((∃ p, s.firstEdge e ev = some (t.dir, p) ∧ TestsAt e fuel s t p) ∨ ¬ t.before.Rewaits e t.dir) := by
  cases ev with
  | motionPrimary x y => exact onMouseMovePrimary_tests h
  | motionSecondary dx dy => exact onMouseMoveSecondary_tests h
  | shapeChanged client =>
    have hmoved := Moved.takeCursorPos e s client
    simp only [handle, handleShapeChanged, hmoved.primaryClient, hmoved.active] at h
    split at h
    · obtain rfl := Option.some.inj h
      simp [stay]
    rename_i hin
    split at h
    · obtain rfl := Option.some.inj h
      simp [stay]
    rename_i hprimary
    have hedge : s.firstEdge e (.shapeChanged client) = if client = s.active
        then (s.takeCursorPos e client).primaryEdge e (s.takeCursorPos e client).x (s.takeCursorPos e client).y
        else (s.takeCursorPos e client).secondaryEdge e 0 0 := if_neg (not_or.mpr ⟨hin, hprimary⟩)
    intro t ht
    rw [hedge]
    split at h
    · rename_i hactive
      rw [if_pos hactive]
      exact (onMouseMovePrimary_tests h t ht).of_moved hmoved
    · rename_i hactive
      rw [if_neg hactive]
      exact (onMouseMoveSecondary_tests h t ht).of_moved hmoved
  | switchInDirection direction =>
    obtain ⟨t, -, rfl⟩ := Option.map_eq_some_iff.mp h
    simp [stay]
  | switchWaitTimeout =>
    obtain rfl := Option.some.inj h
    unfold handleSwitchWaitTimeout
    split
    · simp [stay]
    · dsimp only
      split <;> simp [stay]
  | _ =>
    obtain rfl := Option.some.inj h
    simp [stay]

end Server
end Synergy
