import Synergy.Server.EventMoves
import Synergy.Server.SwitchSharing

/-! What an event comes to that neither connects nor disconnects anyone and is not
about a clipboard: one switch between screens at most. -/
namespace Synergy
open Synergy.Lib

namespace Server
variable {e : Platform} {s t u : Server}

theorem testEdge_calm (s : Server) (dir : Direction) (newScreen : Option BaseClientProxy)
    (x y xActive yActive : Int) : s.Calm (s.testEdge e dir newScreen x y xActive yActive).after :=
  isSwitchOkay_calm s newScreen dir x y xActive yActive

/-- Nothing is told of the cursor and the clipboards but by one switch. -/
inductive Passage (e : Platform) (s t : Server) : Prop
  | calm (h : s.Calm t)
  | switched (u : Server) (dst : BaseClientProxy) (x y : Int) (forScreensaver : Bool) (hu : s.Calm u)
      (ht : (u.switchScreen e dst x y forScreensaver).Calm t)

namespace Passage

/-- A passage may start a little earlier. -/
theorem after (h : s.Calm t) (k : t.Passage e u) : s.Passage e u := by
  cases k with
  | calm hk => exact .calm (h.trans hk)
  | switched v dst x y forScreensaver hv hu => exact .switched v dst x y forScreensaver (h.trans hv) hu

theorem before (h : s.Passage e t) (k : t.Calm u) : s.Passage e u := by
  cases h with
  | calm hs => exact .calm (hs.trans k)
  | switched v dst x y forScreensaver hv ht => exact .switched v dst x y forScreensaver hv (ht.trans k)

theorem ite {p : Prop} [Decidable p] (ht : s.Passage e t) (hu : s.Passage e u) : s.Passage e (if p then t else u) := by
  split
  · exact ht
  · exact hu

theorem switchScreen (s : Server) (dst : BaseClientProxy) (x y : Int) (forScreensaver : Bool) :
    s.Passage e (s.switchScreen e dst x y forScreensaver) :=
  .switched s dst x y forScreensaver (.refl s) (.refl _)

theorem jumpToScreen (s : Server) (newScreen : BaseClientProxy) : s.Passage e (s.jumpToScreen e newScreen) := by
  unfold Server.jumpToScreen
  refine after ?_ (switchScreen _ newScreen _ _ false)
  exact .of_still rfl rfl

theorem onMouseMovePrimary {fuel : Nat} {x y : Int} {m : Motion} (h : s.onMouseMovePrimary e fuel x y = some m) :
    s.Passage e m.server := by
  have hedges : ∀ {edges : List (Direction × Int × Int)} {xActive yActive : Int} {s : Server} {m : Motion},
      tryEdges e fuel xActive yActive s edges = some m → s.Passage e m.server := by
    intro edges xActive yActive
    induction edges with
    | nil =>
      intro s m h
      obtain rfl := Option.some.inj h
      exact calm (.refl s)
    | cons edge rest ih =>
      intro s m h
      rw [tryEdges] at h
      split at h
      · cases h
      · dsimp only at h
        split at h
        · obtain rfl := Option.some.inj h
          exact after (testEdge_calm s _ _ _ _ _ _) (switchScreen _ _ _ _ false)
        · obtain ⟨m', hm', rfl⟩ := Option.map_eq_some_iff.mp h
          have hrest : Passage e _ m'.server := ih hm'
          exact after (testEdge_calm s _ _ _ _ _ _) hrest
  unfold Server.onMouseMovePrimary at h
  split at h
  · obtain rfl := Option.some.inj h
    exact calm (.refl s)
  · dsimp only at h
    split at h
    · obtain rfl := Option.some.inj h
      exact calm ((recordMotion_calm s x y _ _).trans (noSwitch_calm _ _ _))
    · exact after (recordMotion_calm s x y _ _) (hedges h)

private theorem crossSide {fuel : Nat} {xOld yOld dx dy : Int} {dir : Direction} {m : Motion}
    (h : s.crossSide e fuel xOld yOld dx dy dir = some m) : s.Passage e m.server := by
  unfold Server.crossSide at h
  split at h
  · cases h
  · rename_i newScreen x y hn
    have hmove : s.Calm (s.moveTo x y) := .of_still rfl rfl
    dsimp only at h
    split at h
    · obtain rfl := Option.some.inj h
      exact after (hmove.trans (testEdge_calm _ _ _ _ _ _ _)) (switchScreen _ _ _ _ false)
    · obtain rfl := Option.some.inj h
      exact calm ((hmove.trans (testEdge_calm _ _ _ _ _ _ _)).trans (clampMove_calm _ _ _ _ _))

theorem onMouseMoveSecondary {fuel : Nat} {dx dy : Int} {m : Motion} (h : s.onMouseMoveSecondary e fuel dx dy = some m) :
    s.Passage e m.server := by
  unfold Server.onMouseMoveSecondary at h
  dsimp only at h
  split at h
  · obtain rfl := Option.some.inj h
    exact calm (.refl s)
  split at h
  · obtain rfl := Option.some.inj h
    exact calm (call_calm s _ ⟨rfl, rfl⟩)
  split at h
  · obtain rfl := Option.some.inj h
    exact calm (((recordMotion_calm s _ _ _ _).trans (leaveBorder_calm _)).trans (clampMove_calm _ _ _ _ _))
  · exact after (recordMotion_calm s _ _ _ _) (crossSide h)

theorem handleSwitchWaitTimeout (s : Server) : s.Passage e (s.handleSwitchWaitTimeout e).server := by
  unfold Server.handleSwitchWaitTimeout
  split
  · exact calm (.of_still rfl rfl)
  · split
    · exact calm (stopSwitch_calm s)
    · exact switchScreen s _ _ _ false

theorem onScreensaver (s : Server) (activated : Bool) : s.Passage e (s.onScreensaver e activated) := by
  have hsave : s.Passage e (s.saveForScreensaver e) := by
    unfold saveForScreensaver
    refine after ?_ (.ite (switchScreen _ _ _ _ _) (calm (.refl _)))
    exact .of_still rfl rfl
  have hback : s.Passage e (s.returnFromScreensaver e) := by
    unfold returnFromScreensaver
    split
    · exact calm (.refl s)
    · refine .ite (calm (.refl s)) ?_
      unfold returnToScreen
      refine after ?_ (switchScreen _ _ _ _ false)
      exact .of_still rfl rfl
  unfold Server.onScreensaver
  refine before (.ite hsave (before hback ?_)) (callEach_calm _ fun _ => ⟨rfl, rfl⟩)
  exact .of_still rfl rfl

end Passage

/-- Every such event is a passage. -/
theorem handle_passage {fuel : Nat} {ev : ServerEvent} {m : Motion} (hq : ev.Quiet)
    (hgrabbed : ∀ client id sequenceNumber, ev ≠ .clipboardGrabbed client id sequenceNumber)
    (hchanged : ∀ client id sequenceNumber, ev ≠ .clipboardChanged client id sequenceNumber)
    (h : s.handle e fuel ev = some m) : s.Passage e m.server := by
  cases ev with
  | screensaver activated =>
    obtain rfl := Option.some.inj h
    exact .onScreensaver s activated
  | switchToScreen screen =>
    obtain rfl := Option.some.inj h
    simp only [stay, handleSwitchToScreenEvent]
    split
    · exact .calm (.refl s)
    · exact .jumpToScreen s _
  | switchInDirection direction =>
    obtain ⟨t, ht, rfl⟩ := Option.map_eq_some_iff.mp h
    simp only [handleSwitchInDirectionEvent] at ht
    split at ht
    · cases ht
    · obtain rfl := Option.some.inj ht
      exact .calm (.refl s)
    · obtain rfl := Option.some.inj ht
      exact .jumpToScreen s _
  | toggleScreen =>
    obtain rfl := Option.some.inj h
    simp only [stay, handleToggleScreenEvent]
    split
    · exact .calm (.refl s)
    · split
      · exact .calm (.refl s)
      · exact .jumpToScreen s _
  | keyboardBroadcast mode screens =>
    obtain rfl := Option.some.inj h
    exact .calm (.of_still rfl rfl)
  | lockCursorToScreen mode =>
    obtain rfl := Option.some.inj h
    simp only [stay, handleLockCursorToScreenEvent]
    refine .calm (.ite (.refl s) (Calm.trans ?_ (.ite (stopRelativeMoves_calm _) (.refl _))))
    refine Calm.trans ?_ (call_calm _ _ ⟨rfl, rfl⟩)
    exact .of_still rfl rfl
  | motionPrimary x y => exact .onMouseMovePrimary h
  | motionSecondary dx dy => exact .onMouseMoveSecondary h
  | switchWaitTimeout =>
    obtain rfl := Option.some.inj h
    exact .handleSwitchWaitTimeout s
  | shapeChanged client =>
    simp only [handle, handleShapeChanged] at h
    split at h
    · obtain rfl := Option.some.inj h
      exact .calm (.refl s)
    split at h
    · obtain rfl := Option.some.inj h
      exact .calm (takeCursorPos_calm s client)
    split at h
    · exact .after (takeCursorPos_calm s client) (.onMouseMovePrimary h)
    · exact .after (takeCursorPos_calm s client) (.onMouseMoveSecondary h)
  | clipboardGrabbed client id sequenceNumber => exact absurd rfl (hgrabbed client id sequenceNumber)
  | clipboardChanged client id sequenceNumber => exact absurd rfl (hchanged client id sequenceNumber)
  | keyDown info | keyUp info =>
    obtain rfl := Option.some.inj h
    exact .calm (relayKey_calm s _ ⟨rfl, rfl⟩)
  | keyRepeat info | buttonDown button | buttonUp button | wheel xDelta yDelta =>
    obtain rfl := Option.some.inj h
    exact .calm (call_calm s _ ⟨rfl, rfl⟩)
  | _ => exact hq.elim

end Server
end Synergy
