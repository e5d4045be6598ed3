import Synergy.Server.SwitchMoves

/-! How an event that neither connects nor disconnects anyone moves the focus: to
clients that are listed, and with waits for what the tests at the edges found. -/
namespace Synergy
open Synergy.Lib

/-- What a wait is for that a test starts among those made on a motion. -/
def Motion.Aims (e : Platform) (m : Motion) (p : Option BaseClientProxy × Int × Int) : Prop :=
  ∃ t ∈ m.tests, t.before.AimedAt e t.newScreen t.dir t.x t.y p

namespace Server
variable {e : Platform} {s t u : Server} {dst : BaseClientProxy → Prop} {aim : Option BaseClientProxy × Int × Int → Prop}

private theorem getNeighbor_connected {fuel : Nat} {src d : BaseClientProxy} {dir : Direction} {p p' : Int × Int}
    (h : s.getNeighbor e fuel src dir p = some (some d, p')) : s.Connected d := by
  obtain ⟨n, hn, hr⟩ := Option.map_eq_some_iff.mp h
  cases n with
  | none => cases hr
  | some n =>
    obtain rfl : n.1 = d := Option.some.inj (Prod.mk.inj hr).1
    exact (neighborLoop_some hn).1

private theorem mapLoop_connected {fuel steps : Nat} {side : Direction} {first d : BaseClientProxy} {last : Shape}
    {p q : Int × Int} (hfirst : s.Connected first) (h : s.mapLoop e fuel side steps first last p = some (d, q)) :
    s.Connected d := by
  induction steps generalizing first last p with
  | zero => cases h
  | succ steps ih =>
    rw [mapLoop] at h
    split at h
    · exact (Prod.mk.inj (Option.some.inj h)).1 ▸ hfirst
    · split at h
      · cases h
      · exact (Prod.mk.inj (Option.some.inj h)).1 ▸ hfirst
      · rename_i hn
        exact ih (getNeighbor_connected hn) h

/-- A destination is a connected client. -/
theorem mapToNeighbor_connected {fuel : Nat} {src d : BaseClientProxy} {side : Direction} {p q : Int × Int}
    (h : s.mapToNeighbor e fuel src side p = some (some d, q)) : s.Connected d := by
  unfold mapToNeighbor at h
  split at h
  · cases h
  · cases (Prod.mk.inj (Option.some.inj h)).1
  · rename_i hn
    obtain ⟨⟨d', q'⟩, hloop, hr⟩ := Option.map_eq_some_iff.mp h
    obtain rfl : d' = d := Option.some.inj (Prod.mk.inj hr).1
    exact mapLoop_connected (getNeighbor_connected hn) hloop

theorem perform_moves (w : CursorSwitch) : Moves (· = w.dst) aim w.state (w.perform e) := switchScreen_moves _ _ _ _ _

/-- A test at an edge aims at the neighbor that it was made for. -/
private theorem testEdge_moves {fuel : Nat} {dir : Direction} {newScreen : Option BaseClientProxy} {x y : Int}
    {p : Int × Int} (h : s.mapToNeighbor e fuel s.active dir p = some (newScreen, x, y)) (t : Server) (xActive yActive : Int) :
    Moves s.Connected (t.AimedAt e newScreen dir x y) t (t.testEdge e dir newScreen x y xActive yActive).after :=
  (isSwitchOkay_moves t newScreen dir x y xActive yActive).imp
    (fun _ hc => mapToNeighbor_connected (hc ▸ h)) fun _ => id

private theorem tryEdges_moves {fuel : Nat} {xActive yActive : Int} {edges : List (Direction × Int × Int)} {m : Motion}
    (h : tryEdges e fuel xActive yActive s edges = some m) : Moves s.Connected (m.Aims e) s m.server := by
  induction edges generalizing s m with
  | nil =>
    obtain rfl := Option.some.inj h
    exact .refl s
  | cons edge rest ih =>
    obtain ⟨dir, p⟩ := edge
    rw [tryEdges] at h
    split at h
    · cases h
    · rename_i newScreen x y hn
      have hafter := testEdge_moves hn s xActive yActive
      dsimp only at h
      split at h
      · obtain rfl := Option.some.inj h
        refine (hafter.imp (fun _ => id) fun p hp => ⟨_, List.mem_singleton_self _, hp⟩).trans ?_
        refine (perform_moves ⟨_, _, x, y⟩).imp (fun c hc => ?_) fun _ => id
        exact hc ▸ mapToNeighbor_connected hn
      · obtain ⟨m', hm', rfl⟩ := Option.map_eq_some_iff.mp h
        refine (hafter.imp (fun _ => id) fun p hp => ⟨_, List.mem_cons_self, hp⟩).trans ?_
        refine (ih hm').imp (fun c hc => (hafter.connected c).mp hc) ?_
        rintro p ⟨t, ht, hp⟩
        exact ⟨t, List.mem_cons_of_mem _ ht, hp⟩

theorem recordMotion_moves (s : Server) (x y dx dy : Int) : Moves dst aim s (s.recordMotion x y dx dy) :=
  .of_still rfl

theorem leaveBorder_moves (s : Server) : Moves dst aim s (s.leaveBorder e) := .ite (noSwitch_moves _ _ _ _) (.refl s)

theorem onMouseMovePrimary_moves {fuel : Nat} {x y : Int} {m : Motion} (h : s.onMouseMovePrimary e fuel x y = some m) :
    Moves s.Connected (m.Aims e) s m.server := by
  unfold onMouseMovePrimary at h
  split at h
  · obtain rfl := Option.some.inj h
    exact .refl s
  · dsimp only at h
    split at h
    · obtain rfl := Option.some.inj h
      exact (recordMotion_moves s x y _ _).trans (noSwitch_moves _ _ _ _)
    · exact (recordMotion_moves s x y _ _).trans (tryEdges_moves h)

private theorem crossSide_moves {fuel : Nat} {xOld yOld dx dy : Int} {dir : Direction} {m : Motion}
    (h : s.crossSide e fuel xOld yOld dx dy dir = some m) : Moves s.Connected (m.Aims e) s m.server := by
  unfold crossSide at h
  split at h
  · cases h
  · rename_i newScreen x y hn
    have hstart : Moves s.Connected (m.Aims e) s (s.moveTo x y) := .of_still rfl
    have hafter := testEdge_moves hn (s.moveTo x y) (clampToBorder s.x (e.shape s.active).x (e.shape s.active).w 0)
      (clampToBorder s.y (e.shape s.active).y (e.shape s.active).h 0)
    dsimp only at h
    split at h
    · obtain rfl := Option.some.inj h
      refine hstart.trans ((hafter.imp (fun _ => id) fun p hp => ⟨_, List.mem_singleton_self _, hp⟩).trans ?_)
      refine (perform_moves ⟨_, _, x, y⟩).imp_dst fun c hc => ?_
      exact hc ▸ mapToNeighbor_connected hn
    · obtain rfl := Option.some.inj h
      refine hstart.trans ((hafter.imp (fun _ => id) fun p hp => ⟨_, List.mem_singleton_self _, hp⟩).trans ?_)
      exact clampMove_moves _ _ _ _ _ _

theorem onMouseMoveSecondary_moves {fuel : Nat} {dx dy : Int} {m : Motion}
    (h : s.onMouseMoveSecondary e fuel dx dy = some m) : Moves s.Connected (m.Aims e) s m.server := by
  unfold onMouseMoveSecondary at h
  dsimp only at h
  split at h
  · obtain rfl := Option.some.inj h
    exact .refl s
  split at h
  · obtain rfl := Option.some.inj h
    exact call_moves _ _ _ _
  split at h
  · obtain rfl := Option.some.inj h
    exact ((recordMotion_moves s _ _ _ _).trans (leaveBorder_moves _)).trans (clampMove_moves _ _ _ _ _ _)
  · exact (recordMotion_moves s _ _ _ _).trans (crossSide_moves h)

theorem handleSwitchWaitTimeout_moves (s : Server) : Moves s.Connected aim s (s.handleSwitchWaitTimeout e).server := by
  unfold handleSwitchWaitTimeout
  split
  · exact stopSwitchWait_moves _ s
  · rename_i d hd
    split
    · exact stopSwitch_moves _ s
    · have hgo : Moves (· = d) aim s (s.switchScreen e d s.switchWaitX s.switchWaitY false) :=
        perform_moves ⟨s, d, s.switchWaitX, s.switchWaitY⟩
      -- the destination is the pending screen already
      refine ⟨hgo.toSameTable, fun c hc => .inl ?_, hgo.wait⟩
      rcases hgo.points c hc with hp | hp
      · exact hp
      · exact .inr (.inr (hp ▸ hd))

private theorem saveForScreensaver_moves (s : Server) : Moves (· = s.primaryClient) aim s (s.saveForScreensaver e) := by
  have hsave : Moves (· = s.primaryClient) aim s { s with activeSaver := some s.active, xSaver := s.x, ySaver := s.y } := by
    refine ⟨⟨rfl, ⟨_, rfl⟩, rfl, rfl, rfl, fun _ => .inl rfl⟩, fun c hc => .inl ?_, .of_eq rfl rfl rfl⟩
    rcases hc with hc | hc | hc
    · exact .inl hc
    · exact .inl (Option.some.inj hc)
    · exact .inr (.inr hc)
  exact hsave.trans (.ite (switchScreen_moves _ _ _ _ _) (.refl _))

private theorem returnToScreen_moves (s : Server) (screen : BaseClientProxy) :
    Moves (· = screen) aim s (s.returnToScreen e screen) := by
  unfold returnToScreen
  refine Moves.trans ?_ (switchScreen_moves _ screen _ _ false)
  exact .of_still rfl

private theorem returnFromScreensaver_moves (s : Server) : Moves dst aim s (s.returnFromScreensaver e) := by
  unfold returnFromScreensaver
  split
  · exact .refl s
  · rename_i screen hsaver
    refine .ite (.refl s) ?_
    have hback : Moves (· = screen) aim s (s.returnToScreen e screen) := returnToScreen_moves s screen
    -- the destination is the saved screen already
    refine ⟨hback.toSameTable, fun c hc => .inl ?_, hback.wait⟩
    exact (hback.points c hc).elim id fun hp => .inr (.inl (hp ▸ hsaver))

theorem onScreensaver_moves (s : Server) (activated : Bool) :
    Moves (· = s.primaryClient) aim s (s.onScreensaver e activated) := by
  unfold onScreensaver
  refine Moves.trans (.ite (saveForScreensaver_moves s) ?_) (callEach_moves _ _ _)
  refine (returnFromScreensaver_moves s).trans
    ⟨⟨rfl, ⟨_, rfl⟩, rfl, rfl, rfl, fun _ => .inl rfl⟩, fun c hc => .inl ?_, .of_eq rfl rfl rfl⟩
  rcases hc with hc | hc | hc
  · exact .inl hc
  · cases hc
  · exact .inr (.inr hc)

theorem assignClipboard_moves (s : Server) {grabber : BaseClientProxy} (h : grabber ∈ s.clientSet)
    (id : ClipboardID) (sequenceNumber : UInt32) : Moves dst aim s (s.assignClipboard grabber id sequenceNumber) := by
  refine ⟨⟨rfl, ⟨_, rfl⟩, rfl, rfl, rfl, fun j => ?_⟩, fun _ => .inl, .of_eq rfl rfl rfl⟩
  dsimp only [assignClipboard]
  by_cases hj : j = id
  · subst hj
    exact .inr ⟨grabber, h, by rw [Function.update_self]⟩
  · exact .inl (by rw [Function.update_of_ne hj])

theorem handleClipboardGrabbed_moves (s : Server) (grabber : BaseClientProxy) (id : ClipboardID)
    (sequenceNumber : UInt32) : Moves dst aim s (s.handleClipboardGrabbed e grabber id sequenceNumber) := by
  unfold handleClipboardGrabbed
  dsimp only
  refine .ite (.refl s) ?_
  split
  · exact .refl s
  · rename_i hin
    refine .ite (.refl s) ?_
    refine Moves.trans (Moves.trans ?_ (callEach_moves _ _ _)) (.ite (onClipboardChanged_moves _ _ _ _ _) (.refl _))
    exact assignClipboard_moves s (not_not.mp hin) id sequenceNumber

theorem takeCursorPos_moves (s : Server) (client : BaseClientProxy) : Moves dst aim s (s.takeCursorPos e client) := by
  unfold takeCursorPos
  refine Moves.trans ?_ (.ite ?_ (.refl _))
  · exact .of_still rfl
  · exact .of_still rfl

end Server

/-- Events that neither connect nor disconnect anyone. -/
def ServerEvent.Quiet : ServerEvent → Prop
  | .adoptClient _ | .clientDisconnected _ | .clientCloseTimeout _ | .reloadConfig _ | .disconnect => False
  | _ => True

namespace Server
variable {e : Platform} {s : Server}

/-- A quiet event moves the focus among the clients that are listed. -/
theorem handle_moves {fuel : Nat} {ev : ServerEvent} {m : Motion} (hq : ev.Quiet) (h : s.handle e fuel ev = some m) :
    Moves (fun c => s.Connected c ∨ c = s.primaryClient) (m.Aims e) s m.server := by
  have hconnected : ∀ {t}, Moves s.Connected (m.Aims e) s t → Moves (fun c => s.Connected c ∨ c = s.primaryClient) (m.Aims e) s t :=
    fun hm => hm.imp_dst fun _ => .inl
  cases ev with
  | screensaver activated =>
    obtain rfl := Option.some.inj h
    exact (onScreensaver_moves s activated).imp_dst fun _ => .inr
  | switchToScreen screen =>
    obtain rfl := Option.some.inj h
    simp only [stay, handleSwitchToScreenEvent]
    split
    · exact .refl s
    · rename_i client hc
      exact (jumpToScreen_moves s client).imp_dst fun c (hcd : c = client) => .inl ⟨screen, hcd ▸ hc⟩
  | switchInDirection direction =>
    obtain ⟨t, ht, rfl⟩ := Option.map_eq_some_iff.mp h
    simp only [handleSwitchInDirectionEvent] at ht
    split at ht
    · cases ht
    · obtain rfl := Option.some.inj ht
      exact .refl s
    · rename_i newScreen _ hn
      obtain rfl := Option.some.inj ht
      exact (jumpToScreen_moves s newScreen).imp_dst fun c (hcd : c = newScreen) => .inl (hcd ▸ getNeighbor_connected hn)
  | toggleScreen =>
    obtain rfl := Option.some.inj h
    simp only [stay, handleToggleScreenEvent]
    split
    · exact .refl s
    · split
      · exact .refl s
      · rename_i client hc
        obtain ⟨name, -, hname⟩ := Option.bind_eq_some_iff.mp hc
        exact (jumpToScreen_moves s client).imp_dst fun c (hcd : c = client) => .inl ⟨name, hcd ▸ hname⟩
  | keyboardBroadcast mode screens =>
    obtain rfl := Option.some.inj h
    exact .of_still rfl
  | lockCursorToScreen mode =>
    obtain rfl := Option.some.inj h
    simp only [stay, handleLockCursorToScreenEvent]
    refine .ite (.refl s) (Moves.trans ?_ (.ite (stopRelativeMoves_moves _ _) (.refl _)))
    refine Moves.trans ?_ (reconfigure_moves _ _)
    exact .of_still rfl
  | motionPrimary x y => exact hconnected (onMouseMovePrimary_moves h)
  | motionSecondary dx dy => exact hconnected (onMouseMoveSecondary_moves h)
  | switchWaitTimeout =>
    obtain rfl := Option.some.inj h
    exact hconnected (handleSwitchWaitTimeout_moves s)
  | shapeChanged client =>
    have hstart : Moves s.Connected (m.Aims e) s (s.takeCursorPos e client) := takeCursorPos_moves s client
    simp only [handle, handleShapeChanged] at h
    split at h
    · obtain rfl := Option.some.inj h
      exact .refl s
    split at h
    · obtain rfl := Option.some.inj h
      exact hconnected hstart
    split at h
    · exact hconnected (hstart.trans ((onMouseMovePrimary_moves h).imp_dst fun c hc => (hstart.connected c).mp hc))
    · exact hconnected (hstart.trans ((onMouseMoveSecondary_moves h).imp_dst fun c hc => (hstart.connected c).mp hc))
  | clipboardGrabbed client id sequenceNumber =>
    obtain rfl := Option.some.inj h
    exact hconnected (handleClipboardGrabbed_moves s client id sequenceNumber)
  | clipboardChanged client id sequenceNumber =>
    obtain rfl := Option.some.inj h
    exact .ite (.refl s) (onClipboardChanged_moves _ s _ _ _)
  | keyDown info | keyUp info =>
    obtain rfl := Option.some.inj h
    exact .ite (call_moves _ s _ _) (.of_still rfl)
  | keyRepeat info | buttonDown button | buttonUp button | wheel xDelta yDelta =>
    obtain rfl := Option.some.inj h
    exact call_moves _ s _ _
  | _ => exact hq.elim

end Server
end Synergy
