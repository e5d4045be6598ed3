import Synergy.Server.SwitchGuards

/-! A switch away from the primary screen that the screen refuses: what is changed by then. -/
namespace Synergy
open Synergy.Lib

namespace Screen

/-- `Screen::leave`: whether the screen is left, and whether the cursor is on it afterwards. -/
def leave (canLeave entered : Bool) : Bool × Bool := if !canLeave then (false, entered) else (true, false)

/-- `takeDraggingPaths`: the paths, and what the drop target holds afterwards. There may be no drop target. While
the left button is held the drop window is offered, and what it is then given replaces what it holds. -/
def takeDraggingPaths (buttonLeft : Bool) (offered : Option (List Str)) :
    Option (List Str) → List Str × Option (List Str)
  | none => ([], none)
  | some draggingPaths => (if buttonLeft then offered.getD draggingPaths else draggingPaths, some [])

end Screen

/-- A server with what its own screen knows of the cursor and of the files that are dragged. -/
structure Desk where
  server : Server
  entered : Bool
  dropTarget : Option (List Str)

/-- A call of `switchScreen`. -/
structure SwitchCall where
  state : Server
  dst : BaseClientProxy
  x : Int
  y : Int
  forScreensaver : Bool

namespace SwitchCall

def ofCursor (w : CursorSwitch) : SwitchCall := ⟨w.state, w.dst, w.x, w.y, false⟩

def perform (e : Platform) (w : SwitchCall) : Server := w.state.switchScreen e w.dst w.x w.y w.forScreensaver

end SwitchCall

/-- The events that `onMouseMovePrimary` is called for. -/
def ServerEvent.isMotion : ServerEvent → Bool
  | .motionPrimary _ _ => true
  | .shapeChanged _ => true
  | _ => false

namespace Server
variable (e : Platform) (fuel : Nat) (s : Server)

/-- The call that a jump makes. -/
def jumpCall (newScreen : BaseClientProxy) : SwitchCall :=
  let s := { s with jumpCursorPos := Function.update s.jumpCursorPos s.active (s.x, s.y) }
  ⟨s, newScreen, (s.jumpCursorPos newScreen).1, (s.jumpCursorPos newScreen).2, false⟩

/-- The call that the end of the screen saver makes. -/
def returnCall (screen : BaseClientProxy) : SwitchCall :=
  let a := e.shape screen
  let zoneSize := s.getJumpZoneSize e screen
  let s := { s with
    xSaver := clampToZone s.xSaver a.x a.w zoneSize, ySaver := clampToZone s.ySaver a.y a.h zoneSize }
  ⟨s, screen, s.xSaver, s.ySaver, false⟩

/-- The screen that is toggled to. -/
def toggleScreen : Option BaseClientProxy :=
  if s.clients.keys.length < 2 then none
  else (nextName s.clients.keys (s.getName s.active)).bind s.clients.get?

/-- The call of `switchScreen` that handling an event makes while the cursor is on the primary screen. -/
def switchCall : ServerEvent → Option SwitchCall
  | .motionPrimary x y => (s.onMouseMovePrimary e fuel x y).bind fun m => m.switch.map .ofCursor
  | .shapeChanged client => (s.handleShapeChanged e fuel client).bind fun m => m.switch.map .ofCursor
  | .switchWaitTimeout => (s.handleSwitchWaitTimeout e).switch.map .ofCursor
  | .switchToScreen screen => (s.clients.get? screen).map s.jumpCall
  | .switchInDirection direction =>
    ((s.getNeighbor e fuel s.active direction (s.x, s.y)).bind Prod.fst).map s.jumpCall
  | .toggleScreen => s.toggleScreen.map s.jumpCall
  | .screensaver false => (s.activeSaver.filter (· ≠ s.primaryClient)).map (s.returnCall e)
  | _ => none

/-- What is done after the call. -/
def afterCall (ev : ServerEvent) (s : Server) : Server :=
  match ev with
  | .screensaver activated => { s with activeSaver := none }.callEach fun _ => .screensaver activated
  | _ => s

/-- Whether `onMouseMovePrimary` is called and returns that it has switched. -/
def reportsSwitch (ev : ServerEvent) : Bool := ev.isMotion && ((s.handle e fuel ev).bind Motion.switch).isSome

end Server

namespace Desk
variable (e : Platform) (buttonLeft : Bool) (offered : Option (List Str)) (d : Desk)

/-- The call, with what it does to the screen of the server. -/
def switchScreen (w : SwitchCall) : Desk :=
  if w.state.active = w.dst then { d with server := w.perform e }
  else if w.state.active = w.state.primaryClient then
    let taken := Screen.takeDraggingPaths buttonLeft offered d.dropTarget
    ⟨w.perform { e with draggingPaths := taken.1 }, (Screen.leave e.leaves d.entered).2, taken.2⟩
  else { d with server := w.perform e, entered := d.entered || w.dst = w.state.primaryClient }

end Desk

namespace Server
variable {e : Platform} {fuel : Nat} {s : Server}

private theorem tryEdges_switch {xActive yActive : Int} {edges : List (Direction × Int × Int)} {m : Motion}
    {w : CursorSwitch} (h : tryEdges e fuel xActive yActive s edges = some m) (hw : m.switch = some w) :
    m.server = w.perform e := by
  induction edges generalizing s m with
  | nil =>
    obtain rfl := Option.some.inj h
    cases hw
  | cons edge rest ih =>
    rw [tryEdges] at h
    split at h
    · cases h
    · dsimp only at h
      split at h
      · obtain rfl := Option.some.inj h
        obtain rfl := Option.some.inj hw
        rfl
      · obtain ⟨m', hm', rfl⟩ := Option.map_eq_some_iff.mp h
        have hserver : m'.server = w.perform e := ih hm' hw
        exact hserver

private theorem onMouseMovePrimary_switch {x y : Int} {m : Motion} {w : CursorSwitch}
    (h : s.onMouseMovePrimary e fuel x y = some m) (hw : m.switch = some w) : m.server = w.perform e := by
  unfold onMouseMovePrimary at h
  split at h
  · obtain rfl := Option.some.inj h
    cases hw
  · dsimp only at h
    split at h
    · obtain rfl := Option.some.inj h
      cases hw
    · exact tryEdges_switch h hw

private theorem handleShapeChanged_switch {client : BaseClientProxy} {m : Motion} {w : CursorSwitch}
    (hactive : s.active = s.primaryClient) (h : s.handleShapeChanged e fuel client = some m)
    (hw : m.switch = some w) : m.server = w.perform e := by
  have htaken : (s.takeCursorPos e client).active = (s.takeCursorPos e client).primaryClient := by
    unfold takeCursorPos
    dsimp only
    split_ifs <;> exact hactive
  unfold handleShapeChanged at h
  dsimp only at h
  split at h
  · obtain rfl := Option.some.inj h
    cases hw
  · split at h
    · obtain rfl := Option.some.inj h
      cases hw
    · rename_i hprimary
      rw [if_pos ((not_ne_iff.mp hprimary).trans htaken.symm)] at h
      exact onMouseMovePrimary_switch h hw

/-- An event whose handling makes a call is handled by the call and by what is done after it. -/
theorem handle_performs {ev : ServerEvent} {w : SwitchCall} (hactive : s.active = s.primaryClient)
    (hcall : s.switchCall e fuel ev = some w) :
    ∃ m, s.handle e fuel ev = some m ∧ m.server = afterCall ev (w.perform e) := by
  cases ev <;> simp only [switchCall, reduceCtorEq] at hcall
  case motionPrimary x y =>
    obtain ⟨m, hm, hw⟩ := Option.bind_eq_some_iff.mp hcall
    obtain ⟨w', hw', rfl⟩ := Option.map_eq_some_iff.mp hw
    exact ⟨m, hm, onMouseMovePrimary_switch hm hw'⟩
  case shapeChanged client =>
    obtain ⟨m, hm, hw⟩ := Option.bind_eq_some_iff.mp hcall
    obtain ⟨w', hw', rfl⟩ := Option.map_eq_some_iff.mp hw
    exact ⟨m, hm, handleShapeChanged_switch hactive hm hw'⟩
  case switchWaitTimeout =>
    obtain ⟨w', hw', rfl⟩ := Option.map_eq_some_iff.mp hcall
    refine ⟨_, rfl, ?_⟩
    unfold handleSwitchWaitTimeout at hw' ⊢
    cases hscreen : s.mSwitchScreen with
    | none => simp [hscreen, stay] at hw'
    | some dst =>
      simp only [hscreen] at hw' ⊢
      split_ifs at hw' ⊢
      · cases hw'
      · obtain rfl := Option.some.inj hw'
        rfl
  case switchToScreen screen =>
    obtain ⟨client, hclient, rfl⟩ := Option.map_eq_some_iff.mp hcall
    refine ⟨_, rfl, ?_⟩
    unfold handleSwitchToScreenEvent
    rw [hclient]
    rfl
  case switchInDirection direction =>
    obtain ⟨client, hclient, rfl⟩ := Option.map_eq_some_iff.mp hcall
    obtain ⟨⟨found, p⟩, hfound, hsome⟩ := Option.bind_eq_some_iff.mp hclient
    obtain rfl : found = some client := hsome
    have hhandled : s.handleSwitchInDirectionEvent e fuel direction = some (s.jumpToScreen e client) := by
      unfold handleSwitchInDirectionEvent
      rw [hfound]
    exact ⟨_, by rw [handle, hhandled]; rfl, rfl⟩
  case toggleScreen =>
    obtain ⟨client, hclient, rfl⟩ := Option.map_eq_some_iff.mp hcall
    refine ⟨_, rfl, ?_⟩
    unfold Server.toggleScreen at hclient
    unfold handleToggleScreenEvent
    split_ifs at hclient with hfew
    dsimp only
    rw [if_neg hfew, hclient]
    rfl
  case screensaver activated =>
    cases activated with
    | true => cases hcall
    | false =>
      obtain ⟨screen, hscreen, rfl⟩ := Option.map_eq_some_iff.mp hcall
      obtain ⟨hsaver, hne⟩ := Option.filter_eq_some_iff.mp hscreen
      have hreturn : s.returnFromScreensaver e = (s.returnCall e screen).perform e := by
        unfold returnFromScreensaver
        rw [hsaver]
        exact if_neg (by simpa using hne)
      refine ⟨_, rfl, ?_⟩
      simp only [stay, onScreensaver, hreturn]
      rfl

/-- The call is made in the state of the event, but for what jumps and screen savers remember. -/
private theorem switchCall_state {ev : ServerEvent} {w : SwitchCall} (hmotion : ev.isMotion = false)
    (hcall : s.switchCall e fuel ev = some w) : ∃ jumpCursorPos xSaver ySaver,
      w.state = { s with jumpCursorPos := jumpCursorPos, xSaver := xSaver, ySaver := ySaver } := by
  cases ev <;> simp only [switchCall, reduceCtorEq] at hcall
  case motionPrimary x y => cases hmotion
  case shapeChanged client => cases hmotion
  case switchWaitTimeout =>
    obtain ⟨w', hw', rfl⟩ := Option.map_eq_some_iff.mp hcall
    rw [handleSwitchWaitTimeout_switch] at hw'
    split_ifs at hw'
    obtain ⟨dst, -, rfl⟩ := Option.map_eq_some_iff.mp hw'
    exact ⟨_, _, _, rfl⟩
  case switchToScreen screen =>
    obtain ⟨client, -, rfl⟩ := Option.map_eq_some_iff.mp hcall
    exact ⟨_, _, _, rfl⟩
  case switchInDirection direction =>
    obtain ⟨client, -, rfl⟩ := Option.map_eq_some_iff.mp hcall
    exact ⟨_, _, _, rfl⟩
  case toggleScreen =>
    obtain ⟨client, -, rfl⟩ := Option.map_eq_some_iff.mp hcall
    exact ⟨_, _, _, rfl⟩
  case screensaver activated =>
    cases activated with
    | true => cases hcall
    | false =>
      obtain ⟨screen, -, rfl⟩ := Option.map_eq_some_iff.mp hcall
      exact ⟨_, _, _, rfl⟩

/-- A motion that makes the call is reported as a switch. -/
private theorem reportsSwitch_motion {ev : ServerEvent} {w : SwitchCall} (hmotion : ev.isMotion = true)
    (hcall : s.switchCall e fuel ev = some w) : s.reportsSwitch e fuel ev = true := by
  unfold reportsSwitch
  rw [hmotion, Bool.true_and]
  cases ev <;> simp only [ServerEvent.isMotion, Bool.false_eq_true] at hmotion
  case motionPrimary x y =>
    obtain ⟨m, hm, hw⟩ := Option.bind_eq_some_iff.mp hcall
    obtain ⟨w', hw', -⟩ := Option.map_eq_some_iff.mp hw
    rw [handle, hm, Option.bind_some, hw']
    rfl
  case shapeChanged client =>
    obtain ⟨m, hm, hw⟩ := Option.bind_eq_some_iff.mp hcall
    obtain ⟨w', hw', -⟩ := Option.map_eq_some_iff.mp hw
    rw [handle, hm, Option.bind_some, hw']
    rfl

/-- What the server has sent to the clients, other than its own screen. -/
def sent (s : Server) : List (BaseClientProxy × Call) := s.calls.filter fun call => call.1 ≠ s.primaryClient

/-- Only a pending switch has been cancelled. -/
structure Kept (s t : Server) : Prop where
  active : t.active = s.active
  position : (t.x, t.y) = (s.x, s.y)
  deltas : (t.xDelta, t.yDelta, t.xDelta2, t.yDelta2) = (s.xDelta, s.yDelta, s.xDelta2, s.yDelta2)
  seqNum : t.seqNum = s.seqNum
  clipboards : t.clipboards = s.clipboards
  sent : t.sent = s.sent

/-- No motion is remembered. -/
def Still (s : Server) : Prop := s.xDelta = 0 ∧ s.yDelta = 0 ∧ s.xDelta2 = 0 ∧ s.yDelta2 = 0

private theorem stopSwitch_kept (s : Server) : Kept s s.stopSwitch ∧ s.stopSwitch.primaryClient = s.primaryClient := by
  unfold stopSwitch
  cases s.mSwitchScreen with
  | none => exact ⟨⟨rfl, rfl, rfl, rfl, rfl, rfl⟩, rfl⟩
  | some dst => exact ⟨⟨rfl, rfl, rfl, rfl, rfl, rfl⟩, rfl⟩

/-- A refused switch has moved the cursor to where it would have been, and no more. -/
theorem switchScreen_refused {dst : BaseClientProxy} (x y : Int) (forScreensaver : Bool)
    (hactive : s.active = s.primaryClient) (hdst : dst ≠ s.primaryClient) (hrefused : e.leaves = false) :
    s.switchScreen e dst x y forScreensaver =
      { s.stopSwitch with x := x, y := y, xDelta := 0, yDelta := 0, xDelta2 := 0, yDelta2 := 0 }.call
        s.primaryClient (.leave false) := by
  obtain ⟨hkept, hprimary⟩ := stopSwitch_kept s
  have hleft : s.stopSwitch.active = s.stopSwitch.primaryClient := by rw [hkept.active, hprimary, hactive]
  unfold switchScreen
  dsimp only
  rw [if_neg (by rw [hkept.active, hactive]; exact hdst.symm)]
  unfold leaves
  dsimp only
  rw [if_pos hleft, hrefused, hleft, hprimary]
  rfl

theorem refused_kept_iff {dst : BaseClientProxy} (x y : Int) (forScreensaver : Bool)
    (hactive : s.active = s.primaryClient) (hdst : dst ≠ s.primaryClient) (hrefused : e.leaves = false) :
    Kept s (s.switchScreen e dst x y forScreensaver) ↔ (x, y) = (s.x, s.y) ∧ s.Still := by
  obtain ⟨hkept, hprimary⟩ := stopSwitch_kept s
  rw [switchScreen_refused x y forScreensaver hactive hdst hrefused]
  constructor
  · rintro ⟨-, hposition, hdeltas, -, -, -⟩
    simp only [Prod.mk.injEq, call] at hposition hdeltas
    obtain ⟨hx, hy, hx2, hy2⟩ := hdeltas
    exact ⟨Prod.ext hposition.1 hposition.2, hx.symm, hy.symm, hx2.symm, hy2.symm⟩
  · rintro ⟨hposition, hx, hy, hx2, hy2⟩
    refine ⟨hkept.active, hposition, ?_, hkept.seqNum, hkept.clipboards, ?_⟩
    · simp only [call, hx, hy, hx2, hy2]
    · have hcalls := hkept.sent
      unfold Server.sent at hcalls ⊢
      unfold call
      dsimp only
      rw [hprimary] at hcalls ⊢
      rw [List.filter_append, hcalls]
      simp

end Server

namespace Desk
variable {e : Platform} {fuel : Nat}

/-- The files that are being dragged, as the drop target holds them. -/
def dragged (d : Desk) : List Str := d.dropTarget.getD []

/-- A switch that the primary screen refuses changes nothing if and only if no motion of the cursor asks for it, it
is to lead to the position that the cursor has, no motion is remembered and no files are dragged. -/
theorem refused_switch_iff (buttonLeft : Bool) (offered : Option (List Str)) (d : Desk) {ev : ServerEvent}
    {w : SwitchCall} (hactive : d.server.active = d.server.primaryClient) (hcall : d.server.switchCall e fuel ev =
        some w)
    (hdst : w.dst ≠ d.server.primaryClient) (hrefused : e.leaves = false) :
    (w.state.Kept (d.switchScreen e buttonLeft offered w).server ∧
        (d.switchScreen e buttonLeft offered w).dragged = d.dragged ∧
        (d.switchScreen e buttonLeft offered w).entered = d.entered ∧ d.server.reportsSwitch e fuel ev = false) ↔
      ev.isMotion = false ∧ (w.x, w.y) = (d.server.x, d.server.y) ∧ d.server.Still ∧ d.dragged = [] := by
  by_cases hmotion : ev.isMotion = true
  · rw [Server.reportsSwitch_motion hmotion hcall, hmotion]
    simp
  · have hquiet : ev.isMotion = false := by simpa using hmotion
    obtain ⟨jumpCursorPos, xSaver, ySaver, hstate⟩ := Server.switchCall_state hquiet hcall
    have hreports : d.server.reportsSwitch e fuel ev = false := by
      unfold Server.reportsSwitch
      rw [hquiet, Bool.false_and]
    have hleft : w.state.active = w.state.primaryClient := by
      rw [hstate]
      exact hactive
    have hother : w.dst ≠ w.state.primaryClient := by
      rw [hstate]
      exact hdst
    have hstill : w.state.Still ↔ d.server.Still := by
      rw [hstate]
      rfl
    have hposition : (w.state.x, w.state.y) = (d.server.x, d.server.y) := by rw [hstate]
    have hkept : w.state.Kept (d.switchScreen e buttonLeft offered w).server ↔
        (w.x, w.y) = (d.server.x, d.server.y) ∧ d.server.Still := by
      unfold switchScreen
      rw [if_neg (by rw [hleft]; exact hother.symm), if_pos hleft, ← hposition, ← hstill]
      exact Server.refused_kept_iff w.x w.y w.forScreensaver hleft hother hrefused
    have hentered : (d.switchScreen e buttonLeft offered w).entered = d.entered := by
      unfold switchScreen
      rw [if_neg (by rw [hleft]; exact hother.symm), if_pos hleft, hrefused]
      rfl
    have hdragged : (d.switchScreen e buttonLeft offered w).dragged = [] := by
      unfold switchScreen dragged
      rw [if_neg (by rw [hleft]; exact hother.symm), if_pos hleft]
      cases d.dropTarget <;> rfl
    rw [hkept, hdragged, hentered, hreports, hquiet, @eq_comm _ [] d.dragged]
    simp only [and_true, true_and, and_assoc]

private def twoScreens (x y : Int) : Server :=
  { Server.initial .empty ⟨0, ['a']⟩ with
    clients := (SortedMap.empty.insert ['a'] ⟨0, ['a']⟩).insert ['b'] ⟨1, ['b']⟩, x := x, y := y }

private def refusing : Platform := { Platform.still with leaves := false }

theorem refused_switch_iff_corner :
    (((twoScreens 0 0).jumpCall ⟨1, ['b']⟩).state.Kept
        (switchScreen refusing false none ⟨twoScreens 0 0, true, none⟩ ((twoScreens 0 0).jumpCall ⟨1,
            ['b']⟩)).server) := by
  have hcall : (twoScreens 0 0).switchCall refusing 0 (.switchToScreen ['b']) =
      some ((twoScreens 0 0).jumpCall ⟨1, ['b']⟩) := rfl
  exact ((refused_switch_iff false none ⟨twoScreens 0 0, true, none⟩ rfl hcall (by decide) rfl).mpr
    ⟨rfl, rfl, ⟨rfl, rfl, rfl, rfl⟩, rfl⟩).1

/-- A jump that is refused leaves the cursor of the server where the jump was to lead. -/
theorem refused_jump_moves : (twoScreens 10 20).switchCall refusing 0 (.switchToScreen ['b']) =
      some ((twoScreens 10 20).jumpCall ⟨1, ['b']⟩) ∧ refusing.leaves = false ∧
    ¬(((twoScreens 10 20).jumpCall ⟨1, ['b']⟩).state.Kept (switchScreen refusing false none
      ⟨twoScreens 10 20, true, none⟩ ((twoScreens 10 20).jumpCall ⟨1, ['b']⟩)).server) := by
  refine ⟨rfl, rfl, fun h => ?_⟩
  have hposition := h.position
  revert hposition
  decide

end Desk
end Synergy
