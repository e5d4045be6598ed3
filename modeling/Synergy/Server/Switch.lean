import Synergy.Server.Neighbor

/-! Switching from screen to screen: the switch itself, the tests that delay or
refuse it at an edge, and the motions that cause it. -/
namespace Synergy
open Synergy.Lib

def clipboardIds : List ClipboardID := [0, 1]

/-- `IClipboard::exceedsSizeLimit`; a limit of zero is no limit. -/
def exceedsSizeLimit (size maximumSizeKb : Nat) : Bool := 0 < maximumSizeKb && maximumSizeKb * 1024 < size

/-- Rounding to the nearest integer, away from zero at a half. -/
def roundAway (q : ℚ) : Int := if 0 ≤ q then ⌊q + 1 / 2⌋ else ⌈q - 1 / 2⌉

/-- An option value as an unsigned 32-bit mask. -/
def maskOf (value : OptionValue) : Nat := (value % 2 ^ 32).toNat

namespace Server
variable (e : Platform) (fuel : Nat) (s : Server)

def startSwitchTwoTap : Server :=
  { s with switchTwoTapEngaged := true, switchTwoTapArmed := false, switchTwoTapTimer := e.now }

def stopSwitchTwoTap : Server := { s with switchTwoTapEngaged := false, switchTwoTapArmed := false }

def isSwitchTwoTapStarted : Bool := s.switchTwoTapEngaged

/-- Seconds since the first tap. -/
def switchTwoTapTime : ℚ := e.now - s.switchTwoTapTimer

def shouldSwitchTwoTap : Bool := s.switchTwoTapArmed && s.switchTwoTapTime e ≤ s.switchTwoTapDelay

def armSwitchTwoTap (x y : Int) : Server :=
  if !s.switchTwoTapEngaged then s
  else if s.switchTwoTapDelay < s.switchTwoTapTime e then s.stopSwitchTwoTap
  else if s.switchTwoTapArmed then s
  else
    let a := e.shape s.active
    let tapZone := max e.jumpZoneSize switchTwoTapZone
    if a.x + tapZone ≤ x ∧ x < a.x + a.w - tapZone ∧ a.y + tapZone ≤ y ∧ y < a.y + a.h - tapZone then
      match s.switchDir with
      | some .left => { s with switchTwoTapArmed := 0 < s.xDelta && 0 < s.xDelta2 }
      | some .right => { s with switchTwoTapArmed := s.xDelta < 0 && s.xDelta2 < 0 }
      | some .top => { s with switchTwoTapArmed := 0 < s.yDelta && 0 < s.yDelta2 }
      | some .bottom => { s with switchTwoTapArmed := s.yDelta < 0 && s.yDelta2 < 0 }
      | none => s
    else s

def stopSwitchWait : Server := { s with switchWaitTimer := false }

def startSwitchWait (x y : Int) : Server :=
  { s.stopSwitchWait with switchWaitX := x, switchWaitY := y, switchWaitTimer := true }

def isSwitchWaitStarted : Bool := s.switchWaitTimer

def noSwitch (x y : Int) : Server := (s.armSwitchTwoTap e x y).stopSwitchWait

def stopSwitch : Server :=
  match s.mSwitchScreen with
  | none => s
  | some _ => { s with mSwitchScreen := none, switchDir := none }.stopSwitchTwoTap.stopSwitchWait

/-- Take the clipboard over from its owner and hand it to the active screen. -/
def onClipboardChanged (sender : BaseClientProxy) (id : ClipboardID) (seqNum : UInt32) : Server :=
  let clipboard := s.clipboards id
  if seqNum < clipboard.seqNum then s
  else if s.clients.get? clipboard.owner ≠ some sender then s
  else
    let data := e.clipboard sender id
    let s := { s with clipboards := Function.update s.clipboards id { clipboard with clipboard := data } }
    if exceedsSizeLimit data.length s.maximumClipboardSize then s
    else if data = clipboard.data then s
    else
      let s := { s with clipboards := Function.update s.clipboards id { clipboard with clipboard := data, data := data } }
      (s.callEach fun client => .setClipboardDirty id (client ≠ sender)).call s.active (.setClipboard id data)

/-- Offer the dragged files to every client but the primary one. -/
def sendLocalFiles (paths : List Str) : Server :=
  if paths.isEmpty then s
  else { s with calls := s.calls ++ ((s.clients.entries.map Prod.snd).filter (· ≠ s.primaryClient)).map fun client =>
    (client, .sendLocalFiles paths) }

/-- The clipboards that the primary screen owns, as it leaves them. -/
def updateClipboards : Server :=
  clipboardIds.foldl (fun s id =>
    if (s.clipboards id).owner = s.getName s.primaryClient then
      s.onClipboardChanged e s.primaryClient id (s.clipboards id).seqNum
    else s) s

/-- Hand the clipboards that are not too large to the active screen. -/
def sendClipboards : Server :=
  clipboardIds.foldl (fun s id =>
    if s.maximumClipboardSize * 1024 < (s.clipboards id).clipboard.length then s
    else s.call s.active (.setClipboard id (s.clipboards id).clipboard)) s

/-- The active screen has been left: enter the other one. -/
def cutOver (dst : BaseClientProxy) (x y : Int) (forScreensaver : Bool) : Server :=
  let s := { s with active := dst, seqNum := s.seqNum + 1 }
  let s := s.call dst (.enter x y s.seqNum e.toggleMask forScreensaver)
  if s.enableClipboard then s.sendClipboards else s

def switchScreen (dst : BaseClientProxy) (x y : Int) (forScreensaver : Bool) : Server :=
  let s := s.stopSwitch
  let s := { s with x := x, y := y, xDelta := 0, yDelta := 0, xDelta2 := 0, yDelta2 := 0 }
  if s.active = dst then s.call dst (.mouseMove x y)
  else
    let fromPrimary := s.active = s.primaryClient
    let left := s.leaves e s.active
    let s := s.call s.active (.leave left)
    if !left then s
    else
      let s := if fromPrimary then s.sendLocalFiles e.draggingPaths else s
      let s := if fromPrimary ∧ s.enableClipboard then s.updateClipboards e else s
      s.cutOver e dst x y forScreensaver

/-- Remember the position on this screen and go to the last one on the other. -/
def jumpToScreen (newScreen : BaseClientProxy) : Server :=
  let s := { s with jumpCursorPos := Function.update s.jumpCursorPos s.active (s.x, s.y) }
  let p := s.jumpCursorPos newScreen
  s.switchScreen e newScreen p.1 p.2 false

/-- A new direction, or any direction when no switch is pending, picks the screen. -/
def aimSwitch (newScreen : BaseClientProxy) (dir : Direction) : Server :=
  if s.switchDir ≠ some dir ∨ s.mSwitchScreen = none then
    { s with switchDir := some dir, mSwitchScreen := some newScreen }
  else s

/-- The double tap: the new state, whether it allows and whether it prevents the switch. -/
def testTwoTap (isNewDirection : Bool) : Server × Bool × Bool :=
  if 0 < s.switchTwoTapDelay then
    if isNewDirection || !s.isSwitchTwoTapStarted || !s.shouldSwitchTwoTap e then (s.startSwitchTwoTap e, false, true)
    else (s, true, false)
  else (s, false, false)

/-- The wait before a switch, unless a double tap allows it at once. -/
def testWait (isNewDirection allowSwitch preventSwitch : Bool) (x y : Int) : Server × Bool :=
  if !allowSwitch && 0 < s.switchWaitDelay then
    (if isNewDirection || !s.isSwitchWaitStarted then s.startSwitchWait x y else s, true)
  else (s, preventSwitch)

/-- The corners of the active screen, or else the global ones, and their size. -/
def lockedCorners : Option (Nat × Int) :=
  let ofOptions (options : Option ScreenOptions) : Option (Nat × Int) :=
    options.bind fun o => (o.get? kOptionScreenSwitchCorners).map fun corners =>
      (maskOf corners, (o.get? kOptionScreenSwitchCornerSize).getD 0)
  (ofOptions (s.config.getOptions (s.getName s.active))).orElse fun _ => ofOptions (s.config.getOptions [])

def isInLockedCorner (xActive yActive : Int) : Bool :=
  match s.lockedCorners with
  | none => false
  | some (corners, size) => getCorner e s.active xActive yActive size &&& corners ≠ 0

/-- Aim at the screen, then look for a double tap and wait unless there is one. -/
def aimAndWait (newScreen : BaseClientProxy) (dir : Direction) (x y : Int) : Server × Bool :=
  let isNewDirection := decide (s.switchDir ≠ some dir)
  let s := s.aimSwitch newScreen dir
  let r := s.testTwoTap e isNewDirection
  r.1.testWait isNewDirection r.2.1 r.2.2 x y

/-- A test that refuses the switch also forgets it. -/
def refuseIf (refused : Bool) (r : Server × Bool) : Server × Bool := if refused then (r.1.stopSwitch, true) else r

/-- Whether to switch now; options can put the switch off or forbid it. -/
def isSwitchOkay (newScreen : Option BaseClientProxy) (dir : Direction) (x y xActive yActive : Int) : Server × Bool :=
  match newScreen with
  | none => (s.stopSwitch, false)
  | some newScreen =>
    let r := s.aimAndWait e newScreen dir x y
    let r := refuseIf (r.1.isInLockedCorner e xActive yActive) r
    let r := refuseIf (!r.2 && r.1.isLockedToScreen e) r
    let r := refuseIf (!r.2 && !r.1.modifiersHeld e) r
    (r.1, !r.2)

end Server

/-- One test at an edge: the neighbor and the point that `mapToNeighbor` gave, the
verdict, and the states around it. -/
structure EdgeTest where
  before : Server
  dir : Direction
  newScreen : Option BaseClientProxy
  x : Int
  y : Int
  okay : Bool
  after : Server

/-- A switch that the cursor causes, from the state in which it is made. -/
structure CursorSwitch where
  state : Server
  dst : BaseClientProxy
  x : Int
  y : Int

def CursorSwitch.perform (e : Platform) (w : CursorSwitch) : Server := w.state.switchScreen e w.dst w.x w.y false

/-- What handling a motion of the cursor comes to: the new state, the edge tests
made on the way and the switch they led to. -/
structure Motion where
  server : Server
  tests : List EdgeTest
  switch : Option CursorSwitch

namespace Server
variable (e : Platform) (fuel : Nat) (s : Server)

/-- A motion that tests no edge. -/
def stay : Motion := ⟨s, [], none⟩

def testEdge (dir : Direction) (newScreen : Option BaseClientProxy) (x y xActive yActive : Int) : EdgeTest :=
  let r := s.isSwitchOkay e newScreen dir x y xActive yActive
  ⟨s, dir, newScreen, x, y, r.2, r.1⟩

/-- Test the edges in turn and switch over the first one that allows it. -/
def tryEdges (xActive yActive : Int) : Server → List (Direction × Int × Int) → Option Motion
  | s, [] => some s.stay
  | s, (dir, p) :: rest =>
    match s.mapToNeighbor e fuel s.active dir p with
    | none => none
    | some (newScreen, x, y) =>
      let t := s.testEdge e dir newScreen x y xActive yActive
      match t.okay, newScreen with
      | true, some dst =>
        let w : CursorSwitch := ⟨t.after, dst, x, y⟩
        some ⟨w.perform e, [t], some w⟩
      | _, _ => (tryEdges xActive yActive t.after rest).map fun m => { m with tests := t :: m.tests }

/-- Save the deltas and the position. -/
def recordMotion (x y dx dy : Int) : Server :=
  { s with xDelta2 := s.xDelta, yDelta2 := s.yDelta, xDelta := dx, yDelta := dy, x := x, y := y }

/-- A coordinate in the zone at a border, or beyond it, becomes that border. -/
def clampToBorder (v lo size zoneSize : Int) : Int :=
  if v < lo + zoneSize then lo else if v ≥ lo + size - zoneSize then lo + size - 1 else v

/-- The edges of the active screen whose zone the point is in, at most one
horizontal and one vertical, each with the point moved out across it. -/
def edgesAt (x y : Int) : List (Direction × Int × Int) :=
  let a := e.shape s.active
  let zoneSize := s.getJumpZoneSize e s.active
  (if x < a.x + zoneSize then [(.left, x - zoneSize, y)]
    else if x ≥ a.x + a.w - zoneSize then [(.right, x + zoneSize, y)] else []) ++
  (if y < a.y + zoneSize then [(.top, x, y - zoneSize)]
    else if y ≥ a.y + a.h - zoneSize then [(.bottom, x, y + zoneSize)] else [])

def onMouseMovePrimary (x y : Int) : Option Motion :=
  if s.active ≠ s.primaryClient then some s.stay
  else
    let s := s.recordMotion x y (x - s.x) (y - s.y)
    let edges := s.edgesAt e x y
    if edges.isEmpty then some (s.noSwitch e x y).stay
    else
      let a := e.shape s.active
      let zoneSize := s.getJumpZoneSize e s.active
      tryEdges e fuel (clampToBorder x a.x a.w zoneSize) (clampToBorder y a.y a.h zoneSize) s edges

/-- The cursor is off the border that the pending switch waits at. -/
def clearWait : Bool :=
  let a := e.shape s.active
  match s.switchDir with
  | some .left => s.x ≥ a.x + e.jumpZoneSize
  | some .right => s.x ≤ a.x + a.w - 1 - e.jumpZoneSize
  | some .top => s.y ≥ a.y + e.jumpZoneSize
  | some .bottom => s.y ≤ a.y + a.h - 1 + e.jumpZoneSize
  | none => false

/-- Stop waiting once the cursor is off the border, and arm the double tap. -/
def leaveBorder : Server := if s.mSwitchScreen ≠ none ∧ s.clearWait e = true then s.noSwitch e s.x s.y else s

/-- Stay on the screen: clamp the position to it and move the cursor there. -/
def clampMove (xOld yOld dx dy : Int) : Server :=
  let a := e.shape s.active
  let clamp (v lo size : Int) : Int := if v < lo then lo else if v > lo + size - 1 then lo + size - 1 else v
  let s := { s with x := clamp (xOld + dx) a.x a.w, y := clamp (yOld + dy) a.y a.h }
  if s.x ≠ xOld ∨ s.y ≠ yOld then s.call s.active (.mouseMove s.x s.y) else s

/-- The motion multiplied by the adjustment of the environment, if it is set. -/
def adjustMotion (d : Int) : Int :=
  match e.mouseAdjustment with
  | none => d
  | some multiplier => roundAway (d * multiplier)

/-- The side on which the position is beyond the active screen. -/
def exitSide : Option Direction :=
  let a := e.shape s.active
  if s.x < a.x then some .left
  else if s.x > a.x + a.w - 1 then some .right
  else if s.y < a.y then some .top
  else if s.y > a.y + a.h - 1 then some .bottom
  else none

def moveTo (x y : Int) : Server := { s with x := x, y := y }

/-- Cross the given side if there is a neighbor and the tests allow it. -/
def crossSide (xOld yOld dx dy : Int) (dir : Direction) : Option Motion :=
  match s.mapToNeighbor e fuel s.active dir (s.x, s.y) with
  | none => none
  | some (newScreen, x, y) =>
    let a := e.shape s.active
    let t := (s.moveTo x y).testEdge e dir newScreen x y
      (clampToBorder s.x a.x a.w 0) (clampToBorder s.y a.y a.h 0)
    match t.okay, newScreen with
    | true, some dst =>
      let w : CursorSwitch := ⟨t.after, dst, x, y⟩
      some ⟨w.perform e, [t], some w⟩
    | _, _ => some ⟨t.after.clampMove e xOld yOld dx dy, [t], none⟩

def onMouseMoveSecondary (dx dy : Int) : Option Motion :=
  let dx := adjustMotion e dx
  let dy := adjustMotion e dy
  if s.active = s.primaryClient then some s.stay
  else if s.relativeMoves && s.isLockedToScreenServer then some (s.call s.active (.mouseRelativeMove dx dy)).stay
  else
    let xOld := s.x
    let yOld := s.y
    let s := s.recordMotion (xOld + dx) (yOld + dy) dx dy
    match s.exitSide e with
    | none => some ((s.leaveBorder e).clampMove e xOld yOld dx dy).stay
    | some dir => s.crossSide e fuel xOld yOld dx dy dir

def handleSwitchWaitTimeout : Motion :=
  match s.mSwitchScreen with
  | none => s.stopSwitchWait.stay
  | some dst =>
    if s.isLockedToScreen e then s.stopSwitch.stay
    else
      let w : CursorSwitch := ⟨s, dst, s.switchWaitX, s.switchWaitY⟩
      ⟨w.perform e, [], some w⟩

end Server
end Synergy
