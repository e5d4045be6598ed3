import Mathlib.Data.Finset.Basic
import Mathlib.Data.Rat.Floor
import Synergy.Base.Types
import Synergy.Server.Config

/-! The state of a server: who is connected, where the cursor is, which switch is
pending, and what the server has told each screen. -/
namespace Synergy
open Synergy.Lib

/-- A client proxy, by its address. The name it announced never changes. -/
structure BaseClientProxy where
  address : Nat
  name : Str
  deriving DecidableEq

/-- Position and size of a screen. -/
structure Shape where
  x : Int
  y : Int
  w : Int
  h : Int
  deriving DecidableEq

namespace Shape

/-- Where the screen starts along the axis that the edge is crossed on. -/
def start (a : Shape) (side : Direction) : Int := if side.horizontal then a.x else a.y

/-- Its extent along that axis. -/
def extent (a : Shape) (side : Direction) : Int := if side.horizontal then a.w else a.h

/-- Where the edge itself starts. -/
def edgeStart (a : Shape) (side : Direction) : Int := if side.horizontal then a.y else a.x

def edgeExtent (a : Shape) (side : Direction) : Int := if side.horizontal then a.h else a.w

/-- The point lies on the screen. -/
def contains (a : Shape) (p : Int × Int) : Prop :=
  a.x ≤ p.1 ∧ p.1 < a.x + a.w ∧ a.y ≤ p.2 ∧ p.2 < a.y + a.h

end Shape

/-- One of the two clipboards. -/
abbrev ClipboardID := Fin 2

/-- A clipboard is known by its marshalled form; this is the empty one. -/
def emptyClipboard : Str := ['\x00', '\x00', '\x00', '\x00']

/-- What the server tells a screen. -/
inductive Call where
  | enter (x y : Int) (seqNum : UInt32) (mask : KeyModifierMask) (forScreensaver : Bool)
  | leave (left : Bool)
  | setClipboard (id : ClipboardID) (clipboard : Str)
  | grabClipboard (id : ClipboardID)
  | setClipboardDirty (id : ClipboardID) (dirty : Bool)
  | keyDown (key : KeyID) (mask : KeyModifierMask) (button : Nat) (lang : Str)
  | keyRepeat (key : KeyID) (mask : KeyModifierMask) (count : Int) (button : Nat) (lang : Str)
  | keyUp (key : KeyID) (mask : KeyModifierMask) (button : Nat)
  | mouseDown (button : ButtonID)
  | mouseUp (button : ButtonID)
  | mouseMove (x y : Int)
  | mouseRelativeMove (dx dy : Int)
  | mouseWheel (xDelta yDelta : Int)
  | screensaver (activate : Bool)
  | resetOptions
  | setOptions (options : List (OptionID × OptionValue))
  | reconfigure (activeSides : Nat)
  | close
  | sendLocalFiles (paths : List Str)
  deriving DecidableEq

/-- What screens and the system answer while one event is handled. -/
structure Platform where
  shape : BaseClientProxy → Shape
  cursorPos : BaseClientProxy → Int × Int
  clipboard : BaseClientProxy → ClipboardID → Str
  jumpZoneSize : Int
  cursorCenter : Int × Int
  toggleMask : KeyModifierMask
  lockedToScreen : Bool
  leaves : Bool
  draggingPaths : List Str
  language : Str
  /-- Time in seconds. -/
  now : ℚ
  mouseAdjustment : Option ℚ

/-- Every screen is 100 pixels wide and high and nothing is going on. -/
def Platform.still : Platform where
  shape _ := ⟨0, 0, 100, 100⟩
  cursorPos _ := (50, 50)
  clipboard _ _ := emptyClipboard
  jumpZoneSize := 1
  cursorCenter := (50, 50)
  toggleMask := 0
  lockedToScreen := false
  leaves := true
  draggingPaths := []
  language := []
  now := 0
  mouseAdjustment := none

structure ClipboardInfo where
  clipboard : Str
  data : Str
  owner : Str
  seqNum : UInt32
  deriving DecidableEq

/-- All clients, the primary one included, by name. -/
abbrev ClientList := SortedMap (fun s : Str => s) BaseClientProxy

/-- Fields go by the names of the members of the source, one of them with its
prefix because a method has the name without it. A wait timer is either running or
absent. `calls` records what the clients have been told so far. -/
structure Server where
  primaryClient : BaseClientProxy
  config : Config
  clients : ClientList
  clientSet : Finset BaseClientProxy
  oldClients : Finset BaseClientProxy
  active : BaseClientProxy
  activeSaver : Option BaseClientProxy
  clipboards : ClipboardID → ClipboardInfo
  seqNum : UInt32
  x : Int
  y : Int
  xDelta : Int
  yDelta : Int
  xDelta2 : Int
  yDelta2 : Int
  xSaver : Int
  ySaver : Int
  jumpCursorPos : BaseClientProxy → Int × Int
  mSwitchScreen : Option BaseClientProxy
  switchDir : Option Direction
  switchWaitDelay : ℚ
  switchWaitTimer : Bool
  switchWaitX : Int
  switchWaitY : Int
  switchTwoTapDelay : ℚ
  switchTwoTapTimer : ℚ
  switchTwoTapEngaged : Bool
  switchTwoTapArmed : Bool
  switchNeedsShift : Bool
  switchNeedsControl : Bool
  switchNeedsAlt : Bool
  relativeMoves : Bool
  keyboardBroadcasting : Bool
  keyboardBroadcastingScreens : Str
  lockedToScreen : Bool
  defaultLockToScreenState : Bool
  disableLockToScreen : Bool
  enableClipboard : Bool
  maximumClipboardSize : Nat
  calls : List (BaseClientProxy × Call)

/-- Pixels from the edge within which a tap counts. -/
def switchTwoTapZone : Int := 3

namespace Config

/-- The canonical name of a screen, or the name itself when it is unknown. -/
def getName (c : Config) (client : BaseClientProxy) : Str :=
  let name := c.getCanonicalName client.name
  if name.isEmpty then client.name else name

end Config

namespace Server

/-- The members after the constructor has initialised them and its clipboards,
before it adds the primary client. -/
def initial (config : Config) (primaryClient : BaseClientProxy) : Server where
  primaryClient := primaryClient
  config := config
  clients := .empty
  clientSet := ∅
  oldClients := ∅
  active := primaryClient
  activeSaver := none
  clipboards _ := ⟨emptyClipboard, emptyClipboard, config.getName primaryClient, 0⟩
  seqNum := 0
  x := 0
  y := 0
  xDelta := 0
  yDelta := 0
  xDelta2 := 0
  yDelta2 := 0
  xSaver := 0
  ySaver := 0
  jumpCursorPos _ := (0, 0)
  mSwitchScreen := none
  switchDir := none
  switchWaitDelay := 0
  switchWaitTimer := false
  switchWaitX := 0
  switchWaitY := 0
  switchTwoTapDelay := 0
  switchTwoTapTimer := 0
  switchTwoTapEngaged := false
  switchTwoTapArmed := false
  switchNeedsShift := false
  switchNeedsControl := false
  switchNeedsAlt := false
  relativeMoves := false
  keyboardBroadcasting := false
  keyboardBroadcastingScreens := []
  lockedToScreen := false
  defaultLockToScreenState := false
  disableLockToScreen := false
  enableClipboard := true
  maximumClipboardSize := 2 ^ 31 - 1
  calls := []

variable (e : Platform) (s : Server)

def getName (client : BaseClientProxy) : Str := s.config.getName client

/-- Tell a client something. -/
def call (client : BaseClientProxy) (m : Call) : Server := { s with calls := s.calls ++ [(client, m)] }

/-- Tell every connected client something, in the order of their names. -/
def callEach (m : BaseClientProxy → Call) : Server :=
  { s with calls := s.calls ++ s.clients.entries.map fun i => (i.2, m i.2) }

/-- The primary client may refuse to leave its screen. -/
def leaves (client : BaseClientProxy) : Bool := if client = s.primaryClient then e.leaves else true

def isLockedToScreenServer : Bool := s.lockedToScreen

def isLockedToScreen : Bool :=
  if s.disableLockToScreen then false
  else if s.isLockedToScreenServer then true
  else e.lockedToScreen

def getJumpZoneSize (client : BaseClientProxy) : Int := if client = s.primaryClient then e.jumpZoneSize else 0

def hasAnyNeighbor (client : BaseClientProxy) (dir : Direction) : Bool :=
  s.config.hasNeighbor (s.getName client) dir

def getActivePrimarySides : Nat :=
  let side (dir : Direction) : Nat := if s.hasAnyNeighbor s.primaryClient dir then dir.mask else 0
  if s.isLockedToScreenServer then 0
  else side .left ||| side .right ||| side .top ||| side .bottom

def reconfigure : Server := s.call s.primaryClient (.reconfigure s.getActivePrimarySides)

/-- The modifiers that a switch by the cursor asks for are all held. -/
def modifiersHeld : Bool :=
  let held (needs : Bool) (m : KeyModifierMask) : Bool := !(needs && e.toggleMask &&& m ≠ m)
  held s.switchNeedsShift keyModifierShift && held s.switchNeedsControl keyModifierControl &&
    held s.switchNeedsAlt keyModifierAlt

/-- The corner within `size` of the position, as a mask. -/
def getCorner (client : BaseClientProxy) (x y size : Int) : Nat :=
  let a := e.shape client
  let xSide : Int := if x ≤ a.x then -1 else if x ≥ a.x + a.w - 1 then 1 else 0
  let ySide : Int := if y ≤ a.y then -1 else if y ≥ a.y + a.h - 1 then 1 else 0
  if xSide ≠ 0 ∧ y < a.y + size then if xSide < 0 then topLeftCornerMask else topRightCornerMask
  else if xSide ≠ 0 ∧ y ≥ a.y + a.h - size then if xSide < 0 then bottomLeftCornerMask else bottomRightCornerMask
  else if ySide ≠ 0 ∧ x < a.x + size then if ySide < 0 then topLeftCornerMask else bottomLeftCornerMask
  else if ySide ≠ 0 ∧ x ≥ a.x + a.w - size then if ySide < 0 then topRightCornerMask else bottomRightCornerMask
  else noCornerMask

end Server
end Synergy
