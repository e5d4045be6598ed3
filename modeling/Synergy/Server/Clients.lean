import Mathlib.Data.List.Sort
import Synergy.Server.Switch

/-! Clients coming and going, the configuration and its options, and the handlers
of the events that move the focus. -/
namespace Synergy
open Synergy.Lib InputFilter

namespace Server
variable (e : Platform) (fuel : Nat) (s : Server)

/-- Add a client under its name, or nothing when the name is taken. -/
def addClient (client : BaseClientProxy) : Option Server :=
  let name := s.getName client
  if s.clients.contains name then none
  else some { s with
    clientSet := insert client s.clientSet
    clients := s.clients.insert name client
    jumpCursorPos := Function.update s.jumpCursorPos client (e.cursorPos client) }.reconfigure

/-- Strike the entry under the name that a client has now. What had that name for
its owner goes to the primary client. -/
def eraseClient (client : BaseClientProxy) : Server :=
  let name := s.getName client
  let primaryName := s.getName s.primaryClient
  { s with
    clients := s.clients.erase name
    clientSet := s.clientSet.erase client
    clipboards := fun id =>
      let clipboard := s.clipboards id
      if clipboard.owner = name then { clipboard with owner := primaryName } else clipboard }

/-- Remove a client, or nothing when it is not in the list. -/
def removeClient (client : BaseClientProxy) : Option Server :=
  if client ∉ s.clientSet then none
  else
    let s := s.eraseClient client
    some (if s.mSwitchScreen = some client then s.stopSwitch else s)

/-- Jump off a client to the primary screen, which the screen saver may have
entered already. -/
def fallBack (client : BaseClientProxy) : Server :=
  let s := { s with x := e.cursorCenter.1, y := e.cursorCenter.2 }
  let s := if s.mSwitchScreen = some client then s.stopSwitch else s
  let s := { s with active := s.primaryClient }
  if s.activeSaver = none then s.call s.primaryClient (.enter s.x s.y s.seqNum e.toggleMask false) else s

/-- Take the cursor off a client that is gone. -/
def forceLeaveClient (client : BaseClientProxy) : Server :=
  let s := if s.activeSaver.getD s.active = client then s.fallBack e client else s
  let s := if s.activeSaver = some client then { s with activeSaver := none } else s
  s.reconfigure

/-- Tell a client to hang up and wait for it among the old clients. -/
def closeClient (client : BaseClientProxy) : Server :=
  let s := s.call client .close
  let s := (s.removeClient client).getD s
  let s := { s with oldClients := insert client s.oldClients }
  s.forceLeaveClient e client

/-- The clients that a configuration drops, without the primary one, in the order
of their addresses. -/
def droppedClients (config : Config) : List BaseClientProxy :=
  let dropped := (s.clients.entries.filter fun i => !config.isCanonicalName i.1).map Prod.snd
  (dropped.filter (· ≠ s.primaryClient)).dedup.insertionSort fun a b => a.address ≤ b.address

def closeClients (config : Config) : Server := (s.droppedClients config).foldl (fun s client => s.closeClient e client) s

def removeActiveClient (client : BaseClientProxy) : Server :=
  match s.removeClient client with
  | none => s
  | some s => s.forceLeaveClient e client

def removeOldClient (client : BaseClientProxy) : Server := { s with oldClients := s.oldClients.erase client }

def handleClientDisconnected (client : BaseClientProxy) : Server :=
  (s.removeActiveClient e client).removeOldClient client

def handleClientCloseTimeout (client : BaseClientProxy) : Server := s.removeOldClient client

/-- Warp to the center of the active client so that its position is known. -/
def stopRelativeMoves : Server :=
  if s.relativeMoves && s.active ≠ s.primaryClient then
    let a := e.shape s.active
    let s := { s with x := a.x + a.w / 2, y := a.y + a.h / 2, xDelta := 0, yDelta := 0, xDelta2 := 0, yDelta2 := 0 }
    s.call s.active (.mouseMove s.x s.y)
  else s

def sendOptions (client : BaseClientProxy) : Server :=
  let entries (options : Option ScreenOptions) : List (OptionID × OptionValue) := (options.map (·.entries)).getD []
  let optionsList := entries (s.config.getOptions (s.getName client)) ++ entries (s.config.getOptions [])
  (s.call client .resetOptions).call client (.setOptions optionsList)

/-- One option of the global ones; relative moves take effect after all of them. -/
def processOption (r : Server × Bool) (option : OptionID × OptionValue) : Server × Bool :=
  let (s, newRelativeMoves) := r
  let (id, value) := option
  let seconds : ℚ := max 0 (value / 1000)
  if id = kOptionScreenSwitchDelay then ({ s with switchWaitDelay := seconds }.stopSwitchWait, newRelativeMoves)
  else if id = kOptionScreenSwitchTwoTap then
    ({ s with switchTwoTapDelay := seconds }.stopSwitchTwoTap, newRelativeMoves)
  else if id = kOptionScreenSwitchNeedsControl then ({ s with switchNeedsControl := value ≠ 0 }, newRelativeMoves)
  else if id = kOptionScreenSwitchNeedsShift then ({ s with switchNeedsShift := value ≠ 0 }, newRelativeMoves)
  else if id = kOptionScreenSwitchNeedsAlt then ({ s with switchNeedsAlt := value ≠ 0 }, newRelativeMoves)
  else if id = kOptionRelativeMouseMoves then (s, value ≠ 0)
  else if id = kOptionDefaultLockToScreenState then ({ s with defaultLockToScreenState := value ≠ 0 }, newRelativeMoves)
  else if id = kOptionDisableLockToScreen then ({ s with disableLockToScreen := value ≠ 0 }, newRelativeMoves)
  else if id = kOptionClipboardSharing then ({ s with enableClipboard := value ≠ 0 }, newRelativeMoves)
  else if id = kOptionClipboardSharingSize then ({ s with maximumClipboardSize := value.toNat }, newRelativeMoves)
  else (s, newRelativeMoves)

/-- No modifier is needed until an option says so. -/
def clearSwitchNeeds : Server :=
  { s with switchNeedsShift := false, switchNeedsControl := false, switchNeedsAlt := false }

def setRelativeMoves (newRelativeMoves : Bool) : Server :=
  let s := if s.relativeMoves && !newRelativeMoves then s.stopRelativeMoves e else s
  { s with relativeMoves := newRelativeMoves }

def processOptions : Server :=
  let r := s.config.globalOptions.entries.foldl processOption (s.clearSwitchNeeds, s.relativeMoves)
  r.1.setRelativeMoves e r.2

/-- The hotkey that locks the cursor unless the user has configured one. -/
def scrollLockRule : Rule := ⟨some (.keystroke 0 kKeyScrollLock 0), [.lockCursorToScreen .toggle], []⟩

def addScrollLockRule : Server :=
  if !s.disableLockToScreen && !s.config.hasLockToScreenAction then
    { s with config := { s.config with inputFilter := s.config.inputFilter ++ [scrollLockRule] } }
  else s

/-- Cut over to the configuration in force, which the caller has put in place. -/
def setConfig : Server :=
  if !s.config.isScreen s.primaryClient.name then s
  else
    let s := s.closeClients e s.config
    let s := s.processOptions e
    let s := s.addScrollLockRule.reconfigure
    (s.clients.entries.map Prod.snd).foldl (fun s client => s.sendOptions client) s

/-- `ServerApp::reloadConfig`: the configuration is overwritten in place first. -/
def reloadConfig (config : Config) : Server := { s with config := config }.setConfig e

def adoptClient (client : BaseClientProxy) : Server :=
  if !s.config.isScreen client.name then s.closeClient e client
  else match s.addClient e client with
    | none => s.closeClient e client
    | some s =>
      let s := s.sendOptions client
      if s.activeSaver ≠ none then s.call client (.screensaver true) else s

/-- Close all secondary clients. -/
def disconnect : Server :=
  if 1 < s.clients.size ∨ s.oldClients.Nonempty then s.closeClients e .empty else s

/-- Start locked when the lock key is on or an option asks for it. -/
def initLockedToScreen : Server :=
  let scrollLocked := !s.disableLockToScreen && e.toggleMask &&& keyModifierScrollLock ≠ 0
  { s with lockedToScreen := scrollLocked || s.defaultLockToScreenState }

/-- The constructor: the primary client is the first one. -/
def new (config : Config) (primaryClient : BaseClientProxy) : Server :=
  let s := initial config primaryClient
  (((s.addClient e primaryClient).getD s).setConfig e).initLockedToScreen e

/-- Keep a coordinate out of the jump zone of a screen that may have shrunk. -/
def clampToZone (v lo size zoneSize : Int) : Int :=
  if v < lo + zoneSize then lo + zoneSize else if v ≥ lo + size - zoneSize then lo + size - zoneSize - 1 else v

/-- Save the position and go to the primary screen. -/
def saveForScreensaver : Server :=
  let s := { s with activeSaver := some s.active, xSaver := s.x, ySaver := s.y }
  if s.active ≠ s.primaryClient then s.switchScreen e s.primaryClient 0 0 true else s

/-- Go back to the saved position on a screen. -/
def returnToScreen (screen : BaseClientProxy) : Server :=
  let a := e.shape screen
  let zoneSize := s.getJumpZoneSize e screen
  let s := { s with
    xSaver := clampToZone s.xSaver a.x a.w zoneSize, ySaver := clampToZone s.ySaver a.y a.h zoneSize }
  s.switchScreen e screen s.xSaver s.ySaver false

/-- Go back to the saved screen, if there is one other than the primary. -/
def returnFromScreensaver : Server :=
  match s.activeSaver with
  | none => s
  | some screen => if screen = s.primaryClient then s else s.returnToScreen e screen

def onScreensaver (activated : Bool) : Server :=
  let s := if activated then s.saveForScreensaver e else { s.returnFromScreensaver e with activeSaver := none }
  s.callEach fun _ => .screensaver activated

def handleSwitchToScreenEvent (screen : Str) : Server :=
  match s.clients.get? screen with
  | none => s
  | some client => s.jumpToScreen e client

def handleSwitchInDirectionEvent (direction : Direction) : Option Server :=
  match s.getNeighbor e fuel s.active direction (s.x, s.y) with
  | none => none
  | some (none, _) => some s
  | some (some newScreen, _) => some (s.jumpToScreen e newScreen)

/-- The name after the given one, the first name after the last. -/
def nextName (screens : List Str) (name : Str) : Option Str :=
  if name ∉ screens then none
  else (screens[screens.idxOf name + 1]?).or screens.head?

def handleToggleScreenEvent : Server :=
  let screens := s.clients.keys
  if screens.length < 2 then s
  else match (nextName screens (s.getName s.active)).bind s.clients.get? with
    | none => s
    | some client => s.jumpToScreen e client

/-- The mode of a switching action applied to its flag. -/
def applyMode (mode : Mode) (old : Bool) : Bool :=
  match mode with
  | .on => true
  | .off => false
  | .toggle => !old

def handleKeyboardBroadcastEvent (mode : Mode) (screens : Str) : Server :=
  { s with keyboardBroadcasting := applyMode mode s.keyboardBroadcasting, keyboardBroadcastingScreens := screens }

def handleLockCursorToScreenEvent (mode : Mode) : Server :=
  let newState := applyMode mode s.lockedToScreen
  if newState = s.lockedToScreen then s
  else
    let s := { s with lockedToScreen := newState }.reconfigure
    if !s.isLockedToScreenServer then s.stopRelativeMoves e else s

/-- Ask a client where its cursor is. -/
def takeCursorPos (client : BaseClientProxy) : Server :=
  let p := e.cursorPos client
  let s := { s with jumpCursorPos := Function.update s.jumpCursorPos client p }
  if client = s.active then { s with x := p.1, y := p.2 } else s

def handleShapeChanged (client : BaseClientProxy) : Option Motion :=
  if client ∉ s.clientSet then some s.stay
  else
    let s := s.takeCursorPos e client
    if client ≠ s.primaryClient then some s.stay
    else if client = s.active then s.onMouseMovePrimary e fuel s.x s.y
    else s.onMouseMoveSecondary e fuel 0 0

/-- A clipboard passes, empty for now, to the screen that grabbed it. -/
def assignClipboard (grabber : BaseClientProxy) (id : ClipboardID) (sequenceNumber : UInt32) : Server :=
  { s with
    clipboards := Function.update s.clipboards id
      ⟨emptyClipboard, emptyClipboard, s.getName grabber, sequenceNumber⟩ }

def handleClipboardGrabbed (grabber : BaseClientProxy) (id : ClipboardID) (sequenceNumber : UInt32) : Server :=
  if !s.enableClipboard || s.maximumClipboardSize = 0 then s
  else if grabber ∉ s.clientSet then s
  else if grabber ≠ s.primaryClient ∧ sequenceNumber < (s.clipboards id).seqNum then s
  else
    let s := s.assignClipboard grabber id sequenceNumber
    let s := s.callEach fun client => if client = grabber then .setClipboardDirty id false else .grabClipboard id
    if grabber = s.primaryClient ∧ s.active ≠ s.primaryClient then
      s.onClipboardChanged e s.primaryClient id (s.clipboards id).seqNum
    else s

def handleClipboardChanged (client : BaseClientProxy) (id : ClipboardID) (sequenceNumber : UInt32) : Server :=
  if client ∉ s.clientSet then s else s.onClipboardChanged e client id sequenceNumber

end Server
end Synergy
