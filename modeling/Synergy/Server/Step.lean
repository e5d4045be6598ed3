import Synergy.Lib.Trace
import Synergy.Server.Clients

/-! Keys and buttons on their way to the active screen or, while the keyboard is
broadcast, to several screens. -/
namespace Synergy
open Synergy.Lib

namespace Server
variable (e : Platform) (s : Server)

/-- What `onKeyDown` and `onKeyUp` do with their argument: to the active screen by
default, otherwise to every client whose name the destinations contain. A null
pointer stands for the broadcast destinations while broadcasting is on. -/
def relayKey (screens : Option Str) (m : Call) : Server :=
  if !s.keyboardBroadcasting && KeyInfo.isDefault screens then s.call s.active m
  else
    let screens :=
      if screens = none ∧ s.keyboardBroadcasting = true then
        let broadcast := some (cStr s.keyboardBroadcastingScreens)
        if KeyInfo.isDefault broadcast then some ['*'] else broadcast
      else screens
    { s with calls := s.calls ++ (s.clients.entries.filter fun i => KeyInfo.contains screens i.1).map fun i => (i.2, m) }

def onKeyDown (id : KeyID) (mask : KeyModifierMask) (button : Nat) (lang : Str) (screens : Option Str) : Server :=
  s.relayKey screens (.keyDown id mask button lang)

def onKeyUp (id : KeyID) (mask : KeyModifierMask) (button : Nat) (screens : Option Str) : Server :=
  s.relayKey screens (.keyUp id mask button)

/-- The destinations are passed as a C string, which is never a null pointer. -/
def handleKeyDownEvent (info : KeyInfo) : Server :=
  s.onKeyDown info.key info.mask info.button e.language (some (cStr info.screens))

def handleKeyUpEvent (info : KeyInfo) : Server :=
  s.onKeyUp info.key info.mask info.button (some (cStr info.screens))

def handleKeyRepeatEvent (info : KeyInfo) : Server :=
  s.call s.active (.keyRepeat info.key info.mask info.count info.button e.language)

def handleButtonDownEvent (button : ButtonID) : Server := s.call s.active (.mouseDown button)

def handleButtonUpEvent (button : ButtonID) : Server := s.call s.active (.mouseUp button)

def handleWheelEvent (xDelta yDelta : Int) : Server := s.call s.active (.mouseWheel xDelta yDelta)

end Server
end Synergy

/-! Who receives the keys while the keyboard is broadcast to a set of screens. -/
namespace Synergy
open Synergy.Lib

namespace Server
variable {e : Platform} {s : Server}

/-- The connected clients that a set of destination names selects: those it names,
or all of them when it is empty or contains "*". -/
def selected (s : Server) (destinations : StringSet) : List BaseClientProxy :=
  (s.clients.entries.filter fun i =>
    destinations.names.isEmpty || destinations.names.contains ['*'] || destinations.names.contains i.1).map Prod.snd

/-- An empty C string is not the null pointer and contains no name. -/
theorem relayKey_empty (hon : s.keyboardBroadcasting = true) (m : Call) : (s.relayKey (some []) m).calls = s.calls := by
  simp [relayKey, hon, KeyInfo.contains]

/-- A key goes down and up again at exactly the selected clients. -/
def Reaches (e : Platform) (s : Server) (destinations : StringSet) (info : KeyInfo) : Prop :=
  (s.handleKeyDownEvent e info).calls = s.calls ++
      (s.selected destinations).map (·, .keyDown info.key info.mask info.button e.language) ∧
    (s.handleKeyUpEvent info).calls = s.calls ++
      (s.selected destinations).map (·, .keyUp info.key info.mask info.button)

/-- While the keyboard is broadcast, key events without destinations of their own
reach the selected clients exactly when no client is selected. -/
theorem broadcast_reaches_iff (e : Platform) (s : Server) (destinations : StringSet) {info : KeyInfo}
    (hinfo : info.screens = []) :
    Reaches e (s.handleKeyboardBroadcastEvent .on (KeyInfo.join destinations)) destinations info ↔
      s.selected destinations = [] := by
  set t := s.handleKeyboardBroadcastEvent .on (KeyInfo.join destinations) with ht
  have hon : t.keyboardBroadcasting = true := rfl
  have hc : some (cStr info.screens) = some [] := by rw [hinfo]; rfl
  rw [Reaches, handleKeyDownEvent, handleKeyUpEvent, hc, onKeyDown, onKeyUp, relayKey_empty hon, relayKey_empty hon,
    show t.selected destinations = s.selected destinations from rfl]
  constructor
  · rintro ⟨h, -⟩
    simpa using h
  · intro h
    simp [h]

/-- The space bar. -/
def spaceKey : KeyInfo := ⟨0x20, 0, 65, 1, []⟩

theorem broadcast_reaches_none :
    Reaches .still ((initial .empty ⟨0, ['a']⟩).handleKeyboardBroadcastEvent .on (KeyInfo.join .empty)) .empty spaceKey :=
  (broadcast_reaches_iff .still (initial .empty ⟨0, ['a']⟩) .empty rfl).mpr rfl

/-- With one client connected and no destinations, nobody gets the key. -/
theorem broadcast_reaches_fails :
    ¬ ∀ (e : Platform) (s : Server) (destinations : StringSet) (info : KeyInfo),
      s.keyboardBroadcasting = true → s.keyboardBroadcastingScreens = KeyInfo.join destinations →
      (∀ n ∈ destinations.names, ':' ∉ n ∧ '\x00' ∉ n) → info.screens = [] → Reaches e s destinations info := by
  intro h
  let s : Server := { initial .empty ⟨0, ['a']⟩ with clients := SortedMap.empty.insert ['a'] ⟨0, ['a']⟩ }
  have hreach := h .still (s.handleKeyboardBroadcastEvent .on (KeyInfo.join .empty)) .empty spaceKey rfl rfl
    (by simp [StringSet.names]) rfl
  revert hreach
  unfold Reaches
  decide

end Server
end Synergy

/-! The server as a transition system: one event at a time, together with what the
platform answers while it is handled. -/
namespace Synergy
open Synergy.Lib InputFilter

/-- What the server has handlers for. -/
inductive ServerEvent where
  | adoptClient (client : BaseClientProxy)
  | clientDisconnected (client : BaseClientProxy)
  | clientCloseTimeout (client : BaseClientProxy)
  | reloadConfig (config : Config)
  | disconnect
  | screensaver (activated : Bool)
  | switchToScreen (screen : Str)
  | switchInDirection (direction : Direction)
  | toggleScreen
  | keyboardBroadcast (mode : Mode) (screens : Str)
  | lockCursorToScreen (mode : Mode)
  | motionPrimary (x y : Int)
  | motionSecondary (dx dy : Int)
  | switchWaitTimeout
  | shapeChanged (client : BaseClientProxy)
  | clipboardGrabbed (client : BaseClientProxy) (id : ClipboardID) (sequenceNumber : UInt32)
  | clipboardChanged (client : BaseClientProxy) (id : ClipboardID) (sequenceNumber : UInt32)
  | keyDown (info : KeyInfo)
  | keyUp (info : KeyInfo)
  | keyRepeat (info : KeyInfo)
  | buttonDown (button : ButtonID)
  | buttonUp (button : ButtonID)
  | wheel (xDelta yDelta : Int)

namespace Server

/-- Handle an event. Nothing comes out when a search for a neighbor needs more fuel. -/
def handle (e : Platform) (fuel : Nat) (s : Server) : ServerEvent → Option Motion
  | .adoptClient client => some (s.adoptClient e client).stay
  | .clientDisconnected client => some (s.handleClientDisconnected e client).stay
  | .clientCloseTimeout client => some (s.handleClientCloseTimeout client).stay
  | .reloadConfig config => some (s.reloadConfig e config).stay
  | .disconnect => some (s.disconnect e).stay
  | .screensaver activated => some (s.onScreensaver e activated).stay
  | .switchToScreen screen => some (s.handleSwitchToScreenEvent e screen).stay
  | .switchInDirection direction => (s.handleSwitchInDirectionEvent e fuel direction).map stay
  | .toggleScreen => some (s.handleToggleScreenEvent e).stay
  | .keyboardBroadcast mode screens => some (s.handleKeyboardBroadcastEvent mode screens).stay
  | .lockCursorToScreen mode => some (s.handleLockCursorToScreenEvent e mode).stay
  | .motionPrimary x y => s.onMouseMovePrimary e fuel x y
  | .motionSecondary dx dy => s.onMouseMoveSecondary e fuel dx dy
  | .switchWaitTimeout => some (s.handleSwitchWaitTimeout e)
  | .shapeChanged client => s.handleShapeChanged e fuel client
  | .clipboardGrabbed client id sequenceNumber => some (s.handleClipboardGrabbed e client id sequenceNumber).stay
  | .clipboardChanged client id sequenceNumber => some (s.handleClipboardChanged e client id sequenceNumber).stay
  | .keyDown info => some (s.handleKeyDownEvent e info).stay
  | .keyUp info => some (s.handleKeyUpEvent info).stay
  | .keyRepeat info => some (s.handleKeyRepeatEvent e info).stay
  | .buttonDown button => some (s.handleButtonDownEvent button).stay
  | .buttonUp button => some (s.handleButtonUpEvent button).stay
  | .wheel xDelta yDelta => some (s.handleWheelEvent xDelta yDelta).stay

/-- When an event can come: an adopted proxy is a new object, only a proxy that is
still alive reports its disconnection, and only a running timer expires. -/
def Enabled (s : Server) : ServerEvent → Prop
  | .adoptClient client => client ∉ s.clientSet ∧ client ∉ s.oldClients ∧ client ≠ s.primaryClient
  | .clientDisconnected client => (client ∈ s.clientSet ∨ client ∈ s.oldClients) ∧ client ≠ s.primaryClient
  | .clientCloseTimeout client => client ∈ s.oldClients
  | .switchWaitTimeout => s.switchWaitTimer = true
  | _ => True

/-- An event and the answers of the platform lead from one state to another. -/
def Step (s : Server) (input : Platform × ServerEvent) (t : Server) : Prop :=
  s.Enabled input.2 ∧ ∃ fuel m, s.handle input.1 fuel input.2 = some m ∧ m.server = t

instance (s : Server) (ev : ServerEvent) : Decidable (s.Enabled ev) := by
  cases ev <;> dsimp only [Enabled] <;> infer_instance

/-- The state after an event, or the same state when the fuel does not do. -/
def serve (fuel : Nat) (s : Server) (input : Platform × ServerEvent) : Server :=
  ((s.handle input.1 fuel input.2).map Motion.server).getD s

/-- The event can come and the fuel does for it. -/
def Served (fuel : Nat) (s : Server) (input : Platform × ServerEvent) : Prop :=
  s.Enabled input.2 ∧ (s.handle input.1 fuel input.2).isSome = true

instance (fuel : Nat) (s : Server) (input : Platform × ServerEvent) : Decidable (s.Served fuel input) :=
  inferInstanceAs (Decidable (_ ∧ _))

theorem step_serve {fuel : Nat} {s : Server} {input : Platform × ServerEvent} (h : s.Served fuel input) :
    s.Step input (s.serve fuel input) := by
  obtain ⟨m, hm⟩ := Option.isSome_iff_exists.mp h.2
  exact ⟨h.1, fuel, m, hm, by rw [serve, hm]; rfl⟩

/-- Serving events that can come is a run. -/
theorem trace_serve {fuel : Nat} {s : Server} {inputs : List (Platform × ServerEvent)}
    (h : EachStep (fun s input _ => s.Served fuel input) s (runTrace (serve fuel) s inputs)) :
    Trace Step s (runTrace (serve fuel) s inputs) := by
  induction inputs generalizing s with
  | nil => exact .nil s
  | cons input inputs ih => exact .cons (step_serve h.1) (ih h.2)

end Server
end Synergy
