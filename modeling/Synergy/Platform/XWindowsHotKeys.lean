import Mathlib.Data.Finset.Basic
import Synergy.Platform.HotKeys

/-! The hotkeys of the screen for X. A hotkey is grabbed once for each key code it has
and for each state of the toggles, and the error of a grab may arrive after others
have been made. -/
namespace Synergy.HotKeys
open Synergy.Lib

/-- X modifiers. -/
abbrev XMask := BitVec 32

/-- What `XWindowsKeyState` and `XGetModifierMapping` know of the keyboard. -/
structure XKeyboard where
  m_modifierToX : KeyModifierMask → Option XMask
  m_keyCodeFromKey : KeyID → List Nat
  /-- The key codes of each modifier; zero stands for none. -/
  modifiermap : Nat → List Nat

namespace XKeyboard

def kKeyModifierNumBits : Nat := 16

def mapModifiersToX (kb : XKeyboard) (mask : KeyModifierMask) : Option XMask :=
  (List.range kKeyModifierNumBits).foldlM (fun modifiers i =>
    let bit : KeyModifierMask := 1 <<< i
    if mask &&& bit ≠ 0 then (kb.m_modifierToX bit).map (modifiers ||| ·) else some modifiers) 0

/-- The index of the one modifier that differs. -/
def modifierIndex (difference : XMask) : Option Nat :=
  if difference = 1 <<< 0 then some 0
  else if difference = 1 <<< 1 then some 1
  else if difference = 1 <<< 2 then some 2
  else if difference = 1 <<< 3 then some 3
  else if difference = 1 <<< 4 then some 4
  else if difference = 1 <<< 5 then some 5
  else if difference = 1 <<< 6 then some 6
  else if difference = 1 <<< 7 then some 7
  else none

def s_hotKeyModifiers : List KeyModifierMask :=
  [keyModifierShift, keyModifierControl, keyModifierAlt, keyModifierMeta, keyModifierSuper]

def toggleModifiers (kb : XKeyboard) : List XMask :=
  [keyModifierCapsLock, keyModifierNumLock, keyModifierScrollLock].filterMap kb.mapModifiersToX

/-- The modifiers with those toggles that the bits of `i` stand for. -/
def withToggles (kb : XKeyboard) (modifiers : XMask) (i : Nat) : XMask :=
  kb.toggleModifiers.zipIdx.foldl (fun tmpModifiers t =>
    if i.testBit t.2 then tmpModifiers ||| t.1 else tmpModifiers) modifiers

end XKeyboard

/-- What the X server answers: which grabs it grants, after which requests an error
that has occurred has arrived, and which keys it lets go. -/
structure XAnswer where
  granted : Nat → Bool
  arrived : Nat → Bool
  released : KeyItem → Bool

/-- The grabbing of one hotkey under way. -/
structure Grabbing where
  requests : Nat
  /-- A grab has been denied, whether or not the error has arrived. -/
  denied : Bool
  err : Bool
  hotKeys : List KeyItem
  m_hotKeyToIDMap : HotKeyToIDMap
  grabs : Finset KeyItem

namespace Grabbing

/-- `XGrabKey`, and the record of the grab unless an error has arrived. -/
def grabKey (a : XAnswer) (id : Nat) (g : Grabbing) (item : KeyItem) : Grabbing :=
  let denied := g.denied || !a.granted g.requests
  let err := g.err || (denied && a.arrived g.requests)
  { requests := g.requests + 1
    denied, err
    hotKeys := if err then g.hotKeys else g.hotKeys ++ [item]
    m_hotKeyToIDMap := if err then g.m_hotKeyToIDMap else g.m_hotKeyToIDMap.put item id
    grabs := if a.granted g.requests then insert item g.grabs else g.grabs }

/-- The keys of one modifier, with the other requested modifiers. -/
def grabModifier (kb : XKeyboard) (a : XAnswer) (id : Nat) (mask : KeyModifierMask) (modifiers : XMask) (g : Grabbing)
    (bit : KeyModifierMask) : Grabbing :=
  if g.err then g
  else if mask &&& bit = 0 then g
  else
    match kb.mapModifiersToX (mask &&& ~~~bit) with
    | none => { g with err := true }
    | some modifiers2 =>
      match XKeyboard.modifierIndex (modifiers ^^^ modifiers2) with
      | none => { g with err := true }
      | some index =>
        (kb.modifiermap index).foldl (fun g code =>
          if g.err then g else if code ≠ 0 then g.grabKey a id ⟨code, modifiers2⟩ else g) g

/-- One key code, with every combination of the toggles. -/
def grabKeycode (kb : XKeyboard) (a : XAnswer) (id : Nat) (modifiers : XMask) (g : Grabbing) (code : Nat) :
    Grabbing :=
  if g.err then g
  else
    (List.range (2 ^ kb.toggleModifiers.length)).foldl
      (fun g i => g.grabKey a id ⟨code, kb.withToggles modifiers i⟩) g

def grabHotKey (kb : XKeyboard) (a : XAnswer) (id : Nat) (key : KeyID) (mask : KeyModifierMask) (modifiers : XMask)
    (g : Grabbing) : Grabbing :=
  if key = kKeyNone then XKeyboard.s_hotKeyModifiers.foldl (grabModifier kb a id mask modifiers) g
  else (kb.m_keyCodeFromKey key).foldl (grabKeycode kb a id modifiers) g

end Grabbing

structure XWindowsScreen where
  m_hotKeys : SortedMap (fun id : Nat => id) (List KeyItem)
  /-- The returned ids; the head is the back of the vector. -/
  m_oldHotKeyIDs : List Nat
  m_hotKeyToIDMap : HotKeyToIDMap
  /-- What is grabbed at the X server. -/
  grabs : Finset KeyItem

namespace XWindowsScreen

def start : XWindowsScreen := ⟨.empty, [], .empty, ∅⟩

/-- The modifiers, unless the key or the modifiers cannot be a hotkey or cannot be mapped. -/
def mapped (kb : XKeyboard) (key : KeyID) (mask : KeyModifierMask) : Option XMask :=
  if mask &&& ~~~hotKeyModifiers ≠ 0 then none
  else if key = kKeyNone ∧ mask = 0 then none
  else
    match kb.mapModifiersToX mask with
    | none => none
    | some modifiers => if key ≠ kKeyNone ∧ kb.m_keyCodeFromKey key = [] then none else some modifiers

/-- `XUngrabKey` and the end of the entry in the map, for each of the grabs. -/
def letGo (a : XAnswer) (items : List KeyItem) (toID : HotKeyToIDMap) (grabs : Finset KeyItem) :
    HotKeyToIDMap × Finset KeyItem :=
  items.foldl (fun s item => (s.1.erase item, if a.released item then s.2.erase item else s.2)) (toID, grabs)

def registerHotKey (kb : XKeyboard) (s : XWindowsScreen) (key : KeyID) (mask : KeyModifierMask) (a : XAnswer) :
    Nat × XWindowsScreen :=
  match mapped kb key mask with
  | none => (0, s)
  | some modifiers =>
    let (id, old) := chooseHotKeyID s.m_hotKeys.size s.m_oldHotKeyIDs
    let g := Grabbing.grabHotKey kb a id key mask modifiers
      { requests := 0, denied := false, err := false, hotKeys := (s.m_hotKeys.get? id).getD []
        m_hotKeyToIDMap := s.m_hotKeyToIDMap, grabs := s.grabs }
    -- the lock waits for the errors that are still to come
    if g.err || g.denied then
      let (toID, grabs) := letGo a g.hotKeys g.m_hotKeyToIDMap g.grabs
      (0, ⟨s.m_hotKeys.erase id, id :: old, toID, grabs⟩)
    else (id, ⟨s.m_hotKeys.put id g.hotKeys, old, g.m_hotKeyToIDMap, g.grabs⟩)

def unregisterHotKey (s : XWindowsScreen) (id : Nat) (a : XAnswer) : XWindowsScreen :=
  match s.m_hotKeys.get? id with
  | none => s
  | some items =>
    let (toID, grabs) := letGo a items s.m_hotKeyToIDMap s.grabs
    ⟨s.m_hotKeys.erase id, id :: s.m_oldHotKeyIDs, toID, grabs⟩

inductive XKeyType
  | keyPress
  | keyRelease
  | other
  deriving DecidableEq

structure XKeyEvent where
  type : XKeyType
  keycode : Nat
  state : XMask
  isRepeat : Bool

def XKeyEvent.item (xkey : XKeyEvent) : KeyItem := ⟨xkey.keycode, xkey.state⟩

/-- The id of the hotkey event that is added, if any. -/
def onHotKey (s : XWindowsScreen) (xkey : XKeyEvent) : Option Nat :=
  match s.m_hotKeyToIDMap.get? xkey.item with
  | none => none
  | some id => if xkey.type = .other then none else if xkey.isRepeat then none else some id

end XWindowsScreen
end Synergy.HotKeys
