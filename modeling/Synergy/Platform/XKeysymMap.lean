import Synergy.Input.GroupIndices

/-! The keyboard map that an X server without XKB is given: up to four key symbols for every key code,
the sensitivity of the key to modifiers, and the items that its symbols make. -/
namespace Synergy
open Synergy.Lib

/-- A key symbol of X. -/
abbrev KeySym := Nat

/-- A key code of X, an 8-bit value. -/
abbrev KeyCode := Nat

def NoSymbol : KeySym := 0

/-- `IsKeypadKey` or `IsPrivateKeypadKey`. -/
def isKeypad (k : KeySym) : Bool := (0xff80 ≤ k && k ≤ 0xffbd) || (0x11000000 ≤ k && k ≤ 0x1100ffff)

/-- The tables over the names of key symbols, and the case conversion of Xlib, which leaves what has no
case alone and gives no keypad symbol for another one. -/
structure KeySymTables where
  isoKeys : KeySym → KeyID
  map1008FF : Nat → KeyID
  keySymToUCS4 : KeySym → Option KeyID
  convertCase : KeySym → KeySym × KeySym
  convertCase_noSymbol : convertCase NoSymbol = (NoSymbol, NoSymbol)
  convertCase_keypad : ∀ k, isKeypad k = false → isKeypad (convertCase k).1 = false ∧ isKeypad (convertCase k).2 = false

namespace KeySymTables
variable (t : KeySymTables)

def mapKeySymToKeyID (k : KeySym) : KeyID :=
  let block := k &&& 0xffffff00
  if block = 0x0000 then k % 2 ^ 32
  else if block = 0xfe00 then t.isoKeys k
  else if block = 0xff00 then k - 0xff00 + 0xef00
  else if block = 0x1008ff00 then t.map1008FF (k &&& 0xff)
  else (t.keySymToUCS4 k).getD kKeyNone

theorem mapKeySymToKeyID_noSymbol : t.mapKeySymToKeyID NoSymbol = kKeyNone := rfl

/-- The two symbols are the lower and the upper case of the given one. -/
def isCasePair (k lower upper : KeySym) : Bool :=
  let (lKeysym, uKeysym) := t.convertCase k
  lKeysym ≠ uKeysym && lKeysym = lower && uKeysym = upper

end KeySymTables

/-- The symbols of a key: two pairs of an unshifted and a shifted one. -/
structure Keysyms where
  level0 : KeySym
  level1 : KeySym
  level2 : KeySym
  level3 : KeySym
  deriving DecidableEq

namespace Keysyms
variable (t : KeySymTables) (k : Keysyms)

/-- The first four symbols of a list, with none for those that are missing. -/
def ofList (keysyms : List KeySym) : Keysyms :=
  ⟨keysyms.getD 0 NoSymbol, keysyms.getD 1 NoSymbol, keysyms.getD 2 NoSymbol, keysyms.getD 3 NoSymbol⟩

def get : Nat → KeySym
  | 0 => k.level0
  | 1 => k.level1
  | 2 => k.level2
  | _ => k.level3

/-- The test of the levels of AltGr; the last comparison is of the level before. -/
def altGrLevels : Bool :=
  (k.level2 ≠ NoSymbol && k.level2 ≠ k.level0) || (k.level3 ≠ NoSymbol && k.level2 ≠ k.level1)

/-- The symbols with a missing upper case filled in, and whether the key is sensitive to CapsLock. -/
def fillCase : Keysyms × Bool :=
  if k.level0 ≠ NoSymbol && k.level1 = NoSymbol && k.level2 = NoSymbol && k.level3 = NoSymbol then
    let (lKeysym, uKeysym) := t.convertCase k.level0
    if lKeysym ≠ uKeysym then ({ k with level0 := lKeysym, level1 := uKeysym }, true) else (k, false)
  else if k.level0 ≠ NoSymbol && k.level1 ≠ NoSymbol then
    (k, t.isCasePair k.level0 k.level0 k.level1 ||
      (k.level2 ≠ NoSymbol && k.level3 ≠ NoSymbol && t.isCasePair k.level2 k.level2 k.level3))
  else (k, false)

def shiftLevels : Bool :=
  (k.level0 ≠ NoSymbol && k.level1 ≠ NoSymbol && k.level0 ≠ k.level1) ||
    (k.level2 ≠ NoSymbol && k.level3 ≠ NoSymbol && k.level2 ≠ k.level3)

def hasKeypad : Bool := isKeypad k.level0 || isKeypad k.level1 || isKeypad k.level2 || isKeypad k.level3

/-- What the key is sensitive to. -/
def sensitive : KeyModifierMask :=
  let (keysyms, capsLock) := k.fillCase t
  (if k.altGrLevels then keyModifierAltGr else 0) ||| (if capsLock then keyModifierCapsLock else 0) |||
    (if capsLock || keysyms.shiftLevels then keyModifierShift else 0) |||
    (if keysyms.hasKeypad then keyModifierNumLock else 0)

/-- The key that a modifier button has at a level without one of its own. -/
def pretendedID (j : Nat) : KeyID :=
  if k.level1 = NoSymbol ∨ j ≠ 3 then t.mapKeySymToKeyID k.level0 else t.mapKeySymToKeyID k.level1

/-- The key at a level. -/
def levelID (isModifier : Bool) (j : Nat) : KeyID :=
  let id := t.mapKeySymToKeyID (k.get j)
  if id = kKeyNone ∧ j ≠ 0 ∧ isModifier = true then k.pretendedID t j else id

end Keysyms

/-- The modifier that a key is, and whether it is a toggle. -/
def KeyMap.modifierOf (id : KeyID) : KeyModifierMask × Bool :=
  if id = kKeyShift_L ∨ id = kKeyShift_R then (keyModifierShift, false)
  else if id = kKeyControl_L ∨ id = kKeyControl_R then (keyModifierControl, false)
  else if id = kKeyAlt_L ∨ id = kKeyAlt_R then (keyModifierAlt, false)
  else if id = kKeyMeta_L ∨ id = kKeyMeta_R then (keyModifierMeta, false)
  else if id = kKeySuper_L ∨ id = kKeySuper_R then (keyModifierSuper, false)
  else if id = kKeyAltGr then (keyModifierAltGr, false)
  else if id = kKeyCapsLock then (keyModifierCapsLock, true)
  else if id = kKeyNumLock then (keyModifierNumLock, true)
  else if id = kKeyScrollLock then (keyModifierScrollLock, true)
  else (0, false)

def KeyItem.initModifierKey (item : KeyItem) : KeyItem :=
  { item with generates := (KeyMap.modifierOf item.id).1, lock := (KeyMap.modifierOf item.id).2 }

def KeyItem.insteadOfShift (item : KeyItem) (other : KeyModifierMask) : KeyItem :=
  { item with required := item.required &&& ~~~keyModifierShift ||| other }

/-- The modifiers that Shift and AltGr make. -/
def stateMask (shift altGr : Bool) : KeyModifierMask :=
  (if shift then keyModifierShift else 0) ||| (if altGr then keyModifierAltGr else 0)

namespace Keysyms
variable (t : KeySymTables)

/-- The item of a level; the symbols are the filled ones. -/
def levelItem (isModifier : Bool) (keycode : KeyCode) (k : Keysyms) (sensitive : KeyModifierMask) (j : Nat) : KeyItem :=
  let item : KeyItem :=
    { id := k.levelID t isModifier j, group := if 2 ≤ j then 1 else 0, button := BitVec.ofNat 16 keycode,
      required := stateMask (j % 2 = 1) (2 ≤ j), sensitive := sensitive, generates := 0, dead := false, lock := false,
      client := 0 }
  if isModifier then item.initModifierKey else item

/-- The items of a level: its own, and those that do without Shift. -/
def levelItems (isModifier : Bool) (keycode : KeyCode) (k : Keysyms) (sensitive : KeyModifierMask) (j : Nat) :
    List KeyItem :=
  let item := levelItem t isModifier keycode k sensitive j
  if item.id = kKeyNone then []
  else
    item :: (if j % 2 = 1 then
      (if t.isCasePair (k.get j) (k.get (j - 1)) (k.get j) then [item.insteadOfShift keyModifierCapsLock] else []) ++
        (if isKeypad (k.get j) then [item.insteadOfShift keyModifierNumLock] else [])
    else [])

end Keysyms

/-- The buttons of the modifiers, each with the bit of its modifier. -/
abbrev ModifierButtons := SortedMap (fun keycode : KeyCode => keycode) Nat

/-- What is known of the keyboard, with the map that is being made. -/
structure XWindowsKeyState where
  keyMap : KeyMap
  modifierFromX : List KeyModifierMask
  modifierToX : SortedMap (fun mask : KeyModifierMask => mask.toNat) Nat
  keyCodeFromKey : Multimap (fun id : KeyID => id) KeyCode
  lastGoodNonXKBModifiers : ModifierButtons

/-- The keyboard as X describes it; key codes end at 255. -/
structure KeyboardMapping where
  minKeycode : KeyCode
  allKeysyms : List (List KeySym)
  maxKeycode : minKeycode + allKeysyms.length ≤ 256
  modifiermap : List (List KeyCode)

namespace XWindowsKeyState
variable (t : KeySymTables)

/-- Each button with the first modifier that it is mapped to. -/
def modifierButtons (modifiermap : List (List KeyCode)) : ModifierButtons :=
  let buttons : List (KeyCode × Nat) := modifiermap.zipIdx.flatMap fun e => e.1.map fun keycode => (keycode, e.2)
  (buttons.foldl (fun (m : ModifierButtons) e => m.insert e.1 e.2) .empty).erase 0

/-- The first key of a modifier of X says what it stands for. -/
def addModifier (st : XWindowsKeyState) (bit : Nat) (generates : KeyModifierMask) : XWindowsKeyState :=
  if generates ≠ 0 ∧ (st.modifierFromX[bit]?).getD 0 = 0 then
    { st with
      modifierFromX := st.modifierFromX.set bit generates
      modifierToX := st.modifierToX.put generates (2 ^ bit) }
  else st

/-- One level of a key. -/
def addLevel (buttons : ModifierButtons) (keycode : KeyCode) (k : Keysyms)
    (sensitive : KeyModifierMask) (st : XWindowsKeyState) (j : Nat) : XWindowsKeyState :=
  let isModifier := buttons.contains keycode
  let item := k.levelItem t isModifier keycode sensitive j
  if item.id = kKeyNone then st
  else
    let st := match buttons.get? keycode with
      | some bit => st.addModifier bit item.generates
      | none => st
    { st with
      keyMap := (k.levelItems t isModifier keycode sensitive j).foldl KeyMap.addKeyEntry st.keyMap
      keyCodeFromKey := st.keyCodeFromKey.insert item.id keycode }

/-- One key: its sensitivity, and then its levels. -/
def addKeycode (buttons : ModifierButtons) (st : XWindowsKeyState)
    (key : KeyCode × Keysyms) : XWindowsKeyState :=
  [0, 1, 2, 3].foldl (addLevel t buttons key.1 (key.2.fillCase t).1 (key.2.sensitive t)) st

/-- The keys with their codes. -/
def keys (mapping : KeyboardMapping) : List (KeyCode × Keysyms) :=
  mapping.allKeysyms.zipIdx.map fun e => (mapping.minKeycode + e.2, .ofList e.1)

/-- The modifier buttons that are used: without any, those that were last seen. -/
def usedButtons (st : XWindowsKeyState) (mapping : KeyboardMapping) : ModifierButtons :=
  let buttons := modifierButtons mapping.modifiermap
  if buttons.size ≠ 0 then buttons else st.lastGoodNonXKBModifiers

def updateKeysymMap (st : XWindowsKeyState) (mapping : KeyboardMapping) (keyMap : KeyMap) : XWindowsKeyState :=
  let start : XWindowsKeyState :=
    { keyMap := keyMap
      modifierFromX := (((st.modifierFromX.map fun _ => 0).set 0 keyModifierShift).set 1 keyModifierCapsLock).set 2
        keyModifierControl
      modifierToX := ((SortedMap.empty.put keyModifierShift 1).put keyModifierCapsLock 2).put keyModifierControl 4
      keyCodeFromKey := .empty
      lastGoodNonXKBModifiers := st.usedButtons mapping }
  (keys mapping).foldl (addKeycode t (st.usedButtons mapping)) start

end XWindowsKeyState
end Synergy
