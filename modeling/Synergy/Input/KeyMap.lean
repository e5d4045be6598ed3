import Mathlib.Data.Finset.Basic
import Synergy.Base.Types
import Synergy.Lib.Multimap
import Synergy.Lib.SortedMap

/-! The keyboard map: which buttons to press, in which order and with which modifiers, so that a
key comes out. -/
namespace Synergy
open Synergy.Lib

/-- Physical key, a 16-bit value; zero stands for none. -/
abbrev KeyButton := BitVec 16

def kKeyModifierNumBits : Nat := 16

/-- The platform that the program is built for. -/
inductive KeyPlatform
  | windows
  | mac
  | other
  deriving DecidableEq, Repr

/-- How a key is synthesized: the button, the modifiers that it needs in a certain state and the
modifier that it is itself. -/
structure KeyItem where
  id : KeyID
  group : Int
  button : KeyButton
  required : KeyModifierMask
  sensitive : KeyModifierMask
  generates : KeyModifierMask
  dead : Bool
  lock : Bool
  client : Nat
  deriving DecidableEq, Repr

inductive Keystroke
  | button (button : KeyButton) (press autorepeat : Bool) (client : Nat)
  | group (group : Int) (absolute restore : Bool)
  deriving DecidableEq, Repr

inductive EKeystroke
  | press
  | release
  | autorepeat
  | click
  | modify
  | unmodify
  deriving DecidableEq

/-- The items to synthesize one after the other, the dead keys first. -/
abbrev KeyItemList := List KeyItem
abbrev KeyEntryList := List KeyItemList
/-- The entries of a key, by group. -/
abbrev KeyGroupTable := List KeyEntryList
abbrev KeyIDMap := SortedMap (fun id : KeyID => id) KeyGroupTable
/-- The items that are in effect, by the modifier that they generate. -/
abbrev ModifierToKeys := Multimap (fun mask : KeyModifierMask => mask.toNat) KeyItem

namespace KeyGroupTable

/-- The entries of a group; an index outside the table reads nothing. -/
def entries (table : KeyGroupTable) (group : Int) : KeyEntryList :=
  if group < 0 then [] else (table[group.toNat]?).getD []

end KeyGroupTable

/-- The modifiers as the key state knows them, with the keystrokes so far. -/
structure ModifierState where
  activeModifiers : ModifierToKeys
  currentState : KeyModifierMask
  keystrokes : List Keystroke
  deriving DecidableEq

namespace ModifierState

def emit (st : ModifierState) (keys : List Keystroke) : ModifierState :=
  { st with keystrokes := st.keystrokes ++ keys }

/-- The item is in effect from now on. -/
def activate (st : ModifierState) (keyItem : KeyItem) : ModifierState :=
  { st with
    activeModifiers := st.activeModifiers.insert keyItem.generates keyItem
    currentState := st.currentState ||| keyItem.generates }

/-- No item generates the modifier any more. -/
def deactivate (st : ModifierState) (mask : KeyModifierMask) : ModifierState :=
  { st with
    activeModifiers := st.activeModifiers.erase mask
    currentState := st.currentState &&& ~~~mask }

/-- A button that generates the modifier is up again; others may still be down. -/
def dropButton (st : ModifierState) (mask : KeyModifierMask) (button : KeyButton) : ModifierState :=
  let active := st.activeModifiers.eraseFirst mask (·.button = button)
  { st with
    activeModifiers := active
    currentState := if active.contains mask then st.currentState else st.currentState &&& ~~~mask }

end ModifierState

/-- The buttons of the items in effect. -/
def ModifierToKeys.buttons (mods : ModifierToKeys) : List KeyButton := mods.entries.map (·.2.button)

structure KeyMap where
  m_keyIDMap : KeyIDMap
  m_numGroups : Nat
  /-- The items for each modifier, sixteen modifiers for a group. -/
  m_modifierKeys : List (List KeyItem)
  m_composeAcrossGroups : Bool
  m_halfDuplex : Finset KeyButton
  m_keyboardLayouts : List Str
  platform : KeyPlatform

namespace KeyMap

/-- All items of the map. -/
def items (m : KeyMap) : List KeyItem := m.m_keyIDMap.entries.flatMap fun e => e.2.flatten.flatten

def isDeadKey (key : KeyID) : Bool := key = kKeyCompose || (0x0300 ≤ key && key ≤ 0x036f)

def empty (platform : KeyPlatform) : KeyMap :=
  { m_keyIDMap := .empty, m_numGroups := 0, m_modifierKeys := [], m_composeAcrossGroups := false, m_halfDuplex := ∅,
    m_keyboardLayouts := [], platform }

/-- The table of a key, with room for the group and for those of the other keys. -/
def roomFor (m : KeyMap) (id : KeyID) (group : Int) : KeyGroupTable :=
  let table := (m.m_keyIDMap.get? id).getD []
  table ++ List.replicate (max (group + 1).toNat m.m_numGroups - table.length) []

def setTable (m : KeyMap) (id : KeyID) (table : KeyGroupTable) : KeyMap :=
  { m with m_keyIDMap := m.m_keyIDMap.put id table }

/-- Add an item that synthesizes a key by itself, unless the key has it already. -/
def addKeyEntry (m : KeyMap) (item : KeyItem) : KeyMap :=
  if item.id = kKeyNone then m
  else
    let groupTable := m.roomFor item.id item.group
    let newItem := { item with dead := isDeadKey item.id, required := item.required &&& item.sensitive }
    m.setTable item.id
      (if [newItem] ∈ groupTable.entries item.group then groupTable
      else groupTable.modify item.group.toNat (· ++ [[newItem]]))

/-- The item that synthesizes a key of a combination. -/
def combinationItem (m : KeyMap) (group : Int) (key : KeyID) : Option KeyItem :=
  (m.m_keyIDMap.get? key).bind fun curTable =>
    (List.range (if m.m_composeAcrossGroups then curTable.length else 1)).findSome? fun gd =>
      (curTable.entries ((group + gd).tmod m.m_numGroups)).findSome? fun
        | [item] => some item
        | _ => none

/-- Synthesize a key by other keys one after the other. -/
def addKeyCombinationEntry (m : KeyMap) (id : KeyID) (group : Int) (keys : List KeyID) : KeyMap × Bool :=
  if id = kKeyNone then (m, false)
  else
    let groupTable := m.roomFor id group
    let m := m.setTable id groupTable
    if groupTable.entries group ≠ [] then (m, false)
    else
      match keys.mapM (m.combinationItem group) with
      | none => (m, false)
      | some items => (m.setTable id (groupTable.modify group.toNat (· ++ [items])), true)

def findNumGroups (m : KeyMap) : Nat := (m.m_keyIDMap.entries.map (·.2.length)).foldl max 0

/-- The item of an entry that is a modifier key by itself. -/
def modifierItem (bit : Nat) : KeyItemList → Option KeyItem
  | [item] => if item.generates.getLsbD bit then some item else none
  | _ => none

/-- The items that generate a modifier in a group. -/
def modifierItems (m : KeyMap) (group bit : Nat) : List KeyItem :=
  m.m_keyIDMap.entries.flatMap fun e => ((e.2[group]?).getD []).filterMap (modifierItem bit)

def setModifierKeys (m : KeyMap) : KeyMap :=
  { m with
    m_modifierKeys := (List.range (kKeyModifierNumBits * m.m_numGroups)).map fun index =>
      m.modifierItems (index / kKeyModifierNumBits) (index % kKeyModifierNumBits) }

/-- Give every key as many groups as the key with the most has, and note the modifier keys. -/
def finish (m : KeyMap) : KeyMap :=
  let numGroups := m.findNumGroups
  setModifierKeys
    { m with
      m_numGroups := numGroups
      m_keyIDMap := m.m_keyIDMap.mapValues fun _ table => table ++ List.replicate (numGroups - table.length) [] }

/-- The group of a language, the given one for a language without a layout. -/
def getLanguageGroupID (m : KeyMap) (group : Int) (lang : Str) : Int :=
  match m.m_keyboardLayouts.idxOf? lang with
  | some index => index
  | none => group

def getEffectiveGroup (m : KeyMap) (group offset : Int) : Int :=
  (group + offset + m.m_numGroups).tmod m.m_numGroups

def getCommandModifiers : KeyModifierMask :=
  keyModifierControl ||| keyModifierAlt ||| keyModifierAltGr ||| keyModifierMeta ||| keyModifierSuper

def isCommand (mask : KeyModifierMask) : Bool := mask &&& getCommandModifiers ≠ 0

/-- A key for the modifier other than the given button; a group outside the table has none. -/
def keyForModifier (m : KeyMap) (button : KeyButton) (group : Int) (modifierBit : Nat) : Option KeyItem :=
  let index := group * kKeyModifierNumBits + modifierBit
  if index < 0 then none else ((m.m_modifierKeys[index.toNat]?).getD []).find? (·.button ≠ button)

/-- The strokes of the button of a modifier key that is put into a state, together with the others
that generate the modifier. -/
def modifierStrokes (m : KeyMap) (active : Bool) (keyItem : KeyItem) (mods : ModifierToKeys) : List Keystroke :=
  if keyItem.lock then
    if keyItem.button ∈ m.m_halfDuplex then [.button keyItem.button active false keyItem.client]
    else [.button keyItem.button true false keyItem.client, .button keyItem.button false false keyItem.client]
  else if active then [.button keyItem.button true false keyItem.client]
  else (mods.equalRange keyItem.generates).map fun e => .button e.2.button false false e.2.client

def addKeystrokes (m : KeyMap) (type : EKeystroke) (keyItem : KeyItem) (st : ModifierState) : ModifierState :=
  match type with
  | .press =>
    let st := st.emit [.button keyItem.button true false keyItem.client]
    if keyItem.generates = 0 then st
    else if !keyItem.lock || st.currentState &&& keyItem.generates = 0 then st.activate keyItem
    else st.deactivate keyItem.generates
  | .release =>
    let st := st.emit [.button keyItem.button false false keyItem.client]
    if keyItem.generates ≠ 0 && !keyItem.lock then st.dropButton keyItem.generates keyItem.button else st
  | .autorepeat =>
    match m.platform with
    | .windows =>
      st.emit [.button keyItem.button false true keyItem.client, .button keyItem.button true true keyItem.client]
    | .mac => st.emit [.button keyItem.button true true keyItem.client]
    | .other => st
  | .click =>
    st.emit [.button keyItem.button true false keyItem.client, .button keyItem.button false false keyItem.client]
  | .modify => (st.emit (m.modifierStrokes true keyItem st.activeModifiers)).activate keyItem
  | .unmodify => (st.emit (m.modifierStrokes false keyItem st.activeModifiers)).deactivate keyItem.generates

/-- The modifiers that are not as required. -/
def flips (currentState requiredState sensitiveMask notRequiredMask : KeyModifierMask) : KeyModifierMask :=
  (currentState ^^^ requiredState) &&& sensitiveMask &&& ~~~notRequiredMask

/-- What a modifier is sensitive to, other than itself. -/
def ownSensitive (keyItem : KeyItem) (bit : Nat) : KeyModifierMask := keyItem.sensitive &&& ~~~(1#32 <<< bit)

/-- Put the modifiers to flip into the required state, from the one below `bits` down to the
lowest. A modifier that is sensitive to others has these put right first; they are all below it,
or the attempt fails. -/
def changeModifiers (m : KeyMap) (button : KeyButton) (group : Int) (notRequiredMask : KeyModifierMask) :
    Nat → KeyModifierMask → KeyModifierMask → ModifierState → ModifierState × Bool
  | 0, _, _, st => (st, true)
  | bit + 1, requiredState, flipMask, st =>
    if !flipMask.getLsbD bit then m.changeModifiers button group notRequiredMask bit requiredState flipMask st
    else
      let active := requiredState.getLsbD bit
      match m.keyForModifier button group bit with
      | none =>
        if notRequiredMask.getLsbD bit then
          m.changeModifiers button group notRequiredMask bit requiredState flipMask st
        else (st, false)
      | some keyItem =>
        let sensitive := ownSensitive keyItem bit
        if sensitive > 1#32 <<< bit then (st, false)
        else
          -- nothing is put right for a modifier on its way up
          let r := if active then
            m.changeModifiers button group notRequiredMask bit keyItem.required
              (flips st.currentState keyItem.required sensitive notRequiredMask) st
            else (st, true)
          if !r.2 then (r.1, false)
          else if r.1.currentState &&& sensitive ≠ keyItem.required &&& sensitive then (r.1, false)
          else
            m.changeModifiers button group notRequiredMask bit requiredState flipMask
              (m.addKeystrokes (if active then .modify else .unmodify) keyItem r.1)

def keysForModifierState (m : KeyMap) (button : KeyButton) (group : Int)
    (requiredState sensitiveMask notRequiredMask : KeyModifierMask) (st : ModifierState) : ModifierState × Bool :=
  m.changeModifiers button group notRequiredMask kKeyModifierNumBits requiredState
    (flips st.currentState requiredState sensitiveMask notRequiredMask) st

def addGroupToKeystroke (m : KeyMap) (group : Int) (lang : Str) (st : ModifierState) : Int × ModifierState :=
  let group := m.getLanguageGroupID group lang
  (group, st.emit [.group group true false])

/-- The modifiers that need not match what is desired. -/
def s_notRequiredMask : KeyModifierMask := keyModifierAltGr ||| keyModifierNumLock ||| keyModifierScrollLock

/-- The state of the modifiers for an item, in the item's group. -/
def modifiersForItem (m : KeyMap) (keyItem : KeyItem) (group : Int)
    (desiredState overrideModifiers : KeyModifierMask) (st : ModifierState) : ModifierState × Bool :=
  if keyItem.dead then
    m.keysForModifierState keyItem.button group keyItem.required keyItem.sensitive 0 st
  else
    let sensitive := keyItem.sensitive &&& ~~~overrideModifiers
    let r := m.keysForModifierState keyItem.button group keyItem.required sensitive 0 st
    if !r.2 then r
    else m.keysForModifierState keyItem.button group desiredState (~~~(sensitive ||| keyItem.generates))
      s_notRequiredMask r.1

def itemStroke (keyItem : KeyItem) (isAutoRepeat : Bool) : EKeystroke :=
  if keyItem.dead then .click else if isAutoRepeat then .autorepeat else .press

/-- Synthesize an item: the group that is in effect then, the state and whether it succeeded. -/
def keysForKeyItem (m : KeyMap) (keyItem : KeyItem) (group : Int) (desiredState overrideModifiers : KeyModifierMask)
    (isAutoRepeat : Bool) (lang : Str) (st : ModifierState) : Int × ModifierState × Bool :=
  let g := if group ≠ keyItem.group then m.addGroupToKeystroke keyItem.group lang st else (group, st)
  let r := m.modifiersForItem keyItem g.1 desiredState overrideModifiers g.2
  if r.2 then (g.1, m.addKeystrokes (itemStroke keyItem isAutoRepeat) keyItem r.1, true) else (g.1, r.1, false)

/-- Release the modifier keys that were not down before. -/
def releaseUnwanted (m : KeyMap) (button : KeyButton) (wanted : List KeyButton) :
    List (KeyModifierMask × KeyItem) → ModifierState → ModifierState
  | [], st => st
  | e :: old, st =>
    m.releaseUnwanted button wanted old
      (if e.2.button ≠ button && e.2.button ∉ wanted then
        m.addKeystrokes (if e.2.lock then .unmodify else .release) e.2 st
      else st)

/-- Press the modifier keys that are not down any more. -/
def pressWanted (m : KeyMap) (button : KeyButton) (down : List KeyButton) :
    List (KeyModifierMask × KeyItem) → ModifierState → ModifierState
  | [], st => st
  | e :: desired, st =>
    m.pressWanted button down desired
      (if e.2.button ≠ button && e.2.button ∉ down then
        m.addKeystrokes (if e.2.lock then .modify else .press) e.2 st
      else st)

/-- Put the modifier keys back. This always succeeds. -/
def keysToRestoreModifiers (m : KeyMap) (keyItem : KeyItem) (desiredModifiers : ModifierToKeys)
    (st : ModifierState) : ModifierState :=
  let oldModifiers := st.activeModifiers
  m.pressWanted keyItem.button oldModifiers.buttons desiredModifiers.entries
    (m.releaseUnwanted keyItem.button desiredModifiers.buttons oldModifiers.entries st)

/-- The item gives what is desired as it is. -/
def fitsExactly (desiredState : KeyModifierMask) (item : KeyItem) : Bool :=
  item.required &&& desiredState = item.required &&
    item.required &&& desiredState = item.sensitive &&& desiredState

/-- How many modifiers have to change for the item. -/
def changeCount (desiredState : KeyModifierMask) (item : KeyItem) : Nat :=
  (List.range 32).countP ((item.required ^^^ desiredState) &&& item.sensitive).getLsbD

/-- The first entry that fits exactly, else the first with the fewest changes; no entry is empty. -/
def findBestKeyIndex (entryList : KeyEntryList) (desiredState : KeyModifierMask) : Option Nat :=
  match entryList.findIdx? fun entry => entry.getLast?.any (fitsExactly desiredState) with
  | some index => some index
  | none =>
    (entryList.zipIdx.foldl (fun (best : Nat × Option Nat) e =>
      match e.1.getLast? with
      | some item => if changeCount desiredState item < best.1 then (changeCount desiredState item, some e.2) else best
      | none => best) (32, none)).2

/-- The best entry in any group, starting with the active one. -/
def getKeyItemList (m : KeyMap) (keyGroupTable : KeyGroupTable) (group : Int) (desiredMask : KeyModifierMask) :
    Option KeyItemList :=
  (List.range m.m_numGroups).findSome? fun groupOffset =>
    let entryList := keyGroupTable.entries (m.getEffectiveGroup group groupOffset)
    (findBestKeyIndex entryList desiredMask).bind (entryList[·]?)

/-- The item has the right button, whatever character comes out of it. -/
def fitsCommand (desiredMask : KeyModifierMask) (item : KeyItem) : Bool :=
  let desiredShiftMask := keyModifierShift &&& desiredMask
  let requiredIgnoreShiftMask := item.required &&& ~~~keyModifierShift
  item.required &&& desiredShiftMask = item.sensitive &&& desiredShiftMask &&
    requiredIgnoreShiftMask &&& desiredMask = requiredIgnoreShiftMask

/-- The item of an entry without dead keys that has the right button. -/
def commandItem (desiredMask : KeyModifierMask) : KeyItemList → Option KeyItem
  | [item] => if fitsCommand desiredMask item then some item else none
  | _ => none

/-- The first key that can be used for a command, in any group. -/
def findCommandItem (m : KeyMap) (keyGroupTable : KeyGroupTable) (group : Int) (desiredMask : KeyModifierMask) :
    Option KeyItem :=
  (List.range m.m_numGroups).findSome? fun groupOffset =>
    (keyGroupTable.entries (m.getEffectiveGroup group groupOffset)).findSome? (commandItem desiredMask)

/-- Synthesize the items of an entry one after the other. -/
def keysForItems (m : KeyMap) (desiredMask overrideModifiers : KeyModifierMask) (isAutoRepeat : Bool) (lang : Str) :
    KeyItemList → Int → ModifierState → ModifierState × Bool
  | [], _, st => (st, true)
  | item :: items, group, st =>
    let r := m.keysForKeyItem item group desiredMask overrideModifiers isAutoRepeat lang st
    if r.2.2 then m.keysForItems desiredMask overrideModifiers isAutoRepeat lang items r.1 r.2.1 else r.2

/-- Synthesize an entry on copies of the modifiers and put the modifier keys back; without
success the copies and the keystrokes are given up. -/
def typeItems (m : KeyMap) (itemList : KeyItemList) (keyItem : KeyItem) (group : Int)
    (desiredMask overrideModifiers : KeyModifierMask) (isAutoRepeat : Bool) (lang : Str) (st : ModifierState) :
    Option KeyItem × ModifierState :=
  let r := m.keysForItems desiredMask overrideModifiers isAutoRepeat lang itemList group st
  if r.2 then (some keyItem, m.keysToRestoreModifiers keyItem st.activeModifiers r.1)
  else (none, { st with keystrokes := [] })

def s_overrideModifiers : KeyModifierMask := 0xffff

def mapCommandKey (m : KeyMap) (id : KeyID) (group : Int) (desiredMask : KeyModifierMask) (isAutoRepeat : Bool)
    (lang : Str) (st : ModifierState) : Option KeyItem × ModifierState :=
  match m.m_keyIDMap.get? id with
  | none => (none, st)
  | some keyGroupTable =>
    match m.findCommandItem keyGroupTable group desiredMask with
    | none => (none, st)
    | some keyItem =>
      let desiredMask := desiredMask &&& ~~~keyModifierCapsLock ||| st.currentState &&& keyModifierCapsLock
      m.typeItems [keyItem] keyItem group desiredMask s_overrideModifiers isAutoRepeat lang st

def mapCharacterKey (m : KeyMap) (id : KeyID) (group : Int) (desiredMask : KeyModifierMask) (isAutoRepeat : Bool)
    (lang : Str) (st : ModifierState) : Option KeyItem × ModifierState :=
  match m.m_keyIDMap.get? id with
  | none => (none, st)
  | some keyGroupTable =>
    match m.getKeyItemList keyGroupTable (m.getLanguageGroupID group lang) desiredMask with
    | none => (none, st)
    | some itemList =>
      match itemList.getLast? with
      | none => (none, st)
      | some keyItem => m.typeItems itemList keyItem group desiredMask 0 isAutoRepeat lang st

def mapModifierKey (m : KeyMap) (id : KeyID) (group : Int) (desiredMask : KeyModifierMask) (isAutoRepeat : Bool)
    (lang : Str) (st : ModifierState) : Option KeyItem × ModifierState :=
  m.mapCharacterKey id group desiredMask isAutoRepeat lang st

/-- What stands for the key when only modifiers are set or cleared. -/
def m_modifierKeyItem : KeyItem :=
  { id := kKeyNone, group := 0, button := 0, required := 0, sensitive := 0, generates := 0, dead := false,
    lock := false, client := 0 }

def modifierKeyIDs : List KeyID :=
  [kKeyShift_L, kKeyShift_R, kKeyControl_L, kKeyControl_R, kKeyAlt_L, kKeyAlt_R, kKeyMeta_L, kKeyMeta_R,
    kKeySuper_L, kKeySuper_R, kKeyAltGr, kKeyCapsLock, kKeyNumLock, kKeyScrollLock]

/-- Set or clear modifiers on the state itself. -/
def mapModifiers (m : KeyMap) (group : Int) (requiredState sensitiveMask : KeyModifierMask) (st : ModifierState) :
    Option KeyItem × ModifierState :=
  let r := m.keysForModifierState 0 group requiredState sensitiveMask 0 st
  (if r.2 then some m_modifierKeyItem else none, r.1)

/-- The keystrokes for a key, and the item that it is mapped to. -/
def mapKey (m : KeyMap) (id : KeyID) (group : Int) (desiredMask : KeyModifierMask) (isAutoRepeat : Bool)
    (lang : Str) (st : ModifierState) : Option KeyItem × ModifierState :=
  if id = kKeyNextGroup then (none, st.emit [.group 1 false false])
  else if id = kKeyPrevGroup then (none, st.emit [.group (-1) false false])
  else if id ∈ modifierKeyIDs then m.mapModifierKey id group desiredMask isAutoRepeat lang st
  else if id = kKeySetModifiers then m.mapModifiers group desiredMask desiredMask st
  else if id = kKeyClearModifiers then
    m.mapModifiers group (st.currentState &&& ~~~desiredMask) desiredMask st
  else if isCommand desiredMask then m.mapCommandKey id group desiredMask isAutoRepeat lang st
  else m.mapCharacterKey id group desiredMask isAutoRepeat lang st

/-- Only a modifier that is not as required is flipped. -/
theorem flips_getLsbD_ne {currentState requiredState sensitiveMask notRequiredMask : KeyModifierMask} {k : Nat}
    (h : (flips currentState requiredState sensitiveMask notRequiredMask).getLsbD k = true) :
    currentState.getLsbD k ≠ requiredState.getLsbD k := by
  intro he
  rw [flips, BitVec.getLsbD_and, BitVec.getLsbD_and, BitVec.getLsbD_xor, he, Bool.xor_self] at h
  simp at h

/-- The state in which a modifier finds the others once its own modifiers were put right. -/
def changeOwn (m : KeyMap) (button : KeyButton) (group : Int) (notRequiredMask : KeyModifierMask) (bit : Nat)
    (active : Bool) (keyItem : KeyItem) (st : ModifierState) : ModifierState × Bool :=
  if active then
    m.changeModifiers button group notRequiredMask bit keyItem.required
      (flips st.currentState keyItem.required (ownSensitive keyItem bit) notRequiredMask) st
  else (st, true)

/-- Apart from itself a modifier depends on lower ones only. -/
theorem ownSensitive_getLsbD {keyItem : KeyItem} {bit : Nat} (hbit : bit < kKeyModifierNumBits)
    (h : ¬ ownSensitive keyItem bit > 1#32 <<< bit) {k : Nat} (hk : bit ≤ k) :
    (ownSensitive keyItem bit).getLsbD k = false := by
  have hbit32 : bit < 32 := hbit.trans (by decide)
  rcases hk.eq_or_lt with rfl | hlt
  · simp [ownSensitive, hbit32]
  · by_contra hset
    have hle : (ownSensitive keyItem bit).toNat ≤ 2 ^ bit := by
      have hmask : (1#32 <<< bit).toNat = 2 ^ bit := by
        have hpow : 2 ^ bit < 2 ^ 32 := Nat.pow_lt_pow_right (by decide) hbit32
        rw [BitVec.toNat_shiftLeft, Nat.shiftLeft_eq, show (1#32).toNat = 1 from rfl, one_mul, Nat.mod_eq_of_lt hpow]
      rw [← hmask]
      exact BitVec.le_def.mp (BitVec.not_lt.mp h)
    have hge : 2 ^ k ≤ (ownSensitive keyItem bit).toNat :=
      Nat.ge_two_pow_of_testBit (by simpa [BitVec.testBit_toNat] using hset)
    exact absurd (hge.trans hle) (not_le.mpr (Nat.pow_lt_pow_right (by decide) hlt))

/-- Bits that need no flip are passed over. -/
theorem changeModifiers_of_le (m : KeyMap) (button : KeyButton) (group : Int)
    (notRequiredMask requiredState flipMask : KeyModifierMask) (st : ModifierState) {bit bits : Nat} (hle : bit ≤ bits)
    (h : ∀ k, bit ≤ k → k < bits → flipMask.getLsbD k = false) :
    m.changeModifiers button group notRequiredMask bits requiredState flipMask st =
      m.changeModifiers button group notRequiredMask bit requiredState flipMask st := by
  induction bits, hle using Nat.le_induction with
  | base => rfl
  | succ k hk ih =>
    rw [changeModifiers, h k hk (Nat.lt_succ_self k), ← ih fun i hi hlt => h i hi (Nat.lt_succ_of_lt hlt)]
    rfl

/-- What happens at one bit: nothing, an end without success, or the modifier is put right. -/
theorem changeModifiers_cases (m : KeyMap) (button : KeyButton) (group : Int) (notRequiredMask : KeyModifierMask)
    (bit : Nat) (requiredState flipMask : KeyModifierMask) (st : ModifierState) :
    m.changeModifiers button group notRequiredMask (bit + 1) requiredState flipMask st =
        m.changeModifiers button group notRequiredMask bit requiredState flipMask st ∨
      m.changeModifiers button group notRequiredMask (bit + 1) requiredState flipMask st = (st, false) ∨
      ∃ keyItem, flipMask.getLsbD bit = true ∧ m.keyForModifier button group bit = some keyItem ∧
        ¬ ownSensitive keyItem bit > 1#32 <<< bit ∧
        let r := m.changeOwn button group notRequiredMask bit (requiredState.getLsbD bit) keyItem st
        (m.changeModifiers button group notRequiredMask (bit + 1) requiredState flipMask st = (r.1, false) ∨
          m.changeModifiers button group notRequiredMask (bit + 1) requiredState flipMask st =
            m.changeModifiers button group notRequiredMask bit requiredState flipMask
              (m.addKeystrokes (if requiredState.getLsbD bit then .modify else .unmodify) keyItem r.1)) := by
  rw [changeModifiers]
  cases hflip : flipMask.getLsbD bit with
  | false => exact .inl (by simp)
  | true =>
    cases hkey : m.keyForModifier button group bit with
    | none =>
      cases hnot : notRequiredMask.getLsbD bit with
      | false => exact .inr (.inl (by simp))
      | true => exact .inl (by simp)
    | some keyItem =>
      by_cases hsens : ownSensitive keyItem bit > 1#32 <<< bit
      · exact .inr (.inl (by simp [hsens]))
      refine .inr (.inr ⟨keyItem, rfl, rfl, hsens, ?_⟩)
      simp only [hsens, if_false, Bool.not_true, Bool.false_eq_true, changeOwn]
      split_ifs <;> simp

/-- The table of modifier keys holds items of the map, each under a modifier that it generates. -/
def Finished (m : KeyMap) : Prop :=
  ∀ ⦃button group bit keyItem⦄, bit < kKeyModifierNumBits → m.keyForModifier button group bit = some keyItem →
    keyItem ∈ m.items ∧ keyItem.generates.getLsbD bit = true

private theorem mem_modifierItems {m : KeyMap} {group bit : Nat} {item : KeyItem}
    (h : item ∈ m.modifierItems group bit) : item ∈ m.items ∧ item.generates.getLsbD bit = true := by
  obtain ⟨e, he, h⟩ := List.mem_flatMap.mp h
  obtain ⟨entry, hentry, h⟩ := List.mem_filterMap.mp h
  have hlist : entry = [item] ∧ item.generates.getLsbD bit = true := by
    match entry, h with
    | [i], h =>
      simp only [modifierItem, Option.ite_none_right_eq_some, Option.some.injEq] at h
      exact ⟨by rw [h.2], h.2 ▸ h.1⟩
  refine ⟨List.mem_flatMap.mpr ⟨e, he, ?_⟩, hlist.2⟩
  cases hg : e.2[group]? with
  | none => simp [hg] at hentry
  | some entries =>
    have hentries : entry ∈ entries := by simpa [hg] using hentry
    exact List.mem_flatten.mpr
      ⟨entry, List.mem_flatten.mpr ⟨entries, List.mem_of_getElem? hg, hentries⟩, by simp [hlist.1]⟩

private theorem setModifierKeys_finished (m : KeyMap) : m.setModifierKeys.Finished := by
  intro button group bit keyItem hbit h
  simp only [keyForModifier, Option.ite_none_left_eq_some, not_lt] at h
  have hmem := List.mem_of_find?_eq_some h.2
  have hindex : (group * kKeyModifierNumBits + bit).toNat % kKeyModifierNumBits = bit := by
    simp only [kKeyModifierNumBits] at hbit h ⊢
    omega
  generalize (group * kKeyModifierNumBits + bit).toNat = index at hmem hindex
  by_cases hlt : index < kKeyModifierNumBits * m.m_numGroups
  · have hget : m.setModifierKeys.m_modifierKeys[index]? =
        some (m.modifierItems (index / kKeyModifierNumBits) (index % kKeyModifierNumBits)) := by
      simp [setModifierKeys, hlt]
    rw [hget, hindex] at hmem
    exact mem_modifierItems hmem
  · have hget : m.setModifierKeys.m_modifierKeys[index]? = none := by
      simp [setModifierKeys, not_lt.mp hlt]
    simp [hget] at hmem

theorem finish_finished (m : KeyMap) : m.finish.Finished :=
  setModifierKeys_finished _

theorem items_subset_setTable {m : KeyMap} {id : KeyID} {table : KeyGroupTable}
    (htable : ((m.m_keyIDMap.get? id).getD []).flatten.flatten ⊆ table.flatten.flatten) :
    m.items ⊆ (m.setTable id table).items := by
  intro item hmem
  obtain ⟨e, he, hitem⟩ := List.mem_flatMap.mp hmem
  have hput : ∀ v, (m.m_keyIDMap.put id table).get? e.1 = some v → item ∈ v.flatten.flatten →
      item ∈ (m.setTable id table).items := fun v hv hin =>
    let ⟨d, hd, hdv⟩ := ((m.m_keyIDMap.put id table).get?_eq_some_iff e.1 v).mp hv
    List.mem_flatMap.mpr ⟨(d, v), hd, hin⟩
  by_cases hid : e.1 = id
  · refine hput table (by simp [SortedMap.get?_put, hid]) (htable ?_)
    rw [← hid, m.m_keyIDMap.get?_of_mem he]
    exact hitem
  · refine hput e.2 ?_ hitem
    rw [SortedMap.get?_put, if_neg (Ne.symm hid), m.m_keyIDMap.get?_of_mem he]

theorem subset_modify_append (table : KeyGroupTable) (index : Nat) (entries : KeyEntryList) :
    table.flatten.flatten ⊆ (table.modify index (· ++ entries)).flatten.flatten := by
  intro item hitem
  obtain ⟨entry, hentry, hin⟩ := List.mem_flatten.mp hitem
  obtain ⟨group, hgroup, hmem⟩ := List.mem_flatten.mp hentry
  obtain ⟨i, hi⟩ := List.mem_iff_getElem?.mp hgroup
  refine List.mem_flatten.mpr ⟨entry, List.mem_flatten.mpr ?_, hin⟩
  by_cases hindex : index = i
  · exact ⟨group ++ entries, List.mem_of_getElem? (i := i) (by simp [hindex, hi]),
      List.mem_append_left _ hmem⟩
  · exact ⟨group, List.mem_of_getElem? (i := i) (by simp [hindex, hi]), hmem⟩

theorem subset_roomFor (m : KeyMap) (id : KeyID) (group : Int) :
    ((m.m_keyIDMap.get? id).getD []).flatten.flatten ⊆ (m.roomFor id group).flatten.flatten := by
  intro item hitem
  rw [roomFor, List.flatten_append, List.flatten_append]
  exact List.mem_append_left _ hitem

end KeyMap
end Synergy
