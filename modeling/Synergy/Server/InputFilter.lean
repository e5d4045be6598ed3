import Synergy.Base.Types

/-! Hotkey rules: conditions, actions, the vector that holds them and the
registrations that a primary client makes for them. -/
namespace Synergy

namespace InputFilter

inductive FilterStatus where
  | noMatch | activate | deactivate
  deriving DecidableEq, Repr

/-- A condition. Only a keystroke carries the id of its hotkey registration. -/
inductive Condition where
  | keystroke (id : Nat) (key : KeyID) (mask : KeyModifierMask)
  | mouseButton (button : ButtonID) (mask : KeyModifierMask)
  | screenConnected (screen : Str)
  deriving DecidableEq

/-- The modes off, on and toggle of the switching actions. -/
inductive Mode where
  | off | on | toggle
  deriving DecidableEq, Repr, Inhabited

inductive Action where
  | lockCursorToScreen (mode : Mode)
  | restartServer
  | switchToScreen (screen : Str)
  | switchInDirection (direction : Direction)
  | switchToNextScreen
  | keyboardBroadcast (mode : Mode) (screens : Str)
  | keystroke (keyInfo : KeyInfo) (press : Bool)
  | mouseButton (button : ButtonID) (mask : KeyModifierMask) (press : Bool)
  deriving DecidableEq

/-- The events a condition looks at; every other event matches nothing. -/
inductive FilterEvent where
  | hotkeyDown (id : Nat)
  | hotkeyUp (id : Nat)
  | buttonDown (button : ButtonID) (mask : KeyModifierMask)
  | buttonUp (button : ButtonID) (mask : KeyModifierMask)
  | serverConnected (screen : Str)
  | other
  deriving DecidableEq

namespace Condition

/-- A copy has the key and mask of the original but not its registration. -/
def clone : Condition → Condition
  | keystroke _ key mask => keystroke 0 key mask
  | c => c

/-- Modifiers that cannot be combined with a mouse button. -/
def ignoreMask : KeyModifierMask :=
  keyModifierAltGr ||| keyModifierCapsLock ||| keyModifierNumLock ||| keyModifierScrollLock

/-- Named `match` in the source. -/
def matchEvent (c : Condition) (event : FilterEvent) : FilterStatus :=
  match c, event with
  | keystroke id _ _, .hotkeyDown kid => if kid ≠ id then .noMatch else .activate
  | keystroke id _ _, .hotkeyUp kid => if kid ≠ id then .noMatch else .deactivate
  | mouseButton button mask, .buttonDown b m =>
    if b ≠ button ∨ m &&& ~~~ignoreMask ≠ mask then .noMatch else .activate
  | mouseButton button mask, .buttonUp b m =>
    if b ≠ button ∨ m &&& ~~~ignoreMask ≠ mask then .noMatch else .deactivate
  | screenConnected screen, .serverConnected s =>
    if screen = s ∨ screen.isEmpty then .activate else .noMatch
  | _, _ => .noMatch

end Condition

structure Rule where
  condition : Option Condition
  activateActions : List Action
  deactivateActions : List Action
  deriving DecidableEq

namespace Rule

/-- Copy construction and copy assignment: every part is cloned. -/
def copy (rule : Rule) : Rule := { rule with condition := rule.condition.map Condition.clone }

/-- The actions performed, or nothing when the event is not handled. -/
def handleEvent (rule : Rule) (event : FilterEvent) : Option (List Action) :=
  match rule.condition with
  | none => none
  | some c =>
    match c.matchEvent event with
    | .noMatch => none
    | .activate => some rule.activateActions
    | .deactivate => some rule.deactivateActions

/-- The id, key and mask of a keystroke rule. -/
def hotkey (rule : Rule) : Option (Nat × KeyID × KeyModifierMask) :=
  match rule.condition with
  | some (.keystroke id key mask) => some (id, key, mask)
  | _ => none

/-- The rule with the registration id of its keystroke replaced. -/
def setId (id : Nat) (rule : Rule) : Rule :=
  match rule.condition with
  | some (.keystroke _ key mask) => { rule with condition := some (.keystroke id key mask) }
  | _ => rule

theorem copy_eq_setId (rule : Rule) : rule.copy = rule.setId 0 := by
  obtain ⟨c, as, ds⟩ := rule
  rcases c with _ | c
  · rfl
  · cases c <;> rfl

@[simp] theorem hotkey_setId (id : Nat) (rule : Rule) :
    (rule.setId id).hotkey = rule.hotkey.map fun h => (id, h.2) := by
  obtain ⟨c, as, ds⟩ := rule
  rcases c with _ | c
  · rfl
  · cases c <;> rfl

end Rule

/-- A `std::vector<Rule>`: its elements and the room it has allocated. -/
structure RuleList where
  items : List Rule
  capacity : Nat
  size_le : items.length ≤ capacity

/-- How much room a full vector asks for; the standard leaves it to the library. -/
structure Growth where
  next : Nat → Nat
  grows : ∀ n, n < next n

def Growth.doubling : Growth := ⟨fun n => max 1 (2 * n), fun n => by omega⟩

namespace RuleList

def empty : RuleList := ⟨[], 0, Nat.le_refl _⟩

/-- `push_back`. A full vector moves to new storage, which copies its elements
because `Rule` has a copy constructor and no move constructor. -/
def pushBack (growth : Growth) (v : RuleList) (rule : Rule) : RuleList :=
  if h : v.items.length < v.capacity then
    ⟨v.items ++ [rule.copy], v.capacity, by simpa using Nat.succ_le_of_lt h⟩
  else
    ⟨v.items.map Rule.copy ++ [rule.copy], growth.next v.capacity, by
      have := growth.grows v.capacity
      have := v.size_le
      simp only [List.length_append, List.length_map, List.length_singleton]
      omega⟩

/-- `erase(begin() + index)`: the elements behind are copy assigned one place down. -/
def erase (v : RuleList) (index : Nat) : RuleList :=
  ⟨v.items.take index ++ (v.items.drop (index + 1)).map Rule.copy, v.capacity, by
    have := v.size_le
    simp only [List.length_append, List.length_take, List.length_map, List.length_drop]
    omega⟩

/-- Copy assignment: storage is reused when it is large enough. -/
def assign (v x : RuleList) : RuleList :=
  ⟨x.items.map Rule.copy, max v.capacity x.items.length, by simp⟩

theorem pushBack_ne_nil (growth : Growth) (v : RuleList) (rule : Rule) :
    (v.pushBack growth rule).items ≠ [] := by
  unfold pushBack
  split <;> simp

/-- Rewrite the elements in place. -/
def modify (v : RuleList) (items : List Rule) (h : items.length = v.items.length) : RuleList :=
  ⟨items, v.capacity, h ▸ v.size_le⟩

end RuleList
end InputFilter

end Synergy
