import Mathlib.Algebra.Order.BigOperators.Group.List
import Synergy.Lib.Trace
import Synergy.Server.InputFilter

/-! The input filter as an object: its rules, the primary client it filters for,
and the hotkeys that are registered with each primary client. -/
namespace Synergy
open Synergy.Lib InputFilter

/-- Address of a `PrimaryClient`. -/
abbrev PrimaryId := Nat

/-- How a platform picks the id of a new registration: never zero and never the
id of a live one. The first argument counts the registrations made so far. -/
structure HotKeyIds where
  pick : Nat → List Nat → Nat
  ne_zero : ∀ n live, pick n live ≠ 0
  not_mem : ∀ n live, pick n live ∉ live

/-- Ids counted up from the live ones. -/
def HotKeyIds.least : HotKeyIds where
  pick _ live := live.sum + 1
  ne_zero _ _ := Nat.succ_ne_zero _
  not_mem _ _ h := absurd (List.le_sum_of_mem h) (Nat.not_succ_le_self _)

/-- The hotkeys registered with one primary client. -/
structure Registrations where
  count : Nat
  live : List (Nat × KeyID × KeyModifierMask)

namespace Registrations

def empty : Registrations := ⟨0, []⟩

def liveIds (r : Registrations) : List Nat := r.live.map Prod.fst

def registerHotKey (ids : HotKeyIds) (r : Registrations) (key : KeyID) (mask : KeyModifierMask) :
    Registrations × Nat :=
  let id := ids.pick r.count r.liveIds
  (⟨r.count + 1, r.live ++ [(id, key, mask)]⟩, id)

def unregisterHotKey (r : Registrations) (id : Nat) : Registrations :=
  { r with live := r.live.filter fun x => x.1 ≠ id }

/-- `Rule::enable`. -/
def enable (ids : HotKeyIds) (r : Registrations) (rule : Rule) : Registrations × Rule :=
  match rule.hotkey with
  | none => (r, rule)
  | some (_, key, mask) =>
    let out := r.registerHotKey ids key mask
    (out.1, rule.setId out.2)

/-- `Rule::disable`. -/
def disable (r : Registrations) (rule : Rule) : Registrations × Rule :=
  match rule.hotkey with
  | none => (r, rule)
  | some (id, _, _) => (r.unregisterHotKey id, rule.setId 0)

def enableAll (ids : HotKeyIds) (r : Registrations) : List Rule → Registrations × List Rule
  | [] => (r, [])
  | rule :: rules =>
    let one := r.enable ids rule
    let rest := one.1.enableAll ids rules
    (rest.1, one.2 :: rest.2)

def disableAll (r : Registrations) : List Rule → Registrations × List Rule
  | [] => (r, [])
  | rule :: rules =>
    let one := r.disable rule
    let rest := one.1.disableAll rules
    (rest.1, one.2 :: rest.2)

@[simp] theorem length_enableAll (ids : HotKeyIds) (r : Registrations) (rules : List Rule) :
    (r.enableAll ids rules).2.length = rules.length := by
  induction rules generalizing r with
  | nil => rfl
  | cons rule rules ih => simp [enableAll, ih]

@[simp] theorem length_disableAll (r : Registrations) (rules : List Rule) :
    (r.disableAll rules).2.length = rules.length := by
  induction rules generalizing r with
  | nil => rfl
  | cons rule rules ih => simp [disableAll, ih]

end Registrations

/-- The rules and the primary client they are enabled for. -/
structure InputFilter where
  ruleList : RuleList
  primaryClient : Option PrimaryId

namespace InputFilter

/-- The first rule that handles the event performs its actions; an event that no
rule handles is passed through. -/
def handleEvent (f : InputFilter) (event : FilterEvent) : Option (List Action) :=
  f.ruleList.items.findSome? (·.handleEvent event)

end InputFilter

/-- A filter together with the hotkeys registered with every primary client. -/
structure HotkeyState where
  filter : InputFilter
  registrations : PrimaryId → Registrations

namespace HotkeyState
variable (ids : HotKeyIds) (growth : Growth)

def init : HotkeyState := ⟨⟨.empty, none⟩, fun _ => .empty⟩

def rules (s : HotkeyState) : List Rule := s.filter.ruleList.items

/-- The registrations that the keystroke rules refer to, in rule order. -/
def held (s : HotkeyState) : List (Nat × KeyID × KeyModifierMask) := s.rules.filterMap Rule.hotkey

/-- Disable every rule for the current primary client. -/
def detach (s : HotkeyState) : HotkeyState :=
  match s.filter.primaryClient with
  | none => s
  | some p =>
    let out := (s.registrations p).disableAll s.rules
    ⟨⟨s.filter.ruleList.modify out.2 (by simp [out, rules]), none⟩,
      Function.update s.registrations p out.1⟩

/-- Enable every rule for `client`. -/
def attach (s : HotkeyState) (client : Option PrimaryId) : HotkeyState :=
  match client with
  | none => ⟨⟨s.filter.ruleList, none⟩, s.registrations⟩
  | some p =>
    let out := (s.registrations p).enableAll ids s.rules
    ⟨⟨s.filter.ruleList.modify out.2 (by simp [out, rules]), some p⟩,
      Function.update s.registrations p out.1⟩

def setPrimaryClient (s : HotkeyState) (client : Option PrimaryId) : HotkeyState :=
  if s.filter.primaryClient = client then s else s.detach.attach ids client

def addFilterRule (s : HotkeyState) (rule : Rule) : HotkeyState :=
  let v := s.filter.ruleList.pushBack growth rule
  match s.filter.primaryClient with
  | none => ⟨⟨v, none⟩, s.registrations⟩
  | some p =>
    let back := (s.registrations p).enable ids (v.items.getLast (RuleList.pushBack_ne_nil _ _ _))
    ⟨⟨v.modify (v.items.dropLast ++ [back.2]) (by
        have := List.length_pos_of_ne_nil (RuleList.pushBack_ne_nil growth s.filter.ruleList rule)
        simp only [List.length_append, List.length_dropLast, List.length_singleton, v]
        omega), some p⟩,
      Function.update s.registrations p back.1⟩

def removeFilterRule (s : HotkeyState) (index : Nat) (h : index < s.rules.length) : HotkeyState :=
  match s.filter.primaryClient with
  | none => ⟨⟨s.filter.ruleList.erase index, none⟩, s.registrations⟩
  | some p =>
    ⟨⟨s.filter.ruleList.erase index, some p⟩,
      Function.update s.registrations p ((s.registrations p).disable s.rules[index]).1⟩

/-- Assignment from another filter. -/
def assign (s : HotkeyState) (x : InputFilter) : HotkeyState :=
  let old := s.filter.primaryClient
  let t := s.setPrimaryClient ids none
  setPrimaryClient ids ⟨⟨t.filter.ruleList.assign x.ruleList, t.filter.primaryClient⟩, t.registrations⟩ old

end HotkeyState

inductive FilterOp where
  | addFilterRule (rule : Rule)
  | removeFilterRule (index : Nat)
  | assign (x : InputFilter)
  | setPrimaryClient (client : Option PrimaryId)

/-- The operations on a filter. `removeFilterRule` takes the index of a rule. -/
def FilterOp.step (ids : HotKeyIds) (growth : Growth) (s : HotkeyState) (op : FilterOp) (t : HotkeyState) : Prop :=
  match op with
  | .addFilterRule rule => t = s.addFilterRule ids growth rule
  | .removeFilterRule index => ∃ h : index < s.rules.length, t = s.removeFilterRule index h
  | .assign x => t = s.assign ids x
  | .setPrimaryClient client => t = s.setPrimaryClient ids client

end Synergy
