import Mathlib.Data.Prod.Lex
import Synergy.Base.Types
import Synergy.Lib.IdPool
import Synergy.Lib.SortedMap
import Synergy.Lib.Trace

/-! What a screen promises of its hotkeys, whatever the platform: each registration
has an id of its own, and a key event is reported for the registrations it matches. -/
namespace Synergy.HotKeys
open Synergy.Lib

/-- A screen that hotkeys are registered with. `Answer` is what the system answers
to its calls, and `Press` is an event of the keyboard. -/
structure Screen (State Answer Press : Type) where
  registerHotKey : State → KeyID → KeyModifierMask → Answer → Nat × State
  unregisterHotKey : State → Nat → Answer → State
  /-- The id that the event is reported with. -/
  reports : State → Press → Option Nat
  /-- The system hands the event to the screen. -/
  delivers : State → Press → Prop
  Matches : KeyID → KeyModifierMask → Press → Prop

structure Registration where
  id : Nat
  key : KeyID
  mask : KeyModifierMask
  deriving DecidableEq

inductive Call (Answer : Type)
  | registerHotKey (key : KeyID) (mask : KeyModifierMask) (answer : Answer)
  | unregisterHotKey (id : Nat) (answer : Answer)

/-- A screen together with the registrations that its callers hold. -/
structure Held (State : Type) where
  screen : State
  live : List Registration

variable {State Answer Press : Type} (S : Screen State Answer Press)

/-- Id zero is the answer of a registration that failed. -/
def Held.call (h : Held State) : Call Answer → Held State
  | .registerHotKey key mask answer =>
    let (id, screen) := S.registerHotKey h.screen key mask answer
    ⟨screen, if id = 0 then h.live else ⟨id, key, mask⟩ :: h.live⟩
  | .unregisterHotKey id answer =>
    ⟨S.unregisterHotKey h.screen id answer, h.live.filter fun r => r.id ≠ id⟩

def CallStep (h : Held State) (c : Call Answer) (k : Held State) : Prop := k = h.call S c

/-- The live registrations have ids of their own, each works, and nothing else is
reported. -/
structure Independent (h : Held State) : Prop where
  distinct : (h.live.map Registration.id).Nodup
  works : ∀ r ∈ h.live, ∀ press, S.Matches r.key r.mask press →
    S.delivers h.screen press ∧ ∃ q ∈ h.live, S.Matches q.key q.mask press ∧ S.reports h.screen press = some q.id
  ends : ∀ press id, S.reports h.screen press = some id → ∃ r ∈ h.live, r.id = id ∧ S.Matches r.key r.mask press

/-- No other live registration is for an event that the registration to be removed is for. -/
def Apart (h : Held State) (id : Nat) : Prop :=
  ∀ r ∈ h.live, r.id = id → ∀ q ∈ h.live, q.id ≠ id → ∀ press, S.Matches r.key r.mask press →
    ¬ S.Matches q.key q.mask press

/-- The allowed modifiers of a hotkey. -/
def hotKeyModifiers : KeyModifierMask :=
  keyModifierShift ||| keyModifierControl ||| keyModifierAlt ||| keyModifierSuper

/-- The next id: the one returned last, or one more than there are registrations, as a `uint32_t`. -/
def chooseHotKeyID (size : Nat) (old : List Nat) : Nat × List Nat :=
  match old with
  | [] => ((size + 1) % 2 ^ 32, [])
  | id :: old => (id, old)

theorem chooseHotKeyID_eq {size : Nat} {old : List Nat} (h : old = [] → size + 1 < 2 ^ 32) :
    chooseHotKeyID size old = chooseId size old := by
  cases old with
  | nil => rw [chooseHotKeyID, chooseId, Nat.mod_eq_of_lt (h rfl)]
  | cons id old => rfl

/-- The table from ids to what is registered, together with the returned ids. -/
structure Tabled {ν : Type} (value : Registration → ν) (hotKeys : SortedMap (fun id : Nat => id) ν) (old : List Nat)
    (live : List Registration) : Prop where
  pooled : Pooled hotKeys.keys old
  distinct : (live.map Registration.id).Nodup
  stored : ∀ r ∈ live, (r.id, value r) ∈ hotKeys.entries
  named : ∀ e ∈ hotKeys.entries, ∃ r ∈ live, r.id = e.1

namespace Tabled
variable {ν : Type} {value : Registration → ν} {hotKeys : SortedMap (fun id : Nat => id) ν} {old : List Nat}
  {live : List Registration} {id : Nat} {v : ν}

theorem empty : Tabled value .empty [] [] :=
  ⟨.nil, List.nodup_nil, fun _ hr => absurd hr List.not_mem_nil, fun _ he => absurd he List.not_mem_nil⟩

/-- The id chosen is a new one, whether it is then used or given back. -/
theorem choose (h : Tabled value hotKeys old live) (hsize : old = [] → hotKeys.size + 1 < 2 ^ 32) :
    ∀ id old', chooseHotKeyID hotKeys.size old = (id, old') →
      0 < id ∧ hotKeys.contains id = false ∧
        (∀ r, r.id = id → Tabled value (hotKeys.insert id (value r)) old' (r :: live)) ∧
        Tabled value (hotKeys.erase id) (id :: old') live := by
  intro id old' hchoose
  have hlength : hotKeys.keys.length = hotKeys.size := List.length_map _
  have hpool := h.pooled.choose
  have hnew := h.pooled.choose_not_mem
  have hpos := h.pooled.choose_pos
  rw [chooseHotKeyID_eq hsize] at hchoose
  rw [hlength, hchoose] at hpool hnew hpos
  have habsent : hotKeys.contains id = false := by
    cases hc : hotKeys.contains id with
    | false => rfl
    | true => exact absurd ((SortedMap.contains_iff_keys _ id).mp hc) (by simpa using hnew)
  refine ⟨hpos, habsent, fun r hr => ⟨?_, ?_, ?_, ?_⟩, ?_⟩
  · exact hpool.perm (hotKeys.insert_perm _ habsent).symm
  · refine List.nodup_cons.mpr ⟨fun hmem => ?_, h.distinct⟩
    obtain ⟨q, hq, he⟩ := List.mem_map.mp hmem
    exact hnew ((he.trans hr) ▸ SortedMap.mem_keys_of_mem (h.stored q hq))
  · rintro q (_ | ⟨_, hq⟩)
    · exact (hotKeys.mem_insert habsent _).mpr (.inl (by rw [hr]))
    · exact (hotKeys.mem_insert habsent _).mpr (.inr (h.stored q hq))
  · intro e he
    rcases (hotKeys.mem_insert habsent e).mp he with rfl | he
    · exact ⟨r, List.mem_cons_self, hr⟩
    · obtain ⟨q, hq, hid⟩ := h.named e he
      exact ⟨q, List.mem_cons_of_mem _ hq, hid⟩
  · rw [hotKeys.erase_of_absent habsent]
    exact ⟨hpool.give_back, h.distinct, h.stored, h.named⟩

theorem filter_of_absent (h : Tabled value hotKeys old live) (hget : hotKeys.get? id = none) :
    live.filter (fun r => r.id ≠ id) = live := by
  refine List.filter_eq_self.mpr fun r hr => decide_eq_true fun hid => ?_
  have hstored := hotKeys.get?_of_mem (h.stored r hr)
  rw [hid, hget] at hstored
  cases hstored

/-- The id removed is that of one live registration. -/
theorem release (h : Tabled value hotKeys old live) (hget : hotKeys.get? id = some v) :
    (∃ r ∈ live, r.id = id) ∧ (∀ r ∈ live, r.id = id → value r = v) ∧
      Tabled value (hotKeys.erase id) (id :: old) (live.filter fun r => r.id ≠ id) := by
  obtain ⟨e, he, rfl⟩ := Option.map_eq_some_iff.mp hget
  obtain ⟨hentry, hid⟩ := (hotKeys.find?_eq_some_iff id e).mp he
  obtain ⟨k, v⟩ := e
  obtain rfl : k = id := hid
  have hmem : ∀ r, r ∈ live.filter (fun r => r.id ≠ k) ↔ r ∈ live ∧ r.id ≠ k := fun r => by simp
  refine ⟨h.named _ hentry, fun r hr hrk => ?_, ?_, ?_, fun r hr => ?_, fun e he => ?_⟩
  · exact congrArg Prod.snd (hotKeys.entry_unique (h.stored r hr) hentry hrk)
  · exact (h.pooled.perm (hotKeys.erase_perm hentry)).give_back
  · exact h.distinct.sublist (List.filter_sublist.map _)
  · obtain ⟨hr, hne⟩ := (hmem r).mp hr
    exact (hotKeys.mem_erase k _).mpr ⟨h.stored r hr, hne⟩
  · obtain ⟨he, hne⟩ := (hotKeys.mem_erase k e).mp he
    obtain ⟨r, hr, hrid⟩ := h.named e he
    exact ⟨r, (hmem r).mpr ⟨hr, hrid ▸ hne⟩, hrid⟩

end Tabled

/-- A key code, or a virtual key, and modifiers: the `HotKeyItem` of the screens for X and for Windows. -/
structure KeyItem where
  keycode : Nat
  mask : BitVec 32
  deriving DecidableEq

/-- The order of `HotKeyItem`. -/
def KeyItem.rank (item : KeyItem) : Nat ×ₗ Nat := toLex (item.keycode, item.mask.toNat)

theorem KeyItem.rank_inj {a b : KeyItem} (h : a.rank = b.rank) : a = b := by
  obtain ⟨hk, hm⟩ := Prod.mk.inj (toLex.injective h)
  obtain ⟨ka, ma⟩ := a
  obtain ⟨kb, mb⟩ := b
  rw [KeyItem.mk.injEq]
  exact ⟨hk, BitVec.eq_of_toNat_eq hm⟩

abbrev HotKeyToIDMap := SortedMap KeyItem.rank Nat

end Synergy.HotKeys
