import Synergy.Input.KeyMap
import Synergy.Lib.Trace

/-! The key state of a screen that is controlled from the server: which keys were pressed on behalf
of which keys of the server. -/
namespace Synergy
open Synergy.Lib

def s_numButtons : Nat := 0x200

def kButtonMask : KeyButton := 0x1ff

/-- The tables are indexed with buttons of 16 bits; they have `s_numButtons` entries, and what is
past them is other memory. -/
structure KeyState where
  m_keyMap : KeyMap
  m_mask : KeyModifierMask
  m_activeModifiers : ModifierToKeys
  m_keys : KeyButton → Int
  m_syntheticKeys : KeyButton → Int
  m_keyClientData : KeyButton → Nat
  m_serverKeys : KeyButton → KeyButton
  m_isLangSyncEnabled : Bool

/-- What a call leaves behind: the state, the value returned (true where there is none), the entries
of `m_serverKeys` that were read or written, and the keystrokes given to `fakeKey`. -/
structure KeyResult where
  state : KeyState
  returned : Bool
  serverKeys : List KeyButton
  fakes : List Keystroke

namespace KeyState

/-- The state before any key, with a keyboard map. -/
def init (keyMap : KeyMap) (isLangSyncEnabled : Bool) : KeyState :=
  { m_keyMap := keyMap, m_mask := 0, m_activeModifiers := .empty, m_keys := fun _ => 0, m_syntheticKeys := fun _ => 0,
    m_keyClientData := fun _ => 0, m_serverKeys := fun _ => 0, m_isLangSyncEnabled := isLangSyncEnabled }

def isIgnoredKey (key : KeyID) : Bool := key = kKeyCapsLock || key = kKeyNumLock || key = kKeyScrollLock

/-- A keystroke of a key that is held. -/
def isRepeat : Keystroke → Bool
  | .button _ _ autorepeat _ => autorepeat
  | .group .. => false

/-- A keystroke that is not left out: changes of the group are, without the sync of languages. -/
def isFaked (isLangSyncEnabled : Bool) : Keystroke → Bool
  | .button .. => true
  | .group _ _ restore => !restore && isLangSyncEnabled

/-- Runs of repeated keystrokes are sent `count` times; the count is used up by the first of them
and wraps around. -/
def fakeRuns (isLangSyncEnabled : Bool) (count : Nat) (keys : List Keystroke) : List Keystroke :=
  match keys with
  | [] => []
  | k :: ks =>
    if isRepeat k then
      (List.replicate count (k :: ks.takeWhile isRepeat)).flatten ++
        fakeRuns isLangSyncEnabled (2 ^ 32 - 1) (ks.dropWhile isRepeat)
    else if isFaked isLangSyncEnabled k then k :: fakeRuns isLangSyncEnabled count ks
    else fakeRuns isLangSyncEnabled count ks
termination_by keys.length
decreasing_by
  · have := (List.dropWhile_suffix isRepeat (l := ks)).length_le
    simp only [List.length_cons]
    omega
  · simp
  · simp

def fakeKeys (s : KeyState) (keys : List Keystroke) (count : Nat) : List Keystroke :=
  if count = 0 then [] else fakeRuns s.m_isLangSyncEnabled count keys

/-- Note the modifier keys that went up or down, other than the given button. -/
def updateModifierKeyState (s : KeyState) (button : KeyButton) (oldModifiers newModifiers : ModifierToKeys) :
    KeyState :=
  let released (b : KeyButton) : Bool := b ≠ button && oldModifiers.buttons.contains b && !newModifiers.buttons.contains b
  let pressed (b : KeyButton) : Bool := b ≠ button && newModifiers.buttons.contains b && !oldModifiers.buttons.contains b
  let count (keys : KeyButton → Int) (b : KeyButton) : Int := if released b then 0 else if pressed b then 1 else keys b
  { s with
    m_keys := count s.m_keys
    m_syntheticKeys := count s.m_syntheticKeys
    m_keyClientData := fun b =>
      if pressed b then ((newModifiers.entries.find? (·.2.button = b)).map (·.2.client)).getD 0
      else s.m_keyClientData b }

/-- Note that a key is down on behalf of a key of the server. -/
def noteKeyDown (s : KeyState) (localID serverID : KeyButton) (client : Nat) : KeyState :=
  { s with
    m_keys := Function.update s.m_keys localID (s.m_keys localID + 1)
    m_syntheticKeys := Function.update s.m_syntheticKeys localID (s.m_syntheticKeys localID + 1)
    m_keyClientData := Function.update s.m_keyClientData localID client
    m_serverKeys := Function.update s.m_serverKeys serverID localID }

def noteKeyUp (s : KeyState) (localID : KeyButton) : KeyState :=
  { s with
    m_keys := Function.update s.m_keys localID (s.m_keys localID - 1)
    m_syntheticKeys := Function.update s.m_syntheticKeys localID (s.m_syntheticKeys localID - 1) }

/-- Map a key, on the state of the modifiers. -/
def mapKey (s : KeyState) (id : KeyID) (group : Int) (mask : KeyModifierMask) (isAutoRepeat : Bool) (lang : Str) :
    Option KeyItem × KeyState × List Keystroke :=
  let r := s.m_keyMap.mapKey id group mask isAutoRepeat lang ⟨s.m_activeModifiers, s.m_mask, []⟩
  (r.1, { s with m_activeModifiers := r.2.activeModifiers, m_mask := r.2.currentState }, r.2.keystrokes)

/-- The keystrokes of a repeat for a key that was pressed with another button. -/
def withButton (localID oldLocalID : KeyButton) : List Keystroke → List Keystroke
  | [] => []
  | .button b press autorepeat client :: keys =>
    if b = localID then .button oldLocalID press autorepeat client :: keys
    else .button b press autorepeat client :: withButton localID oldLocalID keys
  | k :: keys => k :: withButton localID oldLocalID keys

/-- The active group is what the platform says it is at the time of the call. -/
def fakeKeyRepeat (s : KeyState) (id : KeyID) (mask : KeyModifierMask) (count : Int) (serverID : KeyButton)
    (lang : Str) (activeGroup : Int) : KeyResult :=
  let serverID := serverID &&& kButtonMask
  let oldLocalID := s.m_serverKeys serverID
  if oldLocalID = 0 then ⟨s, false, [serverID], []⟩
  else
    let r := s.mapKey id activeGroup mask true lang
    match r.1 with
    | none => ⟨r.2.1, false, [serverID], []⟩
    | some keyItem =>
      let localID := keyItem.button &&& kButtonMask
      if localID = 0 then ⟨r.2.1, false, [serverID], []⟩
      else
        let count := (count % 2 ^ 32).toNat
        if localID = oldLocalID then ⟨r.2.1, true, [serverID], s.fakeKeys r.2.2 count⟩
        else
          let s' := ((r.2.1.noteKeyUp oldLocalID).updateModifierKeyState localID s.m_activeModifiers
            r.2.1.m_activeModifiers).noteKeyDown localID serverID keyItem.client
          ⟨s', true, [serverID, serverID], s.fakeKeys (withButton localID oldLocalID r.2.2) count⟩

/-- A media key that cannot be mapped is left to the platform. -/
def fakeKeyDown (s : KeyState) (id : KeyID) (mask : KeyModifierMask) (serverID : KeyButton) (lang : Str)
    (activeGroup : Int) : KeyResult :=
  let serverID := serverID &&& kButtonMask
  if s.m_serverKeys serverID ≠ 0 then
    let r := s.fakeKeyRepeat id mask 1 serverID lang activeGroup
    { r with returned := true, serverKeys := serverID :: r.serverKeys }
  else if isIgnoredKey id then ⟨s, true, [serverID], []⟩
  else
    let r := s.mapKey id activeGroup mask false lang
    match r.1 with
    | none => ⟨r.2.1, true, [serverID], []⟩
    | some keyItem =>
      let localID := keyItem.button &&& kButtonMask
      let s' := r.2.1.updateModifierKeyState localID s.m_activeModifiers r.2.1.m_activeModifiers
      if localID = 0 then ⟨s', true, [serverID], s.fakeKeys r.2.2 1⟩
      else ⟨s'.noteKeyDown localID serverID keyItem.client, true, [serverID, serverID], s.fakeKeys r.2.2 1⟩

/-- The modifiers of a button that is up again go off, unless they lock. -/
def releaseModifiers (localID : KeyButton) : List (KeyModifierMask × KeyItem) → KeyState → KeyState
  | [], s => s
  | e :: es, s =>
    releaseModifiers localID es
      (if e.2.button = localID && !e.2.lock then
        let active := s.m_activeModifiers.eraseFirst e.1 fun item => item.button = localID && !item.lock
        { s with
          m_activeModifiers := active
          m_mask := if active.contains e.1 then s.m_mask else s.m_mask &&& ~~~e.1 }
      else s)

def fakeKeyUp (s : KeyState) (serverID : KeyButton) : KeyResult :=
  let localID := s.m_serverKeys (serverID &&& kButtonMask)
  if localID = 0 then ⟨s, false, [serverID &&& kButtonMask], []⟩
  else
    let s' := s.noteKeyUp localID
    let s' := { s' with m_serverKeys := Function.update s'.m_serverKeys serverID 0 }
    ⟨releaseModifiers localID s'.m_activeModifiers.entries s', true, [serverID &&& kButtonMask, serverID],
      s.fakeKeys [.button localID false false (s.m_keyClientData localID)] 1⟩

end KeyState
end Synergy

/-! The table of the server's keys: which of its entries the calls use, whatever buttons come in. -/
namespace Synergy
open Synergy.Lib

/-- A call from the server's messages, with the group that is active on the screen. -/
inductive KeyCall
  | down (id : KeyID) (mask : KeyModifierMask) (serverID : KeyButton) (lang : Str) (activeGroup : Int)
  | again (id : KeyID) (mask : KeyModifierMask) (count : Int) (serverID : KeyButton) (lang : Str) (activeGroup : Int)
  | up (serverID : KeyButton)

namespace KeyState

def call (s : KeyState) : KeyCall → KeyResult
  | .down id mask serverID lang activeGroup => s.fakeKeyDown id mask serverID lang activeGroup
  | .again id mask count serverID lang activeGroup => s.fakeKeyRepeat id mask count serverID lang activeGroup
  | .up serverID => s.fakeKeyUp serverID

def next (s : KeyState) (c : KeyCall) : KeyState := (s.call c).state

/-- Every access is in the table, and a release that succeeds clears its own entry and no other, so
that the same release does not succeed again. -/
def StaysInTable (s : KeyState) (c : KeyCall) : Prop :=
  (∀ i ∈ (s.call c).serverKeys, i.toNat < s_numButtons) ∧
  ∀ b, c = .up b → (s.call c).returned = true →
    (s.next c).m_serverKeys (b &&& kButtonMask) = 0 ∧
    (∀ i, i.toNat < s_numButtons → i ≠ b &&& kButtonMask → (s.next c).m_serverKeys i = s.m_serverKeys i) ∧
    ((s.next c).fakeKeyUp b).returned = false

/-- A release is of a button in the table, or of one whose entry is clear. -/
def ReleaseFits (s : KeyState) : KeyCall → Prop
  | .up b => b.toNat < s_numButtons ∨ s.m_serverKeys (b &&& kButtonMask) = 0
  | _ => True

theorem toNat_mask_lt (b : KeyButton) : (b &&& kButtonMask).toNat < s_numButtons := by
  rw [BitVec.toNat_and]
  exact Nat.lt_succ_of_le Nat.and_le_right

theorem mask_of_lt {b : KeyButton} (h : b.toNat < s_numButtons) : b &&& kButtonMask = b := by
  refine BitVec.eq_of_toNat_eq ?_
  rw [BitVec.toNat_and]
  exact Nat.and_two_pow_sub_one_of_lt_two_pow (n := 9) h

@[simp] theorem mask_mask (b : KeyButton) : b &&& kButtonMask &&& kButtonMask = b &&& kButtonMask :=
  mask_of_lt (toNat_mask_lt b)

@[simp] theorem releaseModifiers_serverKeys (localID : KeyButton) (es : List (KeyModifierMask × KeyItem)) (s : KeyState) :
    (releaseModifiers localID es s).m_serverKeys = s.m_serverKeys := by
  induction es generalizing s with
  | nil => rfl
  | cons e es ih =>
    rw [releaseModifiers, ih]
    split_ifs <;> rfl

/-- A repeat uses the masked entry only. -/
theorem fakeKeyRepeat_serverKeys (s : KeyState) (id : KeyID) (mask : KeyModifierMask) (count : Int)
    (serverID : KeyButton) (lang : Str) (activeGroup : Int) :
    ∀ i ∈ (s.fakeKeyRepeat id mask count serverID lang activeGroup).serverKeys, i = serverID &&& kButtonMask := by
  rw [fakeKeyRepeat]
  dsimp only
  split_ifs
  · simp
  · cases (s.mapKey id activeGroup mask true lang).1 with
    | none => simp
    | some keyItem =>
      dsimp only
      split_ifs <;> simp

/-- A press uses the masked entry only. -/
theorem fakeKeyDown_serverKeys (s : KeyState) (id : KeyID) (mask : KeyModifierMask) (serverID : KeyButton)
    (lang : Str) (activeGroup : Int) :
    ∀ i ∈ (s.fakeKeyDown id mask serverID lang activeGroup).serverKeys, i = serverID &&& kButtonMask := by
  rw [fakeKeyDown]
  dsimp only
  split_ifs
  · intro i hi
    rcases List.mem_cons.mp hi with rfl | hi
    · rfl
    · simpa using s.fakeKeyRepeat_serverKeys id mask 1 (serverID &&& kButtonMask) lang activeGroup i hi
  · simp
  · cases (s.mapKey id activeGroup mask false lang).1 with
    | none => simp
    | some keyItem =>
      dsimp only
      split_ifs <;> simp

theorem staysInTable_up_iff (s : KeyState) (b : KeyButton) : s.StaysInTable (.up b) ↔ s.ReleaseFits (.up b) := by
  by_cases hclear : s.m_serverKeys (b &&& kButtonMask) = 0
  · have hup : s.call (.up b) = ⟨s, false, [b &&& kButtonMask], []⟩ := by rw [call, fakeKeyUp, if_pos hclear]
    refine iff_of_true ⟨fun i hi => ?_, fun b' hb hret => ?_⟩ (.inr hclear)
    · rw [hup, List.mem_singleton] at hi
      exact hi ▸ toNat_mask_lt b
    · rw [hup] at hret
      cases hret
  · have hkeys : (s.next (.up b)).m_serverKeys = Function.update s.m_serverKeys b 0 := by
      rw [next, call, fakeKeyUp, if_neg hclear, releaseModifiers_serverKeys]
      rfl
    have haccess : (s.call (.up b)).serverKeys = [b &&& kButtonMask, b] := by rw [call, fakeKeyUp, if_neg hclear]
    constructor
    · intro h
      exact .inl (h.1 b (by simp [haccess]))
    · intro h
      have hlt : b.toNat < s_numButtons := h.resolve_right hclear
      refine ⟨fun i hi => ?_, fun b' hb _ => ?_⟩
      · rw [haccess, mask_of_lt hlt, List.mem_pair, or_self] at hi
        exact hi ▸ hlt
      · cases hb
        have hself : (s.next (.up b)).m_serverKeys b = 0 := by rw [hkeys, Function.update_self]
        rw [mask_of_lt hlt]
        refine ⟨hself, fun i _ hi => ?_, ?_⟩
        · rw [hkeys, Function.update_of_ne hi]
        · rw [fakeKeyUp, mask_of_lt hlt, if_pos hself]

theorem staysInTable_iff (s : KeyState) (c : KeyCall) : s.StaysInTable c ↔ s.ReleaseFits c := by
  cases c with
  | down id mask serverID lang activeGroup =>
    refine iff_of_true ⟨fun i hi => ?_, fun b hb => by cases hb⟩ trivial
    rw [s.fakeKeyDown_serverKeys id mask serverID lang activeGroup i hi]
    exact toNat_mask_lt serverID
  | again id mask count serverID lang activeGroup =>
    refine iff_of_true ⟨fun i hi => ?_, fun b hb => by cases hb⟩ trivial
    rw [s.fakeKeyRepeat_serverKeys id mask count serverID lang activeGroup i hi]
    exact toNat_mask_lt serverID
  | up b => exact s.staysInTable_up_iff b

/-- Over a run, the calls stay in the table exactly as long as the releases fit. -/
theorem server_keys_in_table_iff (s : KeyState) (cs : List KeyCall) :
    EachStep (fun s c _ => s.StaysInTable c) s (runTrace next s cs) ↔
      EachStep (fun s c _ => s.ReleaseFits c) s (runTrace next s cs) :=
  ⟨EachStep.imp fun s c _ => (s.staysInTable_iff c).mp, EachStep.imp fun s c _ => (s.staysInTable_iff c).mpr⟩

/-- A keyboard with one key. -/
def oneKey : KeyMap :=
  ((KeyMap.empty .other).addKeyEntry
    { id := 0x61, group := 0, button := 38, required := 0, sensitive := 0, generates := 0, dead := false, lock := false,
      client := 0 }).finish

/-- The release of a button above the table is written past it, and can be made again. -/
theorem button_above_table_not_released :
    ¬ ∀ keyMap isLangSyncEnabled cs,
      EachStep (fun s c _ => s.StaysInTable c) (init keyMap isLangSyncEnabled)
        (runTrace next (init keyMap isLangSyncEnabled) cs) := by
  intro h
  have hup := (h oneKey true [.down 0x61 0 0x201 [] 0, .up 0x201]).2.1
  exact absurd (hup.1 0x201 (by decide)) (by decide)

end KeyState
end Synergy
