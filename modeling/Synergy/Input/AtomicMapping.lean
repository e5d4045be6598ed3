import Mathlib.Data.Prod.Lex
import Synergy.Input.KeyMap

/-! Keys that cannot be mapped: when the state of the modifiers is as it was before the attempt. -/
namespace Synergy.KeyMap
open Synergy.Lib

/-- The modifiers after those to flip were put into the required state, as far as the masks tell;
none when one of them cannot be. -/
def setBits (m : KeyMap) (group : Int) :
    Nat → KeyModifierMask → KeyModifierMask → KeyModifierMask → Option KeyModifierMask
  | 0, _, _, currentState => some currentState
  | bit + 1, requiredState, flipMask, currentState =>
    if !flipMask.getLsbD bit then m.setBits group bit requiredState flipMask currentState
    else
      (m.keyForModifier 0 group bit).bind fun keyItem =>
        let sensitive := ownSensitive keyItem bit
        if sensitive > 1#32 <<< bit then none
        else
          (if requiredState.getLsbD bit then
            m.setBits group bit keyItem.required (flips currentState keyItem.required sensitive 0) currentState
          else some currentState).bind fun own =>
            if own &&& sensitive ≠ keyItem.required &&& sensitive then none
            else m.setBits group bit requiredState flipMask
              (if requiredState.getLsbD bit then own ||| keyItem.generates else own &&& ~~~keyItem.generates)

/-- The first modifier to put right cannot be: it has no key, depends on a higher one, is on its
way up with others in the wrong state, or the first of its own cannot be put right. -/
def stuck (m : KeyMap) (group : Int) : Nat → KeyModifierMask → KeyModifierMask → KeyModifierMask → Bool
  | 0, _, _, _ => false
  | bit + 1, requiredState, flipMask, currentState =>
    if !flipMask.getLsbD bit then m.stuck group bit requiredState flipMask currentState
    else
      match m.keyForModifier 0 group bit with
      | none => true
      | some keyItem =>
        let sensitive := ownSensitive keyItem bit
        sensitive > 1#32 <<< bit ||
          if requiredState.getLsbD bit then
            m.stuck group bit keyItem.required (flips currentState keyItem.required sensitive 0) currentState
          else currentState &&& sensitive ≠ keyItem.required &&& sensitive

/-- All modifiers that have to change can be changed, or the first one already cannot. -/
def allOrNothing (m : KeyMap) (group : Int) (requiredState sensitiveMask currentState : KeyModifierMask) : Bool :=
  let flipMask := flips currentState requiredState sensitiveMask 0
  (m.setBits group kKeyModifierNumBits requiredState flipMask currentState).isSome ||
    m.stuck group kKeyModifierNumBits requiredState flipMask currentState

@[simp] theorem addKeystrokes_modify_currentState (m : KeyMap) (keyItem : KeyItem) (st : ModifierState) :
    (m.addKeystrokes .modify keyItem st).currentState = st.currentState ||| keyItem.generates := rfl

@[simp] theorem addKeystrokes_unmodify_currentState (m : KeyMap) (keyItem : KeyItem) (st : ModifierState) :
    (m.addKeystrokes .unmodify keyItem st).currentState = st.currentState &&& ~~~keyItem.generates := rfl

/-- The masks tell how an attempt to put modifiers right comes out. -/
theorem changeModifiers_setBits (m : KeyMap) (group : Int) (bits : Nat) (requiredState flipMask : KeyModifierMask)
    (st : ModifierState) :
    m.setBits group bits requiredState flipMask st.currentState =
      if (m.changeModifiers 0 group 0 bits requiredState flipMask st).2 then
        some (m.changeModifiers 0 group 0 bits requiredState flipMask st).1.currentState
      else none := by
  induction bits generalizing requiredState flipMask st with
  | zero => rfl
  | succ bit ih =>
    rw [setBits, changeModifiers]
    cases hflip : flipMask.getLsbD bit with
    | false => simpa using ih requiredState flipMask st
    | true =>
      cases hkey : m.keyForModifier 0 group bit with
      | none => simp
      | some keyItem =>
        by_cases hsens : ownSensitive keyItem bit > 1#32 <<< bit
        · simp [hsens]
        cases hreq : requiredState.getLsbD bit with
        | false =>
          by_cases hown : st.currentState &&& ownSensitive keyItem bit = keyItem.required &&& ownSensitive keyItem bit
          · simpa [hsens, hown] using ih requiredState flipMask (m.addKeystrokes .unmodify keyItem st)
          · simp [hsens, hown]
        | true =>
          simp only [hsens, if_true, if_false, Bool.not_true, Bool.false_eq_true, Option.bind_some]
          rw [ih keyItem.required]
          generalize m.changeModifiers 0 group 0 bit keyItem.required
            (flips st.currentState keyItem.required (ownSensitive keyItem bit) 0) st = r
          obtain ⟨st1, ok⟩ := r
          cases ok with
          | false => simp
          | true =>
            by_cases hown : st1.currentState &&& ownSensitive keyItem bit = keyItem.required &&& ownSensitive keyItem bit
            · simpa [hown] using ih requiredState flipMask (m.addKeystrokes .modify keyItem st1)
            · simp [hown]

/-- How far an attempt has come: more keystrokes, or else fewer modifiers. -/
def progress (st : ModifierState) : Nat ×ₗ Natᵒᵈ :=
  toLex (st.keystrokes.length, OrderDual.toDual st.currentState.toNat)

private theorem modifierStrokes_ne_nil (m : KeyMap) (keyItem : KeyItem) (mods : ModifierToKeys) :
    0 < (m.modifierStrokes true keyItem mods).length := by
  rw [modifierStrokes]
  split_ifs <;> simp_all

private theorem toNat_clear_le (a b : KeyModifierMask) : (a &&& b).toNat ≤ a.toNat := by
  rw [BitVec.toNat_and]
  exact Nat.and_le_left

theorem progress_lt_modify (m : KeyMap) (keyItem : KeyItem) (st : ModifierState) :
    progress st < progress (m.addKeystrokes .modify keyItem st) := by
  refine Prod.Lex.toLex_lt_toLex.mpr (.inl ?_)
  have := modifierStrokes_ne_nil m keyItem st.activeModifiers
  simpa [addKeystrokes, ModifierState.emit, ModifierState.activate] using this

theorem progress_le_unmodify (m : KeyMap) (keyItem : KeyItem) (st : ModifierState) :
    progress st ≤ progress (m.addKeystrokes .unmodify keyItem st) := by
  have hkeys : (m.addKeystrokes .unmodify keyItem st).keystrokes =
      st.keystrokes ++ m.modifierStrokes false keyItem st.activeModifiers := rfl
  rw [progress, progress, Prod.Lex.toLex_le_toLex, hkeys, List.length_append]
  cases (m.modifierStrokes false keyItem st.activeModifiers).length with
  | zero => exact .inr ⟨by simp, toNat_clear_le _ _⟩
  | succ n => exact .inl (by simp)

/-- A modifier that was on goes off: if no button is released for it, the mask tells. -/
theorem progress_lt_unmodify (m : KeyMap) (keyItem : KeyItem) (st : ModifierState) {bit : Nat}
    (hgen : keyItem.generates.getLsbD bit = true) (hon : st.currentState.getLsbD bit = true) :
    progress st < progress (m.addKeystrokes .unmodify keyItem st) := by
  refine lt_of_le_of_ne (progress_le_unmodify m keyItem st) fun h => ?_
  have hcur : st.currentState = (m.addKeystrokes .unmodify keyItem st).currentState :=
    BitVec.eq_of_toNat_eq (OrderDual.toDual.injective (Prod.ext_iff.mp (toLex.injective h)).2)
  have hbit : (m.addKeystrokes .unmodify keyItem st).currentState.getLsbD bit = false := by
    simp [hgen]
  rw [← hcur, hon] at hbit
  cases hbit

/-- Putting modifiers right never undoes what an attempt did before. -/
theorem progress_le_changeModifiers (m : KeyMap) (group : Int) (bits : Nat)
    (requiredState flipMask : KeyModifierMask) (st : ModifierState) :
    progress st ≤ progress (m.changeModifiers 0 group 0 bits requiredState flipMask st).1 := by
  induction bits generalizing requiredState flipMask st with
  | zero => exact le_rfl
  | succ bit ih =>
    rcases m.changeModifiers_cases 0 group 0 bit requiredState flipMask st with h | h | ⟨keyItem, -, -, -, h⟩
    · rw [h]
      exact ih requiredState flipMask st
    · rw [h]
    · have hown : progress st ≤ progress (m.changeOwn 0 group 0 bit (requiredState.getLsbD bit) keyItem st).1 := by
        rw [changeOwn]
        split_ifs
        · exact ih keyItem.required _ st
        · exact le_rfl
      rcases h with h | h <;> rw [h]
      · exact hown
      · refine hown.trans (le_trans ?_ (ih requiredState flipMask _))
        split_ifs
        · exact (progress_lt_modify m keyItem _).le
        · exact progress_le_unmodify m keyItem _

private theorem stuck_of_key {m : KeyMap} {group : Int} {bit : Nat} {keyItem : KeyItem}
    {requiredState flipMask : KeyModifierMask} (currentState : KeyModifierMask)
    (hflip : flipMask.getLsbD bit = true) (hkey : m.keyForModifier 0 group bit = some keyItem) :
    m.stuck group (bit + 1) requiredState flipMask currentState =
      (ownSensitive keyItem bit > 1#32 <<< bit ||
        if requiredState.getLsbD bit then
          m.stuck group bit keyItem.required (flips currentState keyItem.required (ownSensitive keyItem bit) 0) currentState
        else currentState &&& ownSensitive keyItem bit ≠ keyItem.required &&& ownSensitive keyItem bit) := by
  rw [stuck, hflip, hkey]
  rfl

/-- Nothing has been done when the first modifier cannot be put right. -/
theorem changeModifiers_of_stuck (m : KeyMap) (group : Int) (bits : Nat) (requiredState flipMask : KeyModifierMask)
    (st : ModifierState) (h : m.stuck group bits requiredState flipMask st.currentState = true) :
    m.changeModifiers 0 group 0 bits requiredState flipMask st = (st, false) := by
  induction bits generalizing requiredState flipMask with
  | zero => cases h
  | succ bit ih =>
    rw [changeModifiers]
    cases hflip : flipMask.getLsbD bit with
    | false => simpa using ih requiredState flipMask (by simpa [stuck, hflip] using h)
    | true =>
      cases hkey : m.keyForModifier 0 group bit with
      | none => simp
      | some keyItem =>
        by_cases hsens : ownSensitive keyItem bit > 1#32 <<< bit
        · simp [hsens]
        rw [stuck_of_key _ hflip hkey] at h
        cases hreq : requiredState.getLsbD bit with
        | false =>
          have hown : st.currentState &&& ownSensitive keyItem bit ≠ keyItem.required &&& ownSensitive keyItem bit := by
            simpa [hsens, hreq] using h
          simp [hsens, hown]
        | true =>
          have hown := ih keyItem.required _ (by simpa only [hsens, hreq, decide_false, Bool.false_or, if_true] using h)
          simp only [hsens, if_true, if_false, Bool.not_true, Bool.false_eq_true]
          rw [hown]
          simp

theorem flips_zero (currentState requiredState sensitiveMask : KeyModifierMask) :
    flips currentState requiredState sensitiveMask 0 = (currentState ^^^ requiredState) &&& sensitiveMask :=
  BitVec.and_allOnes

private theorem flips_eq_of_getLsbD {currentState requiredState sensitiveMask : KeyModifierMask}
    (h : ∀ k, (flips currentState requiredState sensitiveMask 0).getLsbD k = false) :
    currentState &&& sensitiveMask = requiredState &&& sensitiveMask := by
  refine BitVec.eq_of_getLsbD_eq fun k hk => ?_
  have hbit := h k
  rw [flips_zero, BitVec.getLsbD_and, BitVec.getLsbD_xor] at hbit
  rw [BitVec.getLsbD_and, BitVec.getLsbD_and]
  revert hbit
  generalize currentState.getLsbD k = a
  generalize requiredState.getLsbD k = b
  generalize sensitiveMask.getLsbD k = c
  decide +revert

/-- Something has been done when there is a modifier to put right and the first one can be. -/
theorem progress_lt_of_not_stuck {m : KeyMap} (hm : m.Finished) (group : Int) {bits : Nat}
    (hbits : bits ≤ kKeyModifierNumBits) (requiredState flipMask : KeyModifierMask) (st : ModifierState)
    (hstuck : m.stuck group bits requiredState flipMask st.currentState = false)
    (hflip : ∃ k < bits, flipMask.getLsbD k = true)
    (hwrong : ∀ k, flipMask.getLsbD k = true → st.currentState.getLsbD k ≠ requiredState.getLsbD k) :
    progress st < progress (m.changeModifiers 0 group 0 bits requiredState flipMask st).1 := by
  induction bits generalizing requiredState flipMask st with
  | zero => exact absurd hflip (by simp)
  | succ bit ih =>
    have hbit : bit < kKeyModifierNumBits := hbits
    rw [changeModifiers]
    cases hat : flipMask.getLsbD bit with
    | false =>
      obtain ⟨k, hk, hset⟩ := hflip
      have hne : k ≠ bit := fun e => by rw [e, hat] at hset; cases hset
      simpa using ih hbit.le requiredState flipMask st (by simpa [stuck, hat] using hstuck) ⟨k, by omega, hset⟩ hwrong
    | true =>
      cases hkey : m.keyForModifier 0 group bit with
      | none =>
        rw [stuck, hat, hkey] at hstuck
        cases hstuck
      | some keyItem =>
        rw [stuck_of_key _ hat hkey, Bool.or_eq_false_iff] at hstuck
        have hsens : ¬ ownSensitive keyItem bit > 1#32 <<< bit := of_decide_eq_false hstuck.1
        replace hstuck := hstuck.2
        cases hreq : requiredState.getLsbD bit with
        | false =>
          -- on its way up: no other modifier is touched before it
          have hown : st.currentState &&& ownSensitive keyItem bit = keyItem.required &&& ownSensitive keyItem bit := by
            simpa [hreq] using hstuck
          have hon : st.currentState.getLsbD bit = true := by simpa [hreq] using hwrong bit hat
          simp only [hsens, hown, if_false, Bool.not_true, Bool.false_eq_true, ne_eq, not_true_eq_false]
          exact (progress_lt_unmodify m keyItem st (hm hbit hkey).2 hon).trans_le
            (progress_le_changeModifiers m group bit requiredState flipMask _)
        | true =>
          have hrec : m.stuck group bit keyItem.required
              (flips st.currentState keyItem.required (ownSensitive keyItem bit) 0) st.currentState = false := by
            simpa only [hreq, if_true] using hstuck
          simp only [hsens, if_true, if_false, Bool.not_true, Bool.false_eq_true]
          by_cases hown : ∃ k < bit, (flips st.currentState keyItem.required (ownSensitive keyItem bit) 0).getLsbD k = true
          · -- one of its own modifiers is the first
            have hlt := ih hbit.le keyItem.required _ st hrec hown fun k hk => flips_getLsbD_ne hk
            generalize m.changeModifiers 0 group 0 bit keyItem.required _ st = r at hlt
            split_ifs
            · exact hlt
            · exact hlt
            · exact hlt.trans ((progress_lt_modify m keyItem r.1).trans_le
                (progress_le_changeModifiers m group bit requiredState flipMask _))
          · have hnone : ∀ k, (flips st.currentState keyItem.required (ownSensitive keyItem bit) 0).getLsbD k = false := by
              intro k
              by_cases hk : bit ≤ k
              · rw [flips_zero, BitVec.getLsbD_and, ownSensitive_getLsbD hbit hsens hk, Bool.and_false]
              · exact Bool.eq_false_iff.mpr fun h => hown ⟨k, not_le.mp hk, h⟩
            rw [m.changeModifiers_of_le 0 group 0 keyItem.required _ st (Nat.zero_le bit) fun k _ _ => hnone k]
            simp only [changeModifiers, flips_eq_of_getLsbD hnone, Bool.not_true, Bool.false_eq_true, if_false,
              ne_eq, not_true_eq_false]
            exact (progress_lt_modify m keyItem st).trans_le
              (progress_le_changeModifiers m group bit requiredState flipMask _)

private theorem mapModifiers_iff {m : KeyMap} (hm : m.Finished) (group : Int)
    (requiredState sensitiveMask : KeyModifierMask) (st : ModifierState) :
    ((m.mapModifiers group requiredState sensitiveMask st).1 = none →
        (m.mapModifiers group requiredState sensitiveMask st).2 = st) ↔
      m.allOrNothing group requiredState sensitiveMask st.currentState = true := by
  have hmasks := m.changeModifiers_setBits group kKeyModifierNumBits requiredState
    (flips st.currentState requiredState sensitiveMask 0) st
  have hstuck := m.changeModifiers_of_stuck group kKeyModifierNumBits requiredState
    (flips st.currentState requiredState sensitiveMask 0) st
  have hmoved := progress_lt_of_not_stuck hm group le_rfl requiredState
    (flips st.currentState requiredState sensitiveMask 0) st
  have hnone := m.changeModifiers_of_le 0 group 0 requiredState
    (flips st.currentState requiredState sensitiveMask 0) st (Nat.zero_le kKeyModifierNumBits)
  rw [mapModifiers, keysForModifierState, allOrNothing, hmasks, Bool.or_eq_true]
  generalize m.changeModifiers 0 group 0 kKeyModifierNumBits requiredState
    (flips st.currentState requiredState sensitiveMask 0) st = r at hstuck hmoved hnone ⊢
  obtain ⟨st1, ok⟩ := r
  cases ok with
  | true => simp
  | false =>
    simp only [Bool.false_eq_true, if_false, forall_const, Option.isSome_none, false_or]
    constructor
    · rintro rfl
      by_contra hnot
      by_cases hflip : ∃ k < kKeyModifierNumBits,
          (flips st1.currentState requiredState sensitiveMask 0).getLsbD k = true
      · exact lt_irrefl _ (hmoved (Bool.eq_false_iff.mpr hnot) hflip fun k hk => flips_getLsbD_ne hk)
      · have := hnone fun k _ hk => Bool.eq_false_iff.mpr fun h => hflip ⟨k, hk, h⟩
        cases this
    · intro h
      cases hstuck h
      rfl

/-- An attempt that is given up leaves the modifiers alone. -/
theorem typeItems_none {m : KeyMap} {itemList : KeyItemList} {keyItem : KeyItem} {group : Int}
    {desiredMask overrideModifiers : KeyModifierMask} {isAutoRepeat : Bool} {lang : Str} {st : ModifierState}
    (h : (m.typeItems itemList keyItem group desiredMask overrideModifiers isAutoRepeat lang st).1 = none) :
    (m.typeItems itemList keyItem group desiredMask overrideModifiers isAutoRepeat lang st).2 =
      { st with keystrokes := [] } := by
  simp only [typeItems] at h ⊢
  split_ifs at h ⊢
  rfl

private theorem mapCharacterKey_none {m : KeyMap} {id : KeyID} {group : Int} {desiredMask : KeyModifierMask}
    {isAutoRepeat : Bool} {lang : Str} {st : ModifierState} (hkeys : st.keystrokes = [])
    (h : (m.mapCharacterKey id group desiredMask isAutoRepeat lang st).1 = none) :
    (m.mapCharacterKey id group desiredMask isAutoRepeat lang st).2 = st := by
  have hst : { st with keystrokes := [] } = st := by rw [← hkeys]
  rw [mapCharacterKey] at h ⊢
  cases hid : m.m_keyIDMap.get? id with
  | none => rfl
  | some table =>
    cases hlist : m.getKeyItemList table (m.getLanguageGroupID group lang) desiredMask with
    | none => simp [hlist]
    | some itemList =>
      cases hlast : itemList.getLast? with
      | none => simp [hlist, hlast]
      | some keyItem =>
        simp only [hid, hlist, hlast] at h ⊢
        rw [typeItems_none h, hst]

private theorem mapCommandKey_none {m : KeyMap} {id : KeyID} {group : Int} {desiredMask : KeyModifierMask}
    {isAutoRepeat : Bool} {lang : Str} {st : ModifierState} (hkeys : st.keystrokes = [])
    (h : (m.mapCommandKey id group desiredMask isAutoRepeat lang st).1 = none) :
    (m.mapCommandKey id group desiredMask isAutoRepeat lang st).2 = st := by
  have hst : { st with keystrokes := [] } = st := by rw [← hkeys]
  rw [mapCommandKey] at h ⊢
  cases hid : m.m_keyIDMap.get? id with
  | none => rfl
  | some table =>
    cases hitem : m.findCommandItem table group desiredMask with
    | none => simp [hitem]
    | some keyItem =>
      simp only [hid, hitem] at h ⊢
      rw [typeItems_none h, hst]

/-- A key that cannot be mapped, a change of the group apart, leaves the modifiers as they were and
no keystrokes behind. -/
def AtomicOnFailure (m : KeyMap) (id : KeyID) (group : Int) (desiredMask : KeyModifierMask) (isAutoRepeat : Bool)
    (lang : Str) (activeModifiers : ModifierToKeys) (currentState : KeyModifierMask) : Prop :=
  let r := m.mapKey id group desiredMask isAutoRepeat lang ⟨activeModifiers, currentState, []⟩
  r.1 = none → id ≠ kKeyNextGroup → id ≠ kKeyPrevGroup →
    r.2.activeModifiers = activeModifiers ∧ r.2.currentState = currentState ∧ r.2.keystrokes = []

/-- Only setting and clearing modifiers can fail halfway: unless all of them can be changed, or the
first already cannot. -/
theorem mapKey_atomic_iff {m : KeyMap} (hm : m.Finished) (id : KeyID) (group : Int) (desiredMask : KeyModifierMask)
    (isAutoRepeat : Bool) (lang : Str) (activeModifiers : ModifierToKeys) (currentState : KeyModifierMask) :
    m.AtomicOnFailure id group desiredMask isAutoRepeat lang activeModifiers currentState ↔
      (id = kKeySetModifiers → m.allOrNothing group desiredMask desiredMask currentState = true) ∧
      (id = kKeyClearModifiers →
        m.allOrNothing group (currentState &&& ~~~desiredMask) desiredMask currentState = true) := by
  have hst : ∀ st : ModifierState, st = ⟨activeModifiers, currentState, []⟩ ↔
      st.activeModifiers = activeModifiers ∧ st.currentState = currentState ∧ st.keystrokes = [] := fun st => by
    cases st
    simp
  simp only [AtomicOnFailure, ← hst]
  by_cases hset : id = kKeySetModifiers
  · have hids : kKeySetModifiers ≠ kKeyNextGroup ∧ kKeySetModifiers ≠ kKeyPrevGroup ∧
        kKeySetModifiers ≠ kKeyClearModifiers := by decide
    have hset' : m.mapKey kKeySetModifiers group desiredMask isAutoRepeat lang ⟨activeModifiers, currentState, []⟩ =
        m.mapModifiers group desiredMask desiredMask ⟨activeModifiers, currentState, []⟩ := rfl
    subst hset
    rw [hset', ← mapModifiers_iff hm group desiredMask desiredMask ⟨activeModifiers, currentState, []⟩]
    simp [hids]
  by_cases hclear : id = kKeyClearModifiers
  · have hids : kKeyClearModifiers ≠ kKeyNextGroup ∧ kKeyClearModifiers ≠ kKeyPrevGroup ∧
        kKeyClearModifiers ≠ kKeySetModifiers := by decide
    subst hclear
    have hclear' : m.mapKey kKeyClearModifiers group desiredMask isAutoRepeat lang ⟨activeModifiers, currentState, []⟩ =
        m.mapModifiers group (currentState &&& ~~~desiredMask) desiredMask ⟨activeModifiers, currentState, []⟩ := rfl
    rw [hclear', ← mapModifiers_iff hm group (currentState &&& ~~~desiredMask) desiredMask
      ⟨activeModifiers, currentState, []⟩]
    simp [hids]
  refine iff_of_true (fun hnone hnext hprev => ?_) ⟨fun h => absurd h hset, fun h => absurd h hclear⟩
  simp only [mapKey, hnext, hprev, hset, hclear, if_false] at hnone ⊢
  split_ifs at hnone ⊢
  · exact mapCharacterKey_none rfl hnone
  · exact mapCommandKey_none rfl hnone
  · exact mapCharacterKey_none rfl hnone

/-- A keyboard without a shift key. -/
def noShift : KeyMap :=
  ((KeyMap.empty .other).addKeyEntry
    { id := kKeyAltGr, group := 0, button := 108, required := 0, sensitive := 0, generates := keyModifierAltGr,
      dead := false, lock := false, client := 0 }).finish

theorem mapKey_atomic_iff_noShift :
    noShift.AtomicOnFailure kKeySetModifiers 0 (keyModifierShift ||| keyModifierCapsLock) false [] .empty 0 :=
  (mapKey_atomic_iff (finish_finished _) ..).mpr ⟨fun _ => by decide, fun h => by cases h⟩

/-- AltGr stays down when shift cannot be pressed after it. -/
theorem altGr_left_behind :
    ¬ ∀ m : KeyMap, m.Finished → ∀ id group desiredMask isAutoRepeat lang activeModifiers currentState,
      m.AtomicOnFailure id group desiredMask isAutoRepeat lang activeModifiers currentState := by
  intro h
  have hnone := h noShift (finish_finished _) kKeySetModifiers 0 (keyModifierShift ||| keyModifierAltGr) false [] .empty 0
    (by decide) (by decide) (by decide)
  exact absurd hnone.2.1 (by decide)

end Synergy.KeyMap
