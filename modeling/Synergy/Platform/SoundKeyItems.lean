import Synergy.Platform.SelectedKeysyms

/-! The items of the keyboard map of an X server, and when each of them types the key that it is for. -/
namespace Synergy
open Synergy.Lib

namespace Keysyms
variable {t : KeySymTables} {k : Keysyms}

/-- The sensitivity of a key without keypad symbols. -/
def sensitivity (toAltGr toCapsLock toShift : Bool) : KeyModifierMask :=
  (if toAltGr then keyModifierAltGr else 0) ||| (if toCapsLock then keyModifierCapsLock else 0) |||
    (if toShift then keyModifierShift else 0)

/-- The states that agree with a level in what the key is sensitive to. -/
theorem stateMask_agrees : ∀ toAltGr toCapsLock toShift shift altGr shift' altGr' : Bool,
    stateMask shift' altGr' &&& sensitivity toAltGr toCapsLock toShift =
        stateMask shift altGr &&& sensitivity toAltGr toCapsLock toShift &&& sensitivity toAltGr toCapsLock toShift ↔
      (toShift = true → shift' = shift) ∧ (toAltGr = true → altGr' = altGr) := by
  decide

theorem stateMask_capsLock : ∀ toAltGr toCapsLock toShift shift altGr : Bool,
    stateMask shift altGr &&& sensitivity toAltGr toCapsLock toShift &&& keyModifierCapsLock = 0 := by
  decide

theorem withoutShift_required : ∀ toAltGr toShift altGr : Bool,
    (stateMask true altGr &&& ~~~keyModifierShift ||| keyModifierCapsLock) &&& sensitivity toAltGr false toShift =
      stateMask false altGr &&& sensitivity toAltGr false toShift := by
  decide

theorem withoutShift_capsLock : ∀ toAltGr toShift altGr : Bool,
    (stateMask true altGr &&& ~~~keyModifierShift ||| keyModifierCapsLock) &&& sensitivity toAltGr true toShift &&&
      keyModifierCapsLock ≠ 0 := by
  decide

theorem sound_stored_iff {item : KeyItem} {toAltGr toCapsLock toShift shift altGr : Bool}
    (hsensitive : item.sensitive = sensitivity toAltGr toCapsLock toShift)
    (hrequired : item.required &&& sensitivity toAltGr toCapsLock toShift =
      stateMask shift altGr &&& sensitivity toAltGr toCapsLock toShift) :
    k.Sound t (KeyMap.stored item) ↔ k.SoundAt t toShift toAltGr shift altGr item.id := by
  simp only [Sound, SoundAt, KeyMap.stored, hsensitive, hrequired, stateMask_agrees, and_imp]

section
variable (isModifier : Bool) (keycode : KeyCode) (k : Keysyms) (sensitive : KeyModifierMask) (j : Nat)

@[simp] theorem levelItem_id : (levelItem t isModifier keycode k sensitive j).id = k.levelID t isModifier j := by
  cases isModifier <;> rfl

@[simp] theorem levelItem_group : (levelItem t isModifier keycode k sensitive j).group = if 2 ≤ j then 1 else 0 := by
  cases isModifier <;> rfl

@[simp] theorem levelItem_button :
    (levelItem t isModifier keycode k sensitive j).button = BitVec.ofNat 16 keycode := by
  cases isModifier <;> rfl

@[simp] theorem levelItem_required :
    (levelItem t isModifier keycode k sensitive j).required = stateMask (j % 2 = 1) (2 ≤ j) := by
  cases isModifier <;> rfl

@[simp] theorem levelItem_sensitive : (levelItem t isModifier keycode k sensitive j).sensitive = sensitive := by
  cases isModifier <;> rfl

theorem levelItem_generates : (levelItem t isModifier keycode k sensitive j).generates = 0 ↔
    (isModifier = true → (KeyMap.modifierOf (k.levelID t isModifier j)).1 = 0) := by
  cases isModifier
  · exact iff_of_true rfl fun h => absurd h (by decide)
  · exact ⟨fun h _ => h, fun h => h rfl⟩

end

/-- What the items of a level have to give, for the symbols that are filled in: the item of its own, and the one
with CapsLock for Shift where CapsLock makes no difference. -/
def Gives (t : KeySymTables) (k filled : Keysyms) (toAltGr toCapsLock toShift : Bool) (j : Nat) (id : KeyID) : Prop :=
  k.SoundAt t toShift toAltGr (j % 2 = 1) (2 ≤ j) id ∧
    (j % 2 = 1 → t.isCasePair (filled.get j) (filled.get (j - 1)) (filled.get j) = true → toCapsLock = false →
      k.SoundAt t toShift toAltGr false (2 ≤ j) id)

def LevelSound (t : KeySymTables) (k filled : Keysyms) (isModifier toAltGr toCapsLock toShift : Bool) (j : Nat) :
    Prop :=
  Yields isModifier (filled.levelID t isModifier j) →
    Gives t k filled toAltGr toCapsLock toShift j (filled.levelID t isModifier j)

/-- The items of a level that need no CapsLock are sound if they give what they have to. -/
theorem levelItems_sound_iff {filled : Keysyms} {isModifier toAltGr toCapsLock toShift : Bool} {keycode : KeyCode}
    {j : Nat} (hkeypad : isKeypad (filled.get j) = false) :
    (∀ item ∈ levelItems t isModifier keycode filled (sensitivity toAltGr toCapsLock toShift) j, item.generates = 0 →
      (KeyMap.stored item).required &&& keyModifierCapsLock = 0 → k.Sound t (KeyMap.stored item)) ↔
      LevelSound t k filled isModifier toAltGr toCapsLock toShift j := by
  have hgenerates := levelItem_generates (t := t) isModifier keycode filled
    (sensitivity toAltGr toCapsLock toShift) j
  have hsensitive := levelItem_sensitive (t := t) isModifier keycode filled
    (sensitivity toAltGr toCapsLock toShift) j
  have hrequired := levelItem_required (t := t) isModifier keycode filled
    (sensitivity toAltGr toCapsLock toShift) j
  have hid := levelItem_id (t := t) isModifier keycode filled (sensitivity toAltGr toCapsLock toShift) j
  rw [levelItems, LevelSound, Gives]
  generalize levelItem t isModifier keycode filled (sensitivity toAltGr toCapsLock toShift) j = item at *
  rw [← hid] at hgenerates ⊢
  by_cases hnone : item.id = kKeyNone
  · rw [if_pos hnone]
    exact iff_of_true (fun _ h => absurd h List.not_mem_nil) fun h => absurd hnone h.1
  rw [if_neg hnone, List.forall_mem_cons, if_neg (Bool.eq_false_iff.mp hkeypad), List.append_nil]
  have hyields : item.generates = 0 ↔ Yields isModifier item.id := by
    rw [hgenerates, Yields, and_iff_right hnone]
  have hfirst : (item.generates = 0 → (KeyMap.stored item).required &&& keyModifierCapsLock = 0 →
      k.Sound t (KeyMap.stored item)) ↔
      (Yields isModifier item.id → k.SoundAt t toShift toAltGr (j % 2 = 1) (2 ≤ j) item.id) := by
    rw [hyields, sound_stored_iff hsensitive (by rw [hrequired])]
    refine imp_congr_right fun _ => forall_prop_of_true ?_
    rw [KeyMap.stored_required, hrequired, hsensitive]
    exact stateMask_capsLock ..
  rw [hfirst]
  split_ifs with hodd hcase
  · rw [decide_eq_true hodd] at hrequired
    have hwithout : (item.insteadOfShift keyModifierCapsLock).required =
        stateMask true (2 ≤ j) &&& ~~~keyModifierShift ||| keyModifierCapsLock := by
      rw [KeyItem.insteadOfShift, hrequired]
    rw [List.forall_mem_singleton, forall_prop_of_true hodd, forall_prop_of_true hcase, imp_and]
    refine and_congr_right' ?_
    change item.generates = 0 → _ ↔ _
    rw [hyields]
    refine imp_congr_right fun _ => ?_
    rw [KeyMap.stored_required, hwithout, show (item.insteadOfShift keyModifierCapsLock).sensitive = _ from hsensitive]
    cases toCapsLock with
    | true => exact iff_of_true (fun h => absurd h (withoutShift_capsLock _ _ _)) fun h => absurd h (by decide)
    | false =>
      rw [withoutShift_required, forall_prop_of_true (stateMask_capsLock ..), forall_prop_of_true rfl]
      exact sound_stored_iff hsensitive (by rw [hwithout, withoutShift_required])
  · simp [hcase]
  · simp [hodd]

/-! ### The items of a key -/

theorem not_yields_none (isModifier : Bool) : ¬Yields isModifier kKeyNone := fun h => h.1 rfl

theorem isCasePair_noSymbol (lower upper : KeySym) : t.isCasePair NoSymbol lower upper = false := by
  rw [KeySymTables.isCasePair, t.convertCase_noSymbol]
  simp

private theorem levelSound_iff {filled : Keysyms} {isModifier toAltGr toCapsLock toShift : Bool} (j : Nat) :
    LevelSound t k filled isModifier toAltGr toCapsLock toShift j ↔
      (Yields isModifier (t.mapKeySymToKeyID (filled.get j)) →
        Gives t k filled toAltGr toCapsLock toShift j (t.mapKeySymToKeyID (filled.get j))) ∧
      (isModifier = true → j ≠ 0 → t.mapKeySymToKeyID (filled.get j) = kKeyNone →
        Yields isModifier (filled.pretendedID t j) →
        Gives t k filled toAltGr toCapsLock toShift j (filled.pretendedID t j)) :=
  forall_levelID_iff (not_yields_none isModifier)

private theorem pretended_at_none {isModifier toAltGr toCapsLock toShift : Bool} {j : Nat} (hj : j ≠ 3)
    (h : LevelSound t k k isModifier toAltGr toCapsLock toShift 0) (hyields : Yields isModifier (k.pretendedID t j)) :
    k.SoundAt t toShift toAltGr false false (k.pretendedID t j) := by
  rw [pretendedID, if_pos (Or.inr hj)] at hyields ⊢
  exact (((levelSound_iff 0).mp h).1 hyields).1

/-- A modifier button without a key at Shift and AltGr stands for what it has at Shift. -/
private theorem pretended_at_shift {isModifier : Bool} (hmodifier : isModifier = true)
    {toAltGr toCapsLock toShift : Bool}
    (h : LevelSound t k k isModifier toAltGr toCapsLock toShift 1) (hyields : Yields isModifier (k.pretendedID t 3)) :
    k.SoundAt t toShift toAltGr true false (k.pretendedID t 3) := by
  obtain ⟨hown, hpretended⟩ := (levelSound_iff 1).mp h
  by_cases hno : k.level1 = NoSymbol
  · have hid : k.pretendedID t 3 = k.pretendedID t 1 := by
      rw [pretendedID, pretendedID, if_pos (Or.inl hno), if_pos (Or.inl hno)]
    have hnone : t.mapKeySymToKeyID k.level1 = kKeyNone := by rw [hno, t.mapKeySymToKeyID_noSymbol]
    rw [hid] at hyields ⊢
    exact (hpretended hmodifier (by decide) hnone hyields).1
  · have hid : k.pretendedID t 3 = t.mapKeySymToKeyID k.level1 := by
      rw [pretendedID, if_neg (not_or.mpr ⟨hno, fun h => h rfl⟩)]
    rw [hid] at hyields ⊢
    exact (hown hyields).1

theorem regular_of_levels {isModifier : Bool} (hletter : ¬k.LoneLetter t)
    (h : ∀ j < 4, LevelSound t k k isModifier k.altGrLevels (k.fillCase t).2 k.shiftLevels j) :
    k.Regular t isModifier := by
  have hlevel0 := h 0 (by decide)
  obtain ⟨hown0, -⟩ := (levelSound_iff 0).mp hlevel0
  obtain ⟨hown1, hpretended1⟩ := (levelSound_iff 1).mp (h 1 (by decide))
  obtain ⟨hown2, hpretended2⟩ := (levelSound_iff 2).mp (h 2 (by decide))
  obtain ⟨hown3, hpretended3⟩ := (levelSound_iff 3).mp (h 3 (by decide))
  have hnone := not_yields_none isModifier
  obtain ⟨halone0, hmissing0, halone2, hmissing2, haltGr⟩ := (own_levels_iff hnone hletter).mp
    ⟨fun hyields => (hown0 hyields).1, fun hyields => (hown1 hyields).1, fun hyields => (hown2 hyields).1,
      fun hyields => (hown3 hyields).1⟩
  refine ⟨fun h => absurd h hletter, fun _ => ⟨halone0, hmissing0, fun hcase hcapsLock hyields => ?_⟩,
    fun _ => ⟨halone2, hmissing2, fun hcase hcapsLock hyields => ?_⟩, fun _ hsame hpair => ?_,
    fun _ hmodifier => ⟨fun hid hyields => ?_, fun hid hyields => ?_, fun hid hyields => ?_⟩⟩
  · exact (capital_level1_iff hnone hcase hyields fun hyields => (hown0 hyields).1).mp
      ((hown1 hyields).2 rfl hcase hcapsLock)
  · exact (capital_level3_iff hnone hcase hyields fun hyields => (hown2 hyields).1).mp
      ((hown3 hyields).2 rfl hcase hcapsLock)
  · obtain ⟨hmissing, halone, hboth⟩ := haltGr hsame hpair
    exact ⟨hmissing, halone, hboth⟩
  · exact (pretended_level1_iff hletter hid hyields.1 (pretended_at_none (by decide) hlevel0 hyields)).mp
      (hpretended1 hmodifier (by decide) hid hyields).1
  · exact (pretended_level2_iff hletter hid hyields.1 (pretended_at_none (by decide) hlevel0 hyields)).mp
      (hpretended2 hmodifier (by decide) hid hyields).1
  · exact (pretended_level3_iff hletter hid hyields.1 (pretended_at_shift hmodifier (h 1 (by decide)) hyields)).mp
      (hpretended3 hmodifier (by decide) hid hyields).1

theorem levels_of_regular {isModifier : Bool} (hletter : ¬k.LoneLetter t) (h : k.Regular t isModifier) :
    ∀ j < 4, LevelSound t k k isModifier k.altGrLevels (k.fillCase t).2 k.shiftLevels j := by
  have hnone := not_yields_none isModifier
  have hfirst := h.first hletter
  have hsecond := h.second hletter
  obtain ⟨hown0, hown1, hown2, hown3⟩ := (own_levels_iff hnone hletter).mpr ⟨hfirst.alone, hfirst.missing,
    hsecond.alone, hsecond.missing, fun hsame hpair =>
      have haltGr := h.altGr hletter hsame hpair
      ⟨haltGr.missing, haltGr.alone, haltGr.both⟩⟩
  have hnoCapital {level : KeySym} (hno : level = NoSymbol) {lower upper : KeySym} {P : Prop} :
      t.isCasePair level lower upper = true → P := by
    rw [hno, isCasePair_noSymbol]
    exact fun h => absurd h (by decide)
  have hlevel0 : LevelSound t k k isModifier k.altGrLevels (k.fillCase t).2 k.shiftLevels 0 :=
    (levelSound_iff 0).mpr ⟨fun hyields => ⟨hown0 hyields, fun h => absurd h (by decide)⟩, fun _ h => absurd rfl h⟩
  have hlevel1 : LevelSound t k k isModifier k.altGrLevels (k.fillCase t).2 k.shiftLevels 1 := by
    refine (levelSound_iff 1).mpr ⟨fun hyields => ⟨hown1 hyields, fun _ hcase hcapsLock => ?_⟩,
      fun hmodifier _ hid hyields => ?_⟩
    · exact (capital_level1_iff hnone hcase hyields hown0).mpr (hfirst.capital hcase hcapsLock hyields)
    · have hpretended := (h.pretended hletter hmodifier).level1 hid hyields
      exact ⟨(pretended_level1_iff hletter hid hyields.1 (pretended_at_none (by decide) hlevel0 hyields)).mpr
        hpretended, fun _ => hnoCapital hpretended.1⟩
  intro j hj
  match j, hj with
  | 0, _ => exact hlevel0
  | 1, _ => exact hlevel1
  | 2, _ =>
    refine (levelSound_iff 2).mpr ⟨fun hyields => ⟨hown2 hyields, fun h => absurd h (by decide)⟩,
      fun hmodifier _ hid hyields => ⟨?_, fun h => absurd h (by decide)⟩⟩
    exact (pretended_level2_iff hletter hid hyields.1 (pretended_at_none (by decide) hlevel0 hyields)).mpr
      ((h.pretended hletter hmodifier).level2 hid hyields)
  | 3, _ =>
    refine (levelSound_iff 3).mpr ⟨fun hyields => ⟨hown3 hyields, fun _ hcase hcapsLock => ?_⟩,
      fun hmodifier _ hid hyields => ?_⟩
    · exact (capital_level3_iff hnone hcase hyields hown2).mpr (hsecond.capital hcase hcapsLock hyields)
    · have hpretended := (h.pretended hletter hmodifier).level3 hid hyields
      exact ⟨(pretended_level3_iff hletter hid hyields.1 (pretended_at_shift hmodifier hlevel1 hyields)).mpr hpretended,
        fun _ => hnoCapital hpretended.1⟩

theorem levelsSound_iff_regular {isModifier : Bool} (hletter : ¬k.LoneLetter t) :
    (∀ j < 4, LevelSound t k k isModifier k.altGrLevels (k.fillCase t).2 k.shiftLevels j) ↔ k.Regular t isModifier :=
  ⟨regular_of_levels hletter, levels_of_regular hletter⟩

private theorem gives_letter_iff (hletter : k.LoneLetter t) {filled : Keysyms} {j : Nat} {id : KeyID} :
    Gives t k filled false true true j id ↔ t.mapKeySymToKeyID (t.inCase (j % 2 = 1) k.level0) = id := by
  obtain ⟨-, h1, h2, h3, -⟩ := hletter
  have hselected (shift altGr : Bool) : k.selected t shift altGr = t.inCase shift k.level0 := by
    simp [selected, pair, h1, h2, h3]
  simp only [Gives, SoundAt, hselected]
  constructor
  · exact fun h => h.1 _ false (fun _ => rfl) fun h => absurd h (by decide)
  · intro h
    refine ⟨fun shift _ hshift _ => ?_, fun _ _ h => absurd h (by decide)⟩
    rw [hshift trivial, h]

/-- A letter that stands alone is filled in, and only a modifier button has more than its two cases. -/
theorem letter_levelsSound_iff {isModifier : Bool} (hletter : k.LoneLetter t) :
    (∀ j < 4, LevelSound t k ⟨t.inCase false k.level0, t.inCase true k.level0, NoSymbol, NoSymbol⟩ isModifier false true
      true j) ↔ k.Regular t isModifier := by
  have hnot {P : Prop} (h : ¬k.LoneLetter t) : P := absurd hletter h
  constructor
  · intro h
    refine ⟨fun _ hmodifier hyields hid => ?_, hnot, hnot, hnot, hnot⟩
    have hpretended := ((levelSound_iff 1).mp (h 1 (by decide))).2 hmodifier (by decide) hid
    rw [pretendedID, if_pos (Or.inr (by decide)), gives_letter_iff hletter] at hpretended
    exact hyields.1 ((hpretended hyields).symm.trans hid)
  · intro h j hj
    have hnone : ¬Yields isModifier (t.mapKeySymToKeyID NoSymbol) := not_yields_none isModifier
    refine (levelSound_iff j).mpr ⟨fun hyields => (gives_letter_iff hletter).mpr ?_,
      fun hmodifier hne hid hyields => (gives_letter_iff hletter).mpr ?_⟩
    · rcases j with _ | _ | _ | _ | j
      · rfl
      · rfl
      · exact absurd hyields hnone
      · exact absurd hyields hnone
      · omega
    · rw [pretendedID] at hyields ⊢
      rcases j with _ | _ | _ | _ | j
      · exact absurd rfl hne
      · rw [if_pos (Or.inr (by decide))] at hyields
        exact absurd hid (h.letter hletter hmodifier hyields)
      · rw [if_pos (Or.inr (by decide))]
        rfl
      · split_ifs with hupper
        · rw [if_pos hupper] at hyields
          have hno : t.inCase true k.level0 = NoSymbol := hupper.resolve_right fun h => h rfl
          refine absurd ?_ (h.letter hletter hmodifier hyields)
          rw [hno, t.mapKeySymToKeyID_noSymbol]
        · rfl
      · omega

private theorem inCase_letter (hletter : k.LoneLetter t) :
    t.inCase false k.level0 = (t.convertCase k.level0).1 ∧ t.inCase true k.level0 = (t.convertCase k.level0).2 := by
  obtain ⟨-, -, -, -, hcase⟩ := hletter
  simp [KeySymTables.inCase, hcase]

theorem fillCase_letter (hletter : k.LoneLetter t) :
    k.fillCase t = (⟨t.inCase false k.level0, t.inCase true k.level0, NoSymbol, NoSymbol⟩, true) := by
  obtain ⟨hlower, hupper⟩ := inCase_letter hletter
  obtain ⟨h0, h1, h2, h3, hcase⟩ := hletter
  simp [fillCase, h0, h1, h2, h3, hcase, hlower, hupper]

theorem fillCase_other (hletter : ¬k.LoneLetter t) :
    (k.fillCase t).1 = k ∧ ((k.fillCase t).2 = true → k.shiftLevels = true) := by
  have hpair {s lower upper : KeySym} (h : t.isCasePair s lower upper = true) : lower ≠ upper := by
    simp only [KeySymTables.isCasePair, Bool.and_eq_true, decide_eq_true_eq] at h
    obtain ⟨⟨hne, hlower⟩, hupper⟩ := h
    exact hlower ▸ hupper ▸ hne
  rw [fillCase]
  split_ifs with halone hfirst
  · simp only [Bool.and_eq_true, decide_eq_true_eq] at halone
    obtain ⟨⟨⟨h0, h1⟩, h2⟩, h3⟩ := halone
    have hcase : (t.convertCase k.level0).1 = (t.convertCase k.level0).2 := by
      by_contra hne
      exact hletter ⟨h0, h1, h2, h3, hne⟩
    simp [hcase]
  · simp only [Bool.and_eq_true, decide_eq_true_eq] at hfirst
    refine ⟨rfl, fun h => k.shiftLevels_iff.mpr ?_⟩
    simp only [Bool.or_eq_true, Bool.and_eq_true, decide_eq_true_eq] at h
    rcases h with h | ⟨hsecond, h⟩
    · exact Or.inl ⟨hfirst.1, hfirst.2, hpair h⟩
    · exact Or.inr ⟨hsecond.1, hsecond.2, hpair h⟩
  · exact ⟨rfl, fun h => absurd h (by decide)⟩

theorem fillCase_keypad (hkeypad : k.hasKeypad = false) : (k.fillCase t).1.hasKeypad = false := by
  by_cases hletter : k.LoneLetter t
  · have h0 : isKeypad k.level0 = false := by
      simp only [hasKeypad, Bool.or_eq_false_iff] at hkeypad
      exact hkeypad.1.1.1
    obtain ⟨hlower, hupper⟩ := t.convertCase_keypad k.level0 h0
    rw [fillCase_letter hletter, hasKeypad, (inCase_letter hletter).1, (inCase_letter hletter).2, hlower, hupper]
    rfl
  · rw [(fillCase_other hletter).1, hkeypad]

theorem sensitive_eq (hkeypad : k.hasKeypad = false) :
    k.sensitive t = sensitivity k.altGrLevels (k.fillCase t).2 ((k.fillCase t).2 || (k.fillCase t).1.shiftLevels) := by
  have hnumLock := fillCase_keypad (t := t) hkeypad
  rw [sensitive, sensitivity]
  simp [hnumLock]

/-- The items of a key are sound if and only if its symbols are regular. -/
theorem items_sound_iff {isModifier : Bool} (keycode : KeyCode) (hkeypad : k.hasKeypad = false) :
    (∀ j < 4, ∀ item ∈ levelItems t isModifier keycode (k.fillCase t).1 (k.sensitive t) j, item.generates = 0 →
      (KeyMap.stored item).required &&& keyModifierCapsLock = 0 → k.Sound t (KeyMap.stored item)) ↔
      k.Regular t isModifier := by
  have hfilled := fillCase_keypad (t := t) hkeypad
  have hlevel (j : Nat) : isKeypad ((k.fillCase t).1.get j) = false := by
    simp only [hasKeypad, Bool.or_eq_false_iff] at hfilled
    obtain ⟨⟨⟨h0, h1⟩, h2⟩, h3⟩ := hfilled
    match j with
    | 0 => exact h0
    | 1 => exact h1
    | 2 => exact h2
    | _ + 3 => exact h3
  simp only [sensitive_eq hkeypad, levelItems_sound_iff (hlevel _)]
  by_cases hletter : k.LoneLetter t
  · have haltGr : k.altGrLevels = false := by
      obtain ⟨-, -, h2, h3, -⟩ := hletter
      simp [altGrLevels, h2, h3]
    rw [fillCase_letter hletter, ← letter_levelsSound_iff hletter, haltGr, Bool.true_or]
  · obtain ⟨hsame, hshift⟩ := fillCase_other hletter
    rw [← levelsSound_iff_regular hletter, hsame, Bool.or_eq_right_iff_imp.mpr hshift]

/-- The items of a level are typed, in one of the two groups, by the button of the key. -/
theorem mem_levelItems {isModifier : Bool} {keycode : KeyCode} {filled : Keysyms} {sensitive : KeyModifierMask}
    {j : Nat}
    {item : KeyItem} (h : item ∈ levelItems t isModifier keycode filled sensitive j) :
    item.id ≠ kKeyNone ∧ 0 ≤ item.group ∧ item.button = BitVec.ofNat 16 keycode := by
  have hgroup : 0 ≤ (levelItem t isModifier keycode filled sensitive j).group := by
    rw [levelItem_group]
    split_ifs <;> decide
  have hbutton := levelItem_button (t := t) isModifier keycode filled sensitive j
  rw [levelItems] at h
  by_cases hid : (levelItem t isModifier keycode filled sensitive j).id = kKeyNone
  · rw [if_pos hid] at h
    cases h
  · rw [if_neg hid] at h
    simp only [List.mem_cons, List.mem_append, List.mem_ite_nil_right, List.not_mem_nil, or_false] at h
    rcases h with rfl | ⟨-, ⟨-, rfl⟩ | ⟨-, rfl⟩⟩
    · exact ⟨hid, hgroup, hbutton⟩
    · exact ⟨hid, hgroup, hbutton⟩
    · exact ⟨hid, hgroup, hbutton⟩

end Keysyms

/-! ### The items of the map -/

namespace XWindowsKeyState
variable {t : KeySymTables}

private theorem mem_foldl_addKeyEntry {items : List KeyItem} (hitems : ∀ item ∈ items, item.id ≠ kKeyNone ∧
    0 ≤ item.group)
    (m : KeyMap) (item' : KeyItem) :
    item' ∈ (items.foldl KeyMap.addKeyEntry m).items ↔ item' ∈ m.items ∨ ∃ item ∈ items, item' =
        KeyMap.stored item := by
  induction items generalizing m with
  | nil => simp
  | cons item items ih =>
    obtain ⟨hid, hgroup⟩ := hitems item List.mem_cons_self
    rw [List.foldl_cons, ih (fun i hi => hitems i (List.mem_cons_of_mem _ hi)),
      KeyMap.mem_items_addKeyEntry hid hgroup, or_assoc, List.exists_mem_cons_iff]

/-- A level adds its items to the map. -/
theorem addLevel_keyMap (buttons : ModifierButtons) (keycode : KeyCode) (k : Keysyms) (sensitive : KeyModifierMask)
    (st : XWindowsKeyState) (j : Nat) : (addLevel t buttons keycode k sensitive st j).keyMap =
      (k.levelItems t (buttons.contains keycode) keycode sensitive j).foldl KeyMap.addKeyEntry st.keyMap := by
  have hmodifier (st : XWindowsKeyState) (bit : Nat) (generates : KeyModifierMask) :
      (st.addModifier bit generates).keyMap = st.keyMap := by
    rw [addModifier]
    split_ifs <;> rfl
  by_cases hid : (k.levelItem t (buttons.contains keycode) keycode sensitive j).id = kKeyNone
  · have hnil : k.levelItems t (buttons.contains keycode) keycode sensitive j = [] := by
      rw [Keysyms.levelItems, if_pos hid]
    rw [addLevel, if_pos hid, hnil]
    rfl
  · rw [addLevel, if_neg hid]
    cases buttons.get? keycode with
    | none => rfl
    | some bit =>
      dsimp only
      rw [hmodifier]

/-- The items of a key as the map keeps them. -/
def StoredOf (t : KeySymTables) (buttons : ModifierButtons) (key : KeyCode × Keysyms) (item : KeyItem) : Prop :=
  ∃ j < 4, ∃ item' ∈ (key.2.fillCase t).1.levelItems t (buttons.contains key.1) key.1 (key.2.sensitive t) j,
    item = KeyMap.stored item'

private theorem mem_addLevel {buttons : ModifierButtons} {keycode : KeyCode} {k : Keysyms} {sensitive : KeyModifierMask}
    {st : XWindowsKeyState} {j : Nat} {item : KeyItem} :
    item ∈ (addLevel t buttons keycode k sensitive st j).keyMap.items ↔ item ∈ st.keyMap.items ∨
      ∃ item' ∈ k.levelItems t (buttons.contains keycode) keycode sensitive j, item = KeyMap.stored item' := by
  rw [addLevel_keyMap]
  refine mem_foldl_addKeyEntry (fun item' h => ?_) _ _
  obtain ⟨hid, hgroup, -⟩ := Keysyms.mem_levelItems h
  exact ⟨hid, hgroup⟩

theorem mem_addKeycode {buttons : ModifierButtons} {st : XWindowsKeyState} {key : KeyCode × Keysyms} {item : KeyItem} :
    item ∈ (addKeycode t buttons st key).keyMap.items ↔ item ∈ st.keyMap.items ∨ StoredOf t buttons key item := by
  simp only [addKeycode, List.foldl_cons, List.foldl_nil, mem_addLevel, StoredOf, Nat.exists_lt_succ_right,
    Nat.not_lt_zero, false_and, exists_false, false_or, or_assoc]

theorem mem_foldl_addKeycode {buttons : ModifierButtons} {keys : List (KeyCode × Keysyms)} {st : XWindowsKeyState}
    {item : KeyItem} : item ∈ (keys.foldl (addKeycode t buttons) st).keyMap.items ↔
      item ∈ st.keyMap.items ∨ ∃ key ∈ keys, StoredOf t buttons key item := by
  induction keys generalizing st with
  | nil => simp
  | cons key keys ih => rw [List.foldl_cons, ih, mem_addKeycode, or_assoc, List.exists_mem_cons_iff]

/-- The items of the map are those of the keys. -/
theorem mem_updateKeysymMap {st : XWindowsKeyState} {mapping : KeyboardMapping} {platform : KeyPlatform}
    {item : KeyItem} :
    item ∈ (updateKeysymMap t st mapping (.empty platform)).keyMap.items ↔
      ∃ key ∈ keys mapping, StoredOf t (st.usedButtons mapping) key item := by
  rw [updateKeysymMap, mem_foldl_addKeycode]
  exact or_iff_right (List.not_mem_nil (a := item))

private theorem button_of_storedOf {buttons : ModifierButtons} {key : KeyCode × Keysyms} {item : KeyItem}
    (h : StoredOf t buttons key item) : item.button = BitVec.ofNat 16 key.1 := by
  obtain ⟨j, -, item', hitem, rfl⟩ := h
  exact (Keysyms.mem_levelItems hitem).2.2

/-- A button is one key. -/
theorem keys_unique {mapping : KeyboardMapping} {key key' : KeyCode × Keysyms} (hkey : key ∈ keys mapping)
    (hkey' : key' ∈ keys mapping) (h : BitVec.ofNat 16 key.1 = BitVec.ofNat 16 key'.1) : key = key' := by
  obtain ⟨⟨row, i⟩, hrow, rfl⟩ := List.mem_map.mp hkey
  obtain ⟨⟨row', i'⟩, hrow', rfl⟩ := List.mem_map.mp hkey'
  have hi := List.mem_zipIdx_iff_getElem?.mp hrow
  have hi' := List.mem_zipIdx_iff_getElem?.mp hrow'
  have hlt := (List.getElem?_eq_some_iff.mp hi).1
  have hlt' := (List.getElem?_eq_some_iff.mp hi').1
  have hmax := Nat.le_trans (Nat.add_le_add_left hlt mapping.minKeycode) mapping.maxKeycode
  have hmax' := Nat.le_trans (Nat.add_le_add_left hlt' mapping.minKeycode) mapping.maxKeycode
  have hcode := congrArg BitVec.toNat h
  simp only [BitVec.toNat_ofNat] at hcode
  dsimp only at hi hi' hmax hmax'
  obtain rfl : i = i' := by omega
  obtain rfl : row = row' := Option.some.inj (hi.symm.trans hi')
  rfl

/-- The items of the map that generate no modifier and need no CapsLock type what X selects for their keys if and only
if the symbols of every key are regular. -/
theorem keysym_items_sound_iff (t : KeySymTables) (st : XWindowsKeyState) (mapping : KeyboardMapping)
    (platform : KeyPlatform) (hkeypad : ∀ key ∈ keys mapping, key.2.hasKeypad = false) :
    (∀ item ∈ (updateKeysymMap t st mapping (.empty platform)).keyMap.items, item.generates = 0 →
      item.required &&& keyModifierCapsLock = 0 →
      ∀ key ∈ keys mapping, item.button = BitVec.ofNat 16 key.1 → key.2.Sound t item) ↔
    ∀ key ∈ keys mapping, key.2.Regular t ((st.usedButtons mapping).contains key.1) := by
  constructor
  · intro h key hkey
    refine (Keysyms.items_sound_iff key.1 (hkeypad key hkey)).mp fun j hj item hitem hgenerates hcapsLock => ?_
    have hstored : StoredOf t (st.usedButtons mapping) key (KeyMap.stored item) := ⟨j, hj, item, hitem, rfl⟩
    exact h _ (mem_updateKeysymMap.mpr ⟨key, hkey, hstored⟩) hgenerates hcapsLock key hkey (button_of_storedOf hstored)
  · intro h item hitem hgenerates hcapsLock key hkey hbutton
    obtain ⟨key', hkey', hstored⟩ := mem_updateKeysymMap.mp hitem
    obtain rfl := keys_unique hkey hkey' (hbutton.symm.trans (button_of_storedOf hstored))
    obtain ⟨j, hj, item', hitem', rfl⟩ := hstored
    exact (Keysyms.items_sound_iff key.1 (hkeypad key hkey)).mpr (h key hkey) j hj item' hitem' hgenerates hcapsLock

/-! ### Two keys -/

/-- The letters of ASCII, the only symbols of these keys. -/
def asciiTables : KeySymTables where
  isoKeys _ := kKeyNone
  map1008FF _ := kKeyNone
  keySymToUCS4 _ := none
  convertCase (k : Nat) :=
    if 0x41 ≤ k ∧ k ≤ 0x5a then (k + 0x20, k) else if 0x61 ≤ k ∧ k ≤ 0x7a then (k, k - 0x20) else (k, k)
  convertCase_noSymbol := rfl
  convertCase_keypad k hk := by
    simp only [isKeypad, Bool.or_eq_false_iff, Bool.and_eq_false_iff, decide_eq_false_iff_not, Nat.not_le] at hk ⊢
    split_ifs <;> omega

def withoutMap : XWindowsKeyState :=
  ⟨.empty .other, [], .empty, .empty, .empty⟩

def oneKey (keysyms : List KeySym) : KeyboardMapping where
  minKeycode := 8
  allKeysyms := [keysyms]
  maxKeycode := show 9 ≤ 256 by decide
  modifiermap := []

theorem keysym_items_sound_iff_letters :
    (∀ item ∈ (updateKeysymMap asciiTables withoutMap (oneKey [0x61, 0x41, 0x62, 0x42]) (.empty .other)).keyMap.items,
      item.generates = 0 → item.required &&& keyModifierCapsLock = 0 →
      ∀ key ∈ keys (oneKey [0x61, 0x41, 0x62, 0x42]), item.button = BitVec.ofNat 16 key.1 →
        key.2.Sound asciiTables item) ↔
    ∀ key ∈ keys (oneKey [0x61, 0x41, 0x62, 0x42]),
      key.2.Regular asciiTables ((withoutMap.usedButtons (oneKey [0x61, 0x41, 0x62, 0x42])).contains key.1) :=
  keysym_items_sound_iff asciiTables withoutMap (oneKey [0x61, 0x41, 0x62, 0x42]) .other (by decide)

/-- Only Shift and AltGr together make a b of this key, but its item has nothing to do with AltGr. -/
theorem fourth_keysym_without_altGr :
    ¬∀ item ∈ (updateKeysymMap asciiTables withoutMap (oneKey [0x61, 0x61, 0x61, 0x62]) (.empty .other)).keyMap.items,
      item.generates = 0 → item.required &&& keyModifierCapsLock = 0 →
      ∀ key ∈ keys (oneKey [0x61, 0x61, 0x61, 0x62]), item.button = BitVec.ofNat 16 key.1 →
        key.2.Sound asciiTables item := by
  intro h
  have hitem : ⟨0x62, 1, 8, keyModifierShift, keyModifierShift, 0, false, false, 0⟩ ∈
      (updateKeysymMap asciiTables withoutMap (oneKey [0x61, 0x61, 0x61, 0x62]) (.empty .other)).keyMap.items := by
    decide
  have hsound := h _ hitem rfl (by decide) (8, ⟨0x61, 0x61, 0x61, 0x62⟩) (by decide) rfl true false rfl
  exact absurd hsound (by decide)

end XWindowsKeyState
end Synergy
