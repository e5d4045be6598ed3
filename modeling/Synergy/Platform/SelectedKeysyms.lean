import Mathlib.Tactic.SplitIfs
import Synergy.Platform.XKeysymMap

/-! The symbol of a key that X selects in a state of Shift and Mode_switch, and the layouts of a key for which
each of its levels gives that symbol. -/
namespace Synergy
open Synergy.Lib

namespace KeySymTables
variable (t : KeySymTables)

/-- The lower or the upper case of a symbol, which is the symbol itself unless it is a letter. -/
def inCase (upper : Bool) (k : KeySym) : KeySym :=
  if (t.convertCase k).1 = (t.convertCase k).2 then k else if upper then (t.convertCase k).2 else (t.convertCase k).1

end KeySymTables

namespace Keysyms
variable (t : KeySymTables) (k : Keysyms)

/-- The pair of symbols that X looks at: without a second pair it is the first one. -/
def pair (modeSwitch : Bool) : KeySym × KeySym :=
  if modeSwitch && !(k.level2 = NoSymbol && k.level3 = NoSymbol) then (k.level2, k.level3) else (k.level0, k.level1)

/-- The symbol that X selects. One that is alone in its pair is both symbols, a letter in its two cases. -/
def selected (shift modeSwitch : Bool) : KeySym :=
  let p := k.pair modeSwitch
  if p.2 = NoSymbol then t.inCase shift p.1 else if shift then p.2 else p.1

/-- In every state of Shift and AltGr that has the sensitive modifiers as required, the symbol is that of the key. -/
def Sound (item : KeyItem) : Prop :=
  ∀ shift altGr, stateMask shift altGr &&& item.sensitive = item.required &&& item.sensitive →
    t.mapKeySymToKeyID (k.selected t shift altGr) = item.id

/-- The same of a level, for what the key is found to be sensitive to. -/
def SoundAt (toShift toAltGr shift altGr : Bool) (id : KeyID) : Prop :=
  ∀ shift' altGr', (toShift = true → shift' = shift) → (toAltGr = true → altGr' = altGr) →
    t.mapKeySymToKeyID (k.selected t shift' altGr') = id

theorem shiftLevels_iff : k.shiftLevels = true ↔
    (k.level0 ≠ NoSymbol ∧ k.level1 ≠ NoSymbol ∧ k.level0 ≠ k.level1) ∨
      (k.level2 ≠ NoSymbol ∧ k.level3 ≠ NoSymbol ∧ k.level2 ≠ k.level3) := by
  simp [shiftLevels, and_assoc]

theorem altGrLevels_iff : k.altGrLevels = true ↔
    (k.level2 ≠ NoSymbol ∧ k.level2 ≠ k.level0) ∨ (k.level3 ≠ NoSymbol ∧ k.level2 ≠ k.level1) := by
  simp [altGrLevels]

/-- The only symbol of the key is a letter. -/
def LoneLetter : Prop :=
  k.level0 ≠ NoSymbol ∧ k.level1 = NoSymbol ∧ k.level2 = NoSymbol ∧ k.level3 = NoSymbol ∧
    (t.convertCase k.level0).1 ≠ (t.convertCase k.level0).2

/-- What a symbol that is alone in its pair gives is right for both cases. -/
structure PairRegular (yields : KeyID → Prop) (toShift toCapsLock : Bool) (first second : KeySym) : Prop where
  alone : second = NoSymbol → yields (t.mapKeySymToKeyID first) →
    t.mapKeySymToKeyID (t.inCase false first) = t.mapKeySymToKeyID first ∧
      (toShift = true ∨ t.mapKeySymToKeyID (t.inCase true first) = t.mapKeySymToKeyID first)
  missing : first = NoSymbol → yields (t.mapKeySymToKeyID second) → toShift = true
  capital : t.isCasePair second first second = true → toCapsLock = false → yields (t.mapKeySymToKeyID second) →
    t.mapKeySymToKeyID first = t.mapKeySymToKeyID second

/-- A second pair that the test for AltGr does not find gives the same keys as the first. -/
structure AltGrRegular (yields : KeyID → Prop) : Prop where
  missing : k.level2 = NoSymbol →
    ¬yields (t.mapKeySymToKeyID k.level0) ∧ ¬yields (t.mapKeySymToKeyID k.level3)
  alone : k.level2 ≠ NoSymbol → k.level3 = NoSymbol → yields (t.mapKeySymToKeyID k.level1) →
    t.mapKeySymToKeyID k.level1 = t.mapKeySymToKeyID (t.inCase true k.level0)
  both : k.level2 ≠ NoSymbol → k.level3 ≠ NoSymbol →
    yields (t.mapKeySymToKeyID k.level0) ∨ yields (t.mapKeySymToKeyID k.level3) →
    t.mapKeySymToKeyID k.level0 = t.mapKeySymToKeyID k.level3

/-- What a modifier button stands for at a level without a key is what X selects there. -/
structure PretendedRegular (yields : KeyID → Prop) : Prop where
  level1 : t.mapKeySymToKeyID k.level1 = kKeyNone → yields (k.pretendedID t 1) →
    k.level1 = NoSymbol ∧ t.mapKeySymToKeyID (t.inCase true k.level0) = k.pretendedID t 1
  level2 : t.mapKeySymToKeyID k.level2 = kKeyNone → yields (k.pretendedID t 2) →
    k.level3 = NoSymbol ∧ (k.level2 = NoSymbol ∨
      t.mapKeySymToKeyID (t.inCase false k.level2) = k.pretendedID t 2 ∧
        (k.shiftLevels = true ∨ t.mapKeySymToKeyID (t.inCase true k.level2) = k.pretendedID t 2))
  level3 : t.mapKeySymToKeyID k.level3 = kKeyNone → yields (k.pretendedID t 3) →
    k.level3 = NoSymbol ∧ (k.level2 = NoSymbol ∨
      t.mapKeySymToKeyID (t.inCase true k.level2) = k.pretendedID t 3 ∧
        (k.shiftLevels = true ∨ t.mapKeySymToKeyID (t.inCase false k.level2) = k.pretendedID t 3))

/-- The items are typed, and not those of a modifier. -/
def Yields (isModifier : Bool) (id : KeyID) : Prop :=
  id ≠ kKeyNone ∧ (isModifier = true → (KeyMap.modifierOf id).1 = 0)

/-- The keys whose items are all sound. -/
structure Regular (isModifier : Bool) : Prop where
  letter : k.LoneLetter t → isModifier = true → Yields isModifier (t.mapKeySymToKeyID (t.inCase false k.level0)) →
    t.mapKeySymToKeyID (t.inCase true k.level0) ≠ kKeyNone
  first : ¬k.LoneLetter t →
    PairRegular t (Yields isModifier) k.shiftLevels (k.fillCase t).2 k.level0 k.level1
  second : ¬k.LoneLetter t →
    PairRegular t (Yields isModifier) k.shiftLevels (k.fillCase t).2 k.level2 k.level3
  altGr : ¬k.LoneLetter t → k.altGrLevels = false → ¬(k.level2 = NoSymbol ∧ k.level3 = NoSymbol) →
    k.AltGrRegular t (Yields isModifier)
  pretended : ¬k.LoneLetter t → isModifier = true → k.PretendedRegular t (Yields isModifier)

section
variable {t k} {yields : KeyID → Prop}

theorem own_levels_iff (hnone : ¬yields kKeyNone)
    (hletter : ¬k.LoneLetter t) :
    ((yields (t.mapKeySymToKeyID k.level0) →
        SoundAt t k k.shiftLevels k.altGrLevels false false (t.mapKeySymToKeyID k.level0)) ∧
      (yields (t.mapKeySymToKeyID k.level1) →
        SoundAt t k k.shiftLevels k.altGrLevels true false (t.mapKeySymToKeyID k.level1)) ∧
      (yields (t.mapKeySymToKeyID k.level2) →
        SoundAt t k k.shiftLevels k.altGrLevels false true (t.mapKeySymToKeyID k.level2)) ∧
      (yields (t.mapKeySymToKeyID k.level3) →
        SoundAt t k k.shiftLevels k.altGrLevels true true (t.mapKeySymToKeyID k.level3))) ↔
    ((k.level1 = NoSymbol → yields (t.mapKeySymToKeyID k.level0) →
      t.mapKeySymToKeyID (t.inCase false k.level0) = t.mapKeySymToKeyID k.level0 ∧ (k.shiftLevels = true ∨
        t.mapKeySymToKeyID (t.inCase true k.level0) = t.mapKeySymToKeyID k.level0)) ∧
     (k.level0 = NoSymbol → yields (t.mapKeySymToKeyID k.level1) → k.shiftLevels = true) ∧
     (k.level3 = NoSymbol → yields (t.mapKeySymToKeyID k.level2) →
      t.mapKeySymToKeyID (t.inCase false k.level2) = t.mapKeySymToKeyID k.level2 ∧ (k.shiftLevels = true ∨
        t.mapKeySymToKeyID (t.inCase true k.level2) = t.mapKeySymToKeyID k.level2)) ∧
     (k.level2 = NoSymbol → yields (t.mapKeySymToKeyID k.level3) → k.shiftLevels = true) ∧
     (k.altGrLevels = false → ¬(k.level2 = NoSymbol ∧ k.level3 = NoSymbol) →
       (k.level2 = NoSymbol → ¬yields (t.mapKeySymToKeyID k.level0) ∧ ¬yields (t.mapKeySymToKeyID k.level3)) ∧
       (k.level2 ≠ NoSymbol → k.level3 = NoSymbol → yields (t.mapKeySymToKeyID k.level1) →
         t.mapKeySymToKeyID k.level1 = t.mapKeySymToKeyID (t.inCase true k.level0)) ∧
       (k.level2 ≠ NoSymbol → k.level3 ≠ NoSymbol →
         yields (t.mapKeySymToKeyID k.level0) ∨ yields (t.mapKeySymToKeyID k.level3) →
         t.mapKeySymToKeyID k.level0 = t.mapKeySymToKeyID k.level3))) := by
  have hf := t.mapKeySymToKeyID_noSymbol
  have hcase := t.convertCase_noSymbol
  rw [LoneLetter] at hletter
  have hshift := k.shiftLevels_iff
  have haltGr := k.altGrLevels_iff
  obtain ⟨a, b, c, d⟩ := k
  generalize shiftLevels ⟨a, b, c, d⟩ = toShift at *
  generalize altGrLevels ⟨a, b, c, d⟩ = toAltGr at *
  simp only [SoundAt, Bool.forall_bool, selected, pair, KeySymTables.inCase] at *
  generalize t.mapKeySymToKeyID = f at *
  generalize t.convertCase = convert at *
  cases toShift <;> cases toAltGr <;> simp at hshift haltGr ⊢
  · grind
  · grind
  · grind
  · grind

/-- Without Shift the item of a capital is that of the small letter. -/
theorem capital_level1_iff (hnone : ¬yields kKeyNone) (hpair : t.isCasePair k.level1 k.level0 k.level1 = true)
    (hyields : yields (t.mapKeySymToKeyID k.level1))
    (hown : yields (t.mapKeySymToKeyID k.level0) →
      SoundAt t k k.shiftLevels k.altGrLevels false false (t.mapKeySymToKeyID k.level0)) :
    SoundAt t k k.shiftLevels k.altGrLevels false false (t.mapKeySymToKeyID k.level1) ↔
      t.mapKeySymToKeyID k.level0 = t.mapKeySymToKeyID k.level1 := by
  have hsome : k.level1 ≠ NoSymbol := fun hno => hnone (by rwa [hno, t.mapKeySymToKeyID_noSymbol] at hyields)
  simp only [KeySymTables.isCasePair, ne_eq, decide_not, Bool.and_eq_true, Bool.not_eq_true', decide_eq_false_iff_not,
    decide_eq_true_eq] at hpair
  have hf := t.mapKeySymToKeyID_noSymbol
  have hcase := t.convertCase_noSymbol
  have hshift := k.shiftLevels_iff
  have haltGr := k.altGrLevels_iff
  obtain ⟨a, b, c, d⟩ := k
  generalize shiftLevels ⟨a, b, c, d⟩ = toShift at *
  generalize altGrLevels ⟨a, b, c, d⟩ = toAltGr at *
  simp only [SoundAt, Bool.forall_bool, selected, pair, KeySymTables.inCase] at *
  generalize t.mapKeySymToKeyID = f at *
  generalize t.convertCase = convert at *
  cases toShift <;> cases toAltGr <;> simp at hshift haltGr hown ⊢
  · grind
  · grind
  · grind
  · grind

theorem capital_level3_iff (hnone : ¬yields kKeyNone) (hpair : t.isCasePair k.level3 k.level2 k.level3 = true)
    (hyields : yields (t.mapKeySymToKeyID k.level3))
    (hown : yields (t.mapKeySymToKeyID k.level2) →
      SoundAt t k k.shiftLevels k.altGrLevels false true (t.mapKeySymToKeyID k.level2)) :
    SoundAt t k k.shiftLevels k.altGrLevels false true (t.mapKeySymToKeyID k.level3) ↔
      t.mapKeySymToKeyID k.level2 = t.mapKeySymToKeyID k.level3 := by
  have hsome : k.level3 ≠ NoSymbol := fun hno => hnone (by rwa [hno, t.mapKeySymToKeyID_noSymbol] at hyields)
  simp only [KeySymTables.isCasePair, ne_eq, decide_not, Bool.and_eq_true, Bool.not_eq_true', decide_eq_false_iff_not,
    decide_eq_true_eq] at hpair
  have hf := t.mapKeySymToKeyID_noSymbol
  have hcase := t.convertCase_noSymbol
  have hshift := k.shiftLevels_iff
  have haltGr := k.altGrLevels_iff
  obtain ⟨a, b, c, d⟩ := k
  generalize shiftLevels ⟨a, b, c, d⟩ = toShift at *
  generalize altGrLevels ⟨a, b, c, d⟩ = toAltGr at *
  simp only [SoundAt, Bool.forall_bool, selected, pair, KeySymTables.inCase] at *
  generalize t.mapKeySymToKeyID = f at *
  generalize t.convertCase = convert at *
  cases toShift <;> cases toAltGr <;> simp at hshift haltGr hown ⊢
  · grind
  · grind
  · grind
  · grind

/-- What a modifier button stands for is sound where X selects the same, level after level. -/
theorem pretended_level1_iff (hletter : ¬k.LoneLetter t) (hid : t.mapKeySymToKeyID k.level1 = kKeyNone)
    (hsome : k.pretendedID t 1 ≠ kKeyNone)
    (hown : SoundAt t k k.shiftLevels k.altGrLevels false false (k.pretendedID t 1)) :
    SoundAt t k k.shiftLevels k.altGrLevels true false (k.pretendedID t 1) ↔
      k.level1 = NoSymbol ∧ t.mapKeySymToKeyID (t.inCase true k.level0) = k.pretendedID t 1 := by
  rw [LoneLetter] at hletter
  rw [pretendedID, if_pos (Or.inr (by decide))] at *
  have hf := t.mapKeySymToKeyID_noSymbol
  have hcase := t.convertCase_noSymbol
  have hshift := k.shiftLevels_iff
  have haltGr := k.altGrLevels_iff
  obtain ⟨a, b, c, d⟩ := k
  generalize shiftLevels ⟨a, b, c, d⟩ = toShift at *
  generalize altGrLevels ⟨a, b, c, d⟩ = toAltGr at *
  simp only [SoundAt, Bool.forall_bool, selected, pair, KeySymTables.inCase] at *
  generalize t.mapKeySymToKeyID = f at *
  generalize t.convertCase = convert at *
  cases toShift <;> cases toAltGr <;> simp at hshift haltGr hown ⊢
  · grind
  · grind
  · grind
  · grind

theorem pretended_level2_iff (hletter : ¬k.LoneLetter t) (hid : t.mapKeySymToKeyID k.level2 = kKeyNone)
    (hsome : k.pretendedID t 2 ≠ kKeyNone)
    (hown : SoundAt t k k.shiftLevels k.altGrLevels false false (k.pretendedID t 2)) :
    SoundAt t k k.shiftLevels k.altGrLevels false true (k.pretendedID t 2) ↔
      k.level3 = NoSymbol ∧ (k.level2 = NoSymbol ∨
        t.mapKeySymToKeyID (t.inCase false k.level2) = k.pretendedID t 2 ∧
          (k.shiftLevels = true ∨ t.mapKeySymToKeyID (t.inCase true k.level2) = k.pretendedID t 2)) := by
  rw [LoneLetter] at hletter
  rw [pretendedID, if_pos (Or.inr (by decide))] at *
  have hf := t.mapKeySymToKeyID_noSymbol
  have hcase := t.convertCase_noSymbol
  have hshift := k.shiftLevels_iff
  have haltGr := k.altGrLevels_iff
  obtain ⟨a, b, c, d⟩ := k
  generalize shiftLevels ⟨a, b, c, d⟩ = toShift at *
  generalize altGrLevels ⟨a, b, c, d⟩ = toAltGr at *
  simp only [SoundAt, Bool.forall_bool, selected, pair, KeySymTables.inCase] at *
  generalize t.mapKeySymToKeyID = f at *
  generalize t.convertCase = convert at *
  cases toShift <;> cases toAltGr <;> simp at hshift haltGr hown ⊢
  · grind
  · grind
  · grind
  · grind

theorem pretended_level3_iff (hletter : ¬k.LoneLetter t) (hid : t.mapKeySymToKeyID k.level3 = kKeyNone)
    (hsome : k.pretendedID t 3 ≠ kKeyNone)
    (hown : SoundAt t k k.shiftLevels k.altGrLevels true false (k.pretendedID t 3)) :
    SoundAt t k k.shiftLevels k.altGrLevels true true (k.pretendedID t 3) ↔
      k.level3 = NoSymbol ∧ (k.level2 = NoSymbol ∨
        t.mapKeySymToKeyID (t.inCase true k.level2) = k.pretendedID t 3 ∧
          (k.shiftLevels = true ∨ t.mapKeySymToKeyID (t.inCase false k.level2) = k.pretendedID t 3)) := by
  rw [LoneLetter] at hletter
  generalize k.pretendedID t 3 = id at *
  have hf := t.mapKeySymToKeyID_noSymbol
  have hcase := t.convertCase_noSymbol
  have hshift := k.shiftLevels_iff
  have haltGr := k.altGrLevels_iff
  obtain ⟨a, b, c, d⟩ := k
  generalize shiftLevels ⟨a, b, c, d⟩ = toShift at *
  generalize altGrLevels ⟨a, b, c, d⟩ = toAltGr at *
  simp only [SoundAt, Bool.forall_bool, selected, pair, KeySymTables.inCase] at *
  generalize t.mapKeySymToKeyID = f at *
  generalize t.convertCase = convert at *
  cases toShift <;> cases toAltGr <;> simp at hshift haltGr hown ⊢
  · grind
  · grind
  · grind
  · grind

theorem forall_levelID_iff (hnone : ¬yields kKeyNone) {isModifier : Bool} {j : Nat} {P : KeyID → Prop} :
    (yields (k.levelID t isModifier j) → P (k.levelID t isModifier j)) ↔
      (yields (t.mapKeySymToKeyID (k.get j)) → P (t.mapKeySymToKeyID (k.get j))) ∧
      (isModifier = true → j ≠ 0 → t.mapKeySymToKeyID (k.get j) = kKeyNone → yields (k.pretendedID t j) →
        P (k.pretendedID t j)) := by
  rw [levelID]
  split_ifs with h
  · obtain ⟨hid, hj, hmodifier⟩ := h
    refine ⟨fun hP => ⟨fun hyields => absurd (hid ▸ hyields) hnone, fun _ _ _ => hP⟩, fun hP => hP.2 hmodifier hj hid⟩
  · exact ⟨fun hP => ⟨hP, fun hmodifier hj hid => absurd ⟨hid, hj, hmodifier⟩ h⟩, fun hP => hP.1⟩

end

end Keysyms
end Synergy
