import Mathlib.Order.Lattice
import Synergy.Input.KeyMap

/-! The indices that the mapping of a key takes to the vectors of the key map. A group that is looked
through is brought into the range of the groups; the group that is switched to for a language is not. -/
namespace Synergy.KeyMap
open Synergy.Lib

/-- An element that is taken from a vector by a group. -/
inductive Lookup
  | entries (table : KeyGroupTable) (group : Int)
  | modifierKeys (group : Int) (modifierBit : Nat)
  deriving DecidableEq

/-- The group is one of the map, and the index is in the vector. -/
def Inside (m : KeyMap) : Lookup → Prop
  | .entries table group => 0 ≤ group ∧ group < m.m_numGroups ∧ group < table.length
  | .modifierKeys group bit => 0 ≤ group ∧ group < m.m_numGroups ∧ bit < kKeyModifierNumBits ∧
      group * kKeyModifierNumBits + bit < m.m_modifierKeys.length

/-- A map that is finished: tables and modifier keys for every group, and items in these groups. -/
structure Grouped (m : KeyMap) : Prop where
  tables : ∀ e ∈ m.m_keyIDMap.entries, m.m_numGroups ≤ e.2.length
  items : ∀ item ∈ m.items, 0 ≤ item.group ∧ item.group < m.m_numGroups
  modifierKeys : m.m_modifierKeys.length = kKeyModifierNumBits * m.m_numGroups

/-! ### The lookups of a mapping -/

/-- The lookups of `changeModifiers`, each by `keyForModifier`. -/
def changeLookups (m : KeyMap) (button : KeyButton) (group : Int) (notRequiredMask : KeyModifierMask) :
    Nat → KeyModifierMask → KeyModifierMask → ModifierState → List Lookup
  | 0, _, _, _ => []
  | bit + 1, requiredState, flipMask, st =>
    if !flipMask.getLsbD bit then m.changeLookups button group notRequiredMask bit requiredState flipMask st
    else
      let active := requiredState.getLsbD bit
      .modifierKeys group bit ::
        match m.keyForModifier button group bit with
        | none =>
          if notRequiredMask.getLsbD bit then
            m.changeLookups button group notRequiredMask bit requiredState flipMask st
          else []
        | some keyItem =>
          let sensitive := ownSensitive keyItem bit
          if sensitive > 1#32 <<< bit then []
          else
            let r := m.changeOwn button group notRequiredMask bit active keyItem st
            let own := if active then
              m.changeLookups button group notRequiredMask bit keyItem.required
                (flips st.currentState keyItem.required sensitive notRequiredMask) st
              else []
            own ++
              if !r.2 then []
              else if r.1.currentState &&& sensitive ≠ keyItem.required &&& sensitive then []
              else
                m.changeLookups button group notRequiredMask bit requiredState flipMask
                  (m.addKeystrokes (if active then .modify else .unmodify) keyItem r.1)

def modifierStateLookups (m : KeyMap) (button : KeyButton) (group : Int)
    (requiredState sensitiveMask notRequiredMask : KeyModifierMask) (st : ModifierState) : List Lookup :=
  m.changeLookups button group notRequiredMask kKeyModifierNumBits requiredState
    (flips st.currentState requiredState sensitiveMask notRequiredMask) st

def itemLookups (m : KeyMap) (keyItem : KeyItem) (group : Int) (desiredState overrideModifiers : KeyModifierMask)
    (st : ModifierState) : List Lookup :=
  if keyItem.dead then
    m.modifierStateLookups keyItem.button group keyItem.required keyItem.sensitive 0 st
  else
    let sensitive := keyItem.sensitive &&& ~~~overrideModifiers
    let r := m.keysForModifierState keyItem.button group keyItem.required sensitive 0 st
    m.modifierStateLookups keyItem.button group keyItem.required sensitive 0 st ++
      if !r.2 then []
      else m.modifierStateLookups keyItem.button group desiredState (~~~(sensitive ||| keyItem.generates))
        s_notRequiredMask r.1

/-- An item that is to be typed: the group and the modifiers in effect before it. -/
structure Typing where
  item : KeyItem
  group : Int
  desiredState : KeyModifierMask
  overrideModifiers : KeyModifierMask
  st : ModifierState

/-- The lookups of `keysForKeyItem`, which changes the group first. -/
def typingLookups (m : KeyMap) (lang : Str) (t : Typing) : List Lookup :=
  let g := if t.group ≠ t.item.group then m.addGroupToKeystroke t.item.group lang t.st else (t.group, t.st)
  m.itemLookups t.item g.1 t.desiredState t.overrideModifiers g.2

/-- The items of an entry as far as they are typed. -/
def typings (m : KeyMap) (desiredMask overrideModifiers : KeyModifierMask) (isAutoRepeat : Bool) (lang : Str) :
    KeyItemList → Int → ModifierState → List Typing
  | [], _, _ => []
  | item :: items, group, st =>
    let r := m.keysForKeyItem item group desiredMask overrideModifiers isAutoRepeat lang st
    ⟨item, group, desiredMask, overrideModifiers, st⟩ ::
      if r.2.2 then m.typings desiredMask overrideModifiers isAutoRepeat lang items r.1 r.2.1 else []

/-- The lookups of the groups one after the other, up to the first that has something. -/
def searchLookups (m : KeyMap) (keyGroupTable : KeyGroupTable) (group : Int) (found : KeyEntryList → Bool) :
    List Lookup :=
  let groups := (List.range m.m_numGroups).map fun groupOffset : Nat => m.getEffectiveGroup group groupOffset
  (groups.take (groups.findIdx (fun g => found (keyGroupTable.entries g)) + 1)).map (.entries keyGroupTable)

def commandTypings (m : KeyMap) (id : KeyID) (group : Int) (desiredMask : KeyModifierMask) (isAutoRepeat : Bool)
    (lang : Str) (st : ModifierState) : List Typing :=
  match (m.m_keyIDMap.get? id).bind fun keyGroupTable => m.findCommandItem keyGroupTable group desiredMask with
  | none => []
  | some keyItem =>
    let desiredMask := desiredMask &&& ~~~keyModifierCapsLock ||| st.currentState &&& keyModifierCapsLock
    m.typings desiredMask s_overrideModifiers isAutoRepeat lang [keyItem] group st

def characterTypings (m : KeyMap) (id : KeyID) (group : Int) (desiredMask : KeyModifierMask) (isAutoRepeat : Bool)
    (lang : Str) (st : ModifierState) : List Typing :=
  match (m.m_keyIDMap.get? id).bind fun keyGroupTable =>
      m.getKeyItemList keyGroupTable (m.getLanguageGroupID group lang) desiredMask with
  | none => []
  | some itemList => m.typings desiredMask 0 isAutoRepeat lang itemList group st

/-- The items that `mapKey` types. -/
def mapTypings (m : KeyMap) (id : KeyID) (group : Int) (desiredMask : KeyModifierMask) (isAutoRepeat : Bool)
    (lang : Str) (st : ModifierState) : List Typing :=
  if id = kKeyNextGroup ∨ id = kKeyPrevGroup then []
  else if id ∈ modifierKeyIDs then m.characterTypings id group desiredMask isAutoRepeat lang st
  else if id = kKeySetModifiers ∨ id = kKeyClearModifiers then []
  else if isCommand desiredMask then m.commandTypings id group desiredMask isAutoRepeat lang st
  else m.characterTypings id group desiredMask isAutoRepeat lang st

/-- The lookups of `mapCommandKey`. -/
def commandLookups (m : KeyMap) (id : KeyID) (group : Int) (desiredMask : KeyModifierMask) (isAutoRepeat : Bool)
    (lang : Str) (st : ModifierState) : List Lookup :=
  match m.m_keyIDMap.get? id with
  | none => []
  | some keyGroupTable =>
    m.searchLookups keyGroupTable group (fun entryList => (entryList.findSome? (commandItem desiredMask)).isSome) ++
      (m.commandTypings id group desiredMask isAutoRepeat lang st).flatMap (m.typingLookups lang)

/-- The lookups of `mapCharacterKey`. -/
def characterLookups (m : KeyMap) (id : KeyID) (group : Int) (desiredMask : KeyModifierMask) (isAutoRepeat : Bool)
    (lang : Str) (st : ModifierState) : List Lookup :=
  match m.m_keyIDMap.get? id with
  | none => []
  | some keyGroupTable =>
    m.searchLookups keyGroupTable (m.getLanguageGroupID group lang)
        (fun entryList => (findBestKeyIndex entryList desiredMask).isSome) ++
      (m.characterTypings id group desiredMask isAutoRepeat lang st).flatMap (m.typingLookups lang)

/-- The lookups of `mapKey`. -/
def mapLookups (m : KeyMap) (id : KeyID) (group : Int) (desiredMask : KeyModifierMask) (isAutoRepeat : Bool)
    (lang : Str) (st : ModifierState) : List Lookup :=
  if id = kKeyNextGroup ∨ id = kKeyPrevGroup then []
  else if id ∈ modifierKeyIDs then m.characterLookups id group desiredMask isAutoRepeat lang st
  else if id = kKeySetModifiers then m.modifierStateLookups 0 group desiredMask desiredMask 0 st
  else if id = kKeyClearModifiers then
    m.modifierStateLookups 0 group (st.currentState &&& ~~~desiredMask) desiredMask 0 st
  else if isCommand desiredMask then m.commandLookups id group desiredMask isAutoRepeat lang st
  else m.characterLookups id group desiredMask isAutoRepeat lang st

/-- No modifier is as it should not be. -/
def NoFlip (flipMask : KeyModifierMask) : Prop := ∀ bit < kKeyModifierNumBits, flipMask.getLsbD bit = false

/-- The modifiers are already as they have to be for the item. -/
def Typing.NeedsNoModifiers (t : Typing) : Prop :=
  if t.item.dead then NoFlip (flips t.st.currentState t.item.required t.item.sensitive 0)
  else
    let sensitive := t.item.sensitive &&& ~~~t.overrideModifiers
    NoFlip (flips t.st.currentState t.item.required sensitive 0) ∧
      NoFlip (flips t.st.currentState t.desiredState (~~~(sensitive ||| t.item.generates)) s_notRequiredMask)

/-- The language has no layout, or one for a group of the map. -/
def LanguageInside (m : KeyMap) (lang : Str) : Prop :=
  ∀ index, m.m_keyboardLayouts.idxOf? lang = some index → index < m.m_numGroups

variable {m : KeyMap}

/-! ### Modifiers -/

/-- All lookups of modifier keys are in the one group. -/
theorem mem_changeLookups {button : KeyButton} {group : Int} {notRequiredMask : KeyModifierMask} {bits : Nat}
    {requiredState flipMask : KeyModifierMask} {st : ModifierState} {l : Lookup}
    (h : l ∈ m.changeLookups button group notRequiredMask bits requiredState flipMask st) :
    ∃ bit < bits, l = .modifierKeys group bit := by
  induction bits generalizing requiredState flipMask st with
  | zero => cases h
  | succ bit ih =>
    have hlower {requiredState flipMask : KeyModifierMask} {st : ModifierState}
        (h : l ∈ m.changeLookups button group notRequiredMask bit requiredState flipMask st) :
        ∃ bit' < bit + 1, l = .modifierKeys group bit' := by
      obtain ⟨bit', hbit, hl⟩ := ih h
      exact ⟨bit', hbit.trans (Nat.lt_succ_self bit), hl⟩
    rw [changeLookups] at h
    split at h
    · exact hlower h
    rcases List.mem_cons.mp h with rfl | h
    · exact ⟨bit, Nat.lt_succ_self bit, rfl⟩
    split at h
    · split at h
      · exact hlower h
      · cases h
    · dsimp only at h
      split at h
      · cases h
      rcases List.mem_append.mp h with h | h
      · split at h
        · exact hlower h
        · cases h
      · split at h
        · cases h
        split at h
        · cases h
        · exact hlower h

/-- Nothing is looked up where no modifier is to be flipped. -/
theorem changeLookups_eq_nil {button : KeyButton} {group : Int} {notRequiredMask : KeyModifierMask} {bits : Nat}
    {requiredState flipMask : KeyModifierMask} {st : ModifierState} :
    m.changeLookups button group notRequiredMask bits requiredState flipMask st = [] ↔
      ∀ bit < bits, flipMask.getLsbD bit = false := by
  induction bits with
  | zero => exact iff_of_true rfl fun _ hbit => absurd hbit (Nat.not_lt_zero _)
  | succ bit ih =>
    rw [changeLookups]
    cases hflip : flipMask.getLsbD bit with
    | true =>
      refine iff_of_false (List.cons_ne_nil _ _) fun h => ?_
      rw [h bit (Nat.lt_succ_self bit)] at hflip
      cases hflip
    | false =>
      rw [Bool.not_false, if_pos rfl, ih]
      refine ⟨fun h k hk => ?_, fun h k hk => h k (hk.trans (Nat.lt_succ_self bit))⟩
      rcases Nat.lt_succ_iff_lt_or_eq.mp hk with hk | rfl
      · exact h k hk
      · exact hflip

/-- The lookups for a state of the modifiers are inside if the group is, or if there is none. -/
theorem modifierStateLookups_inside (hm : m.Grouped) {button : KeyButton} {group : Int}
    {requiredState sensitiveMask notRequiredMask : KeyModifierMask} {st : ModifierState} :
    (∀ l ∈ m.modifierStateLookups button group requiredState sensitiveMask notRequiredMask st, m.Inside l) ↔
      (0 ≤ group ∧ group < m.m_numGroups) ∨
        NoFlip (flips st.currentState requiredState sensitiveMask notRequiredMask) := by
  constructor
  · intro h
    refine or_iff_not_imp_right.mpr fun hflip => ?_
    have hne : m.modifierStateLookups button group requiredState sensitiveMask notRequiredMask st ≠ [] :=
      fun hnil => hflip (changeLookups_eq_nil.mp hnil)
    obtain ⟨l, hl⟩ := List.exists_mem_of_ne_nil _ hne
    obtain ⟨bit, _, rfl⟩ := mem_changeLookups hl
    exact ⟨(h _ hl).1, (h _ hl).2.1⟩
  · rintro (⟨hlow, hhigh⟩ | hnone) l hl
    · obtain ⟨bit, hbit, rfl⟩ := mem_changeLookups hl
      refine ⟨hlow, hhigh, hbit, ?_⟩
      rw [hm.modifierKeys]
      simp only [kKeyModifierNumBits] at hbit ⊢
      omega
    · rw [modifierStateLookups, changeLookups_eq_nil.mpr hnone] at hl
      cases hl

theorem keysForModifierState_noFlip (m : KeyMap) (button : KeyButton) (group : Int)
    {requiredState sensitiveMask notRequiredMask : KeyModifierMask} {st : ModifierState}
    (h : NoFlip (flips st.currentState requiredState sensitiveMask notRequiredMask)) :
    m.keysForModifierState button group requiredState sensitiveMask notRequiredMask st = (st, true) :=
  m.changeModifiers_of_le button group notRequiredMask _ _ st (Nat.zero_le _) fun k _ hk => h k hk

/-! ### Items -/

private theorem itemLookups_inside (hm : m.Grouped) (t : Typing) {group : Int} {st : ModifierState}
    (hst : st.currentState = t.st.currentState) :
    (∀ l ∈ m.itemLookups t.item group t.desiredState t.overrideModifiers st, m.Inside l) ↔
      (0 ≤ group ∧ group < m.m_numGroups) ∨ t.NeedsNoModifiers := by
  rw [itemLookups, Typing.NeedsNoModifiers]
  cases t.item.dead with
  | true =>
    simp only [if_true]
    rw [modifierStateLookups_inside hm, hst]
  | false =>
    simp only [Bool.false_eq_true, if_false, List.forall_mem_append]
    rw [modifierStateLookups_inside hm, hst]
    by_cases hgroup : 0 ≤ group ∧ group < m.m_numGroups
    · refine iff_of_true ⟨Or.inl hgroup, ?_⟩ (Or.inl hgroup)
      split
      · exact fun _ h => nomatch h
      · exact (modifierStateLookups_inside hm).mpr (Or.inl hgroup)
    · simp only [hgroup, false_or]
      refine and_congr_right fun hnone => ?_
      rw [keysForModifierState_noFlip m t.item.button group (hst ▸ hnone)]
      simp only [Bool.not_true, Bool.false_eq_true, if_false]
      rw [modifierStateLookups_inside hm, hst]
      simp only [hgroup, false_or]

theorem getLanguageGroupID_inside {group : Int} (hlow : 0 ≤ group) (hhigh : group < m.m_numGroups) (lang : Str) :
    0 ≤ m.getLanguageGroupID group lang ∧
      (m.getLanguageGroupID group lang < m.m_numGroups ↔ m.LanguageInside lang) := by
  rw [getLanguageGroupID, LanguageInside]
  cases m.m_keyboardLayouts.idxOf? lang with
  | none => exact ⟨hlow, iff_of_true hhigh fun _ h => nomatch h⟩
  | some index =>
    refine ⟨Int.natCast_nonneg index, ?_⟩
    simp

/-- An item is looked up inside if its group stays in effect, or the group of the language is inside, or no
modifier is changed. -/
theorem typingLookups_inside (hm : m.Grouped) {lang : Str} {t : Typing} (ht : t.item ∈ m.items) :
    (∀ l ∈ m.typingLookups lang t, m.Inside l) ↔
      m.LanguageInside lang ∨ t.group = t.item.group ∨ t.NeedsNoModifiers := by
  obtain ⟨hlow, hhigh⟩ := hm.items _ ht
  rw [typingLookups]
  by_cases hsame : t.group = t.item.group
  · rw [if_neg (not_not.mpr hsame)]
    refine iff_of_true ((itemLookups_inside hm t rfl).mpr (Or.inl ?_)) (Or.inr (Or.inl hsame))
    exact ⟨hsame ▸ hlow, hsame ▸ hhigh⟩
  · obtain ⟨hid, hlang⟩ := getLanguageGroupID_inside hlow hhigh lang
    rw [if_pos hsame, itemLookups_inside hm t (by rfl), or_iff_right hsame, ← hlang]
    exact or_congr_left (and_iff_right hid)

/-! ### Groups -/

/-- A group that is not negative is brought into range. -/
theorem getEffectiveGroup_inside {group : Int} (hgroup : 0 ≤ group) (offset : Nat) (hn : 0 < m.m_numGroups) :
    0 ≤ m.getEffectiveGroup group offset ∧ m.getEffectiveGroup group offset < m.m_numGroups := by
  have hsum : 0 ≤ group + offset + m.m_numGroups := by omega
  rw [getEffectiveGroup, Int.tmod_eq_emod_of_nonneg hsum]
  exact ⟨Int.emod_nonneg _ (by omega), Int.emod_lt_of_pos _ (by omega)⟩

theorem searchLookups_inside (hm : m.Grouped) {id : KeyID} {keyGroupTable : KeyGroupTable}
    (htable : m.m_keyIDMap.get? id = some keyGroupTable) {group : Int} (hgroup : 0 ≤ group)
    (found : KeyEntryList → Bool) : ∀ l ∈ m.searchLookups keyGroupTable group found, m.Inside l := by
  intro l hl
  obtain ⟨g, hg, rfl⟩ := List.mem_map.mp hl
  obtain ⟨offset, hoffset, rfl⟩ := List.mem_map.mp (List.mem_of_mem_take hg)
  have hn : 0 < m.m_numGroups := (Nat.zero_le _).trans_lt (List.mem_range.mp hoffset)
  obtain ⟨hlow, hhigh⟩ := getEffectiveGroup_inside hgroup offset hn
  obtain ⟨k, he, _⟩ := (m.m_keyIDMap.get?_eq_some_iff id keyGroupTable).mp htable
  have hlength := hm.tables _ he
  refine ⟨hlow, hhigh, ?_⟩
  dsimp only at hlength
  omega

/-! ### Keys -/

private theorem mem_items {id : KeyID} {keyGroupTable : KeyGroupTable}
    (htable : m.m_keyIDMap.get? id = some keyGroupTable) {group : Int} {entry : KeyItemList}
    (hentry : entry ∈ keyGroupTable.entries group) {item : KeyItem} (hitem : item ∈ entry) : item ∈ m.items := by
  obtain ⟨k, he, _⟩ := (m.m_keyIDMap.get?_eq_some_iff id keyGroupTable).mp htable
  rw [KeyGroupTable.entries] at hentry
  split at hentry
  · cases hentry
  cases hget : keyGroupTable[group.toNat]? with
  | none => simp [hget] at hentry
  | some entries =>
    have hin : entry ∈ entries := by simpa [hget] using hentry
    have hflat : entry ∈ keyGroupTable.flatten := List.mem_flatten.mpr ⟨entries, List.mem_of_getElem? hget, hin⟩
    exact List.mem_flatMap.mpr ⟨_, he, List.mem_flatten.mpr ⟨entry, hflat, hitem⟩⟩

private theorem item_of_mem_typings {desiredMask overrideModifiers : KeyModifierMask} {isAutoRepeat : Bool} {lang : Str}
    {items : KeyItemList} {group : Int} {st : ModifierState} {t : Typing}
    (h : t ∈ m.typings desiredMask overrideModifiers isAutoRepeat lang items group st) : t.item ∈ items := by
  induction items generalizing group st with
  | nil => cases h
  | cons item items ih =>
    rw [typings] at h
    rcases List.mem_cons.mp h with rfl | h
    · exact List.mem_cons_self
    · split at h
      · exact List.mem_cons_of_mem _ (ih h)
      · cases h

private theorem characterTypings_items {id : KeyID} {group : Int} {desiredMask : KeyModifierMask} {isAutoRepeat : Bool}
    {lang : Str} {st : ModifierState} :
    ∀ t ∈ m.characterTypings id group desiredMask isAutoRepeat lang st, t.item ∈ m.items := by
  intro t ht
  rw [characterTypings] at ht
  split at ht
  · cases ht
  · rename_i itemList hlist
    obtain ⟨table, htable, hlist⟩ := Option.bind_eq_some_iff.mp hlist
    obtain ⟨offset, _, hlist⟩ := List.exists_of_findSome?_eq_some hlist
    obtain ⟨index, _, hget⟩ := Option.bind_eq_some_iff.mp hlist
    exact mem_items htable (List.mem_of_getElem? hget) (item_of_mem_typings ht)

private theorem commandTypings_items {id : KeyID} {group : Int} {desiredMask : KeyModifierMask} {isAutoRepeat : Bool}
    {lang : Str} {st : ModifierState} :
    ∀ t ∈ m.commandTypings id group desiredMask isAutoRepeat lang st, t.item ∈ m.items := by
  intro t ht
  rw [commandTypings] at ht
  split at ht
  · cases ht
  · rename_i keyItem hitem
    obtain ⟨table, htable, hitem⟩ := Option.bind_eq_some_iff.mp hitem
    obtain ⟨offset, _, hitem⟩ := List.exists_of_findSome?_eq_some hitem
    obtain ⟨entry, hentry, hitem⟩ := List.exists_of_findSome?_eq_some hitem
    have hlast := item_of_mem_typings ht
    rw [List.mem_singleton] at hlast
    match entry, hitem with
    | [item], hitem =>
      simp only [commandItem, Option.ite_none_right_eq_some, Option.some.injEq] at hitem
      exact mem_items htable hentry (List.mem_singleton.mpr (hlast.trans hitem.2.symm))

private theorem typings_inside (hm : m.Grouped) {lang : Str} {ts : List Typing}
    (hts : ∀ t ∈ ts, t.item ∈ m.items) :
    (∀ l ∈ ts.flatMap (m.typingLookups lang), m.Inside l) ↔
      m.LanguageInside lang ∨ ∀ t ∈ ts, t.group = t.item.group ∨ t.NeedsNoModifiers := by
  have heach : (∀ l ∈ ts.flatMap (m.typingLookups lang), m.Inside l) ↔
      ∀ t ∈ ts, m.LanguageInside lang ∨ t.group = t.item.group ∨ t.NeedsNoModifiers := by
    simp only [List.mem_flatMap, forall_exists_index, and_imp]
    refine ⟨fun h t ht => (typingLookups_inside hm (hts t ht)).mp fun l hl => h l t ht hl, fun h l t ht hl => ?_⟩
    exact (typingLookups_inside hm (hts t ht)).mpr (h t ht) l hl
  rw [heach]
  by_cases hlang : m.LanguageInside lang
  · exact iff_of_true (fun _ _ => Or.inl hlang) (Or.inl hlang)
  · simp only [hlang, false_or]

private theorem characterLookups_inside (hm : m.Grouped) {group : Int} (hlow : 0 ≤ group)
    (hhigh : group < m.m_numGroups) {id : KeyID} {desiredMask : KeyModifierMask} {isAutoRepeat : Bool} {lang : Str}
    {st : ModifierState} :
    (∀ l ∈ m.characterLookups id group desiredMask isAutoRepeat lang st, m.Inside l) ↔
      m.LanguageInside lang ∨ ∀ t ∈ m.characterTypings id group desiredMask isAutoRepeat lang st,
        t.group = t.item.group ∨ t.NeedsNoModifiers := by
  rw [characterLookups, ← typings_inside hm characterTypings_items]
  cases htable : m.m_keyIDMap.get? id with
  | none => simp [characterTypings, htable]
  | some table =>
    have hid := (getLanguageGroupID_inside hlow hhigh lang).1
    simp only [List.forall_mem_append]
    exact and_iff_right (searchLookups_inside hm htable hid _)

private theorem commandLookups_inside (hm : m.Grouped) {group : Int} (hlow : 0 ≤ group)
    {id : KeyID} {desiredMask : KeyModifierMask} {isAutoRepeat : Bool} {lang : Str} {st : ModifierState} :
    (∀ l ∈ m.commandLookups id group desiredMask isAutoRepeat lang st, m.Inside l) ↔
      m.LanguageInside lang ∨ ∀ t ∈ m.commandTypings id group desiredMask isAutoRepeat lang st,
        t.group = t.item.group ∨ t.NeedsNoModifiers := by
  rw [commandLookups, ← typings_inside hm commandTypings_items]
  cases htable : m.m_keyIDMap.get? id with
  | none => simp [commandTypings, htable]
  | some table =>
    simp only [List.forall_mem_append]
    exact and_iff_right (searchLookups_inside hm htable hlow _)

/-- The lookups of a key are inside exactly if the language has no layout beyond the groups, or no item finds
modifiers to change in a group that is not its own. -/
theorem mapKey_inside_iff (hm : m.Grouped) {group : Int} (hlow : 0 ≤ group) (hhigh : group < m.m_numGroups)
    (id : KeyID) (desiredMask : KeyModifierMask) (isAutoRepeat : Bool) (lang : Str) (st : ModifierState) :
    (∀ l ∈ m.mapLookups id group desiredMask isAutoRepeat lang st, m.Inside l) ↔
      m.LanguageInside lang ∨ ∀ t ∈ m.mapTypings id group desiredMask isAutoRepeat lang st,
        t.group = t.item.group ∨ t.NeedsNoModifiers := by
  have hmodifiers {requiredState : KeyModifierMask} :
      ∀ l ∈ m.modifierStateLookups 0 group requiredState desiredMask 0 st, m.Inside l :=
    (modifierStateLookups_inside hm).mpr (Or.inl ⟨hlow, hhigh⟩)
  have hnone : ∀ t ∈ ([] : List Typing), t.group = t.item.group ∨ t.NeedsNoModifiers := fun _ ht => nomatch ht
  unfold mapLookups mapTypings
  by_cases hswitch : id = kKeyNextGroup ∨ id = kKeyPrevGroup
  · simp only [if_pos hswitch]
    exact iff_of_true (fun _ hl => nomatch hl) (Or.inr hnone)
  simp only [if_neg hswitch]
  by_cases hmodifier : id ∈ modifierKeyIDs
  · simp only [if_pos hmodifier]
    exact characterLookups_inside hm hlow hhigh
  simp only [if_neg hmodifier]
  by_cases hset : id = kKeySetModifiers
  · simp only [hset, true_or, if_true]
    exact iff_of_true hmodifiers (Or.inr hnone)
  by_cases hclear : id = kKeyClearModifiers
  · simp only [hclear, or_true, if_true]
    exact iff_of_true hmodifiers (Or.inr hnone)
  simp only [hset, hclear, or_self, if_false]
  by_cases hcommand : isCommand desiredMask = true
  · simp only [if_pos hcommand]
    exact commandLookups_inside hm hlow
  · simp only [if_neg hcommand]
    exact characterLookups_inside hm hlow hhigh

/-! ### Maps as they are made -/

/-- A map that is not finished: the groups of the items are ones of its tables. -/
def Entered (m : KeyMap) : Prop :=
  ∀ item ∈ m.items, 0 ≤ item.group ∧ ∃ id table, m.m_keyIDMap.get? id = some table ∧ item.group < table.length

private theorem mem_items_iff (item : KeyItem) :
    item ∈ m.items ↔ ∃ id table, m.m_keyIDMap.get? id = some table ∧ item ∈ table.flatten.flatten := by
  rw [items, List.mem_flatMap]
  constructor
  · rintro ⟨e, he, hitem⟩
    exact ⟨e.1, e.2, m.m_keyIDMap.get?_of_mem he, hitem⟩
  · rintro ⟨id, table, htable, hitem⟩
    obtain ⟨k, he, _⟩ := (m.m_keyIDMap.get?_eq_some_iff id table).mp htable
    exact ⟨_, he, hitem⟩

private theorem get?_setTable (id : KeyID) (table : KeyGroupTable) (k : KeyID) :
    (m.setTable id table).m_keyIDMap.get? k = if id = k then some table else m.m_keyIDMap.get? k :=
  m.m_keyIDMap.get?_put id k table

private theorem mem_items_setTable {id : KeyID} {table : KeyGroupTable} {item : KeyItem}
    (h : item ∈ (m.setTable id table).items) : item ∈ table.flatten.flatten ∨ item ∈ m.items := by
  obtain ⟨k, table', hget, hitem⟩ := (mem_items_iff item).mp h
  rw [get?_setTable] at hget
  split at hget
  · obtain rfl := Option.some.inj hget
    exact Or.inl hitem
  · exact Or.inr ((mem_items_iff item).mpr ⟨k, table', hget, hitem⟩)

private theorem mem_roomFor {id : KeyID} {group : Int} {item : KeyItem}
    (h : item ∈ (m.roomFor id group).flatten.flatten) : item ∈ m.items := by
  rw [roomFor, List.flatten_append, List.flatten_append, List.mem_append] at h
  rcases h with h | h
  · cases hget : m.m_keyIDMap.get? id with
    | none => simp [hget] at h
    | some table => exact (mem_items_iff item).mpr ⟨id, table, hget, by simpa [hget] using h⟩
  · obtain ⟨entry, hentry, _⟩ := List.mem_flatten.mp h
    obtain ⟨entries, hentries, hin⟩ := List.mem_flatten.mp hentry
    rw [(List.mem_replicate.mp hentries).2] at hin
    cases hin

private theorem mem_modify {table : KeyGroupTable} {index : Nat} {entry : KeyItemList} {item : KeyItem}
    (h : item ∈ (table.modify index (· ++ [entry])).flatten.flatten) :
    item ∈ table.flatten.flatten ∨ item ∈ entry := by
  obtain ⟨entry', hentry, hitem⟩ := List.mem_flatten.mp h
  obtain ⟨entries, hentries, hin⟩ := List.mem_flatten.mp hentry
  obtain ⟨k, hk⟩ := List.mem_iff_getElem?.mp hentries
  rw [List.getElem?_modify] at hk
  obtain ⟨old, hold, rfl⟩ := Option.map_eq_some_iff.mp hk
  have hkept (hin : entry' ∈ old) : item ∈ table.flatten.flatten :=
    List.mem_flatten.mpr ⟨entry', List.mem_flatten.mpr ⟨old, List.mem_of_getElem? hold, hin⟩, hitem⟩
  split at hin
  · rcases List.mem_append.mp hin with hin | hin
    · exact Or.inl (hkept hin)
    · exact Or.inr (List.mem_singleton.mp hin ▸ hitem)
  · exact Or.inl (hkept hin)

private theorem length_roomFor (id : KeyID) (group : Int) :
    m.m_numGroups ≤ (m.roomFor id group).length ∧ group < (m.roomFor id group).length ∧
      ∀ table, m.m_keyIDMap.get? id = some table → table.length ≤ (m.roomFor id group).length := by
  rw [roomFor, List.length_append, List.length_replicate]
  refine ⟨by omega, by omega, fun table htable => ?_⟩
  rw [htable, Option.getD_some]
  omega

theorem entered_empty (platform : KeyPlatform) : (empty platform).Entered := fun _ h => nomatch h

private theorem Entered.setTable (h : m.Entered) {id : KeyID} {table : KeyGroupTable}
    (hlength : ∀ old, m.m_keyIDMap.get? id = some old → old.length ≤ table.length)
    (hitems : ∀ item ∈ table.flatten.flatten, item ∈ m.items ∨ 0 ≤ item.group ∧ item.group < table.length) :
    (m.setTable id table).Entered := by
  have hself : (m.setTable id table).m_keyIDMap.get? id = some table := by rw [get?_setTable, if_pos rfl]
  have hkept : ∀ item ∈ m.items, 0 ≤ item.group ∧
      ∃ id' table', (m.setTable id table).m_keyIDMap.get? id' = some table' ∧ item.group < table'.length := by
    intro item hitem
    obtain ⟨hlow, id', table', hget, hlt⟩ := h item hitem
    by_cases hsame : id = id'
    · have hle := hlength table' (hsame ▸ hget)
      exact ⟨hlow, id, table, hself, by omega⟩
    · exact ⟨hlow, id', table', by rw [get?_setTable, if_neg hsame, hget], hlt⟩
  intro item hitem
  rcases mem_items_setTable hitem with hnew | hold
  · rcases hitems item hnew with hold | ⟨hlow, hlt⟩
    · exact hkept item hold
    · exact ⟨hlow, id, table, hself, hlt⟩
  · exact hkept item hold

/-- A new item leaves the map as it is, or a table gets room for its group and perhaps the item. -/
private theorem addKeyEntry_cases (m : KeyMap) (item : KeyItem) : m.addKeyEntry item = m ∨
    ∃ table, m.addKeyEntry item = m.setTable item.id table ∧
      table.length = (m.roomFor item.id item.group).length ∧
      ∀ item' ∈ table.flatten.flatten, item' ∈ m.items ∨ item'.group = item.group := by
  rw [KeyMap.addKeyEntry]
  split_ifs with hid
  · exact Or.inl rfl
  right
  refine ⟨_, rfl, ?_, fun item' hitem => ?_⟩
  · split_ifs
    · rfl
    · exact List.length_modify ..
  · split_ifs at hitem
    · exact Or.inl (mem_roomFor hitem)
    · refine (mem_modify hitem).imp mem_roomFor fun hnew => ?_
      rw [List.mem_singleton.mp hnew]

/-- An item as the map keeps it. -/
def stored (item : KeyItem) : KeyItem :=
  { item with dead := isDeadKey item.id, required := item.required &&& item.sensitive }

@[simp] theorem stored_required (item : KeyItem) : (stored item).required = item.required &&& item.sensitive := rfl

/-- A new item is in the map as it is kept there, beside those that were in it. -/
theorem mem_items_addKeyEntry {item : KeyItem} (hid : item.id ≠ kKeyNone) (hgroup : 0 ≤ item.group) (item' : KeyItem) :
    item' ∈ (m.addKeyEntry item).items ↔ item' ∈ m.items ∨ item' = stored item := by
  obtain ⟨_, hroom, _⟩ := length_roomFor (m := m) item.id item.group
  have hself {table : KeyGroupTable} (hitem : stored item ∈ table.flatten.flatten) :
      stored item ∈ (m.setTable item.id table).items :=
    (mem_items_iff _).mpr ⟨item.id, table, by rw [get?_setTable, if_pos rfl], hitem⟩
  have hold := subset_roomFor m item.id item.group
  rw [KeyMap.addKeyEntry, if_neg hid]
  change item' ∈ (m.setTable item.id (if [stored item] ∈ (m.roomFor item.id item.group).entries item.group then
    m.roomFor item.id item.group
    else (m.roomFor item.id item.group).modify item.group.toNat (· ++ [[stored item]]))).items ↔ _
  split_ifs with hknown
  · refine ⟨fun h => Or.inl ((mem_items_setTable h).elim mem_roomFor id), ?_⟩
    rintro (h | rfl)
    · exact items_subset_setTable hold h
    · refine hself ?_
      rw [KeyGroupTable.entries, if_neg (not_lt.mpr hgroup)] at hknown
      cases hget : (m.roomFor item.id item.group)[item.group.toNat]? with
      | none => simp [hget] at hknown
      | some entries =>
        rw [hget, Option.getD_some] at hknown
        exact List.mem_flatten.mpr ⟨_, List.mem_flatten.mpr ⟨_, List.mem_of_getElem? hget, hknown⟩,
          List.mem_singleton_self _⟩
  · constructor
    · intro h
      rcases mem_items_setTable h with h | h
      · exact (mem_modify h).imp mem_roomFor List.mem_singleton.mp
      · exact Or.inl h
    · rintro (h | rfl)
      · exact items_subset_setTable (List.Subset.trans hold (subset_modify_append ..)) h
      · have hlt : item.group.toNat < (m.roomFor item.id item.group).length := by omega
        have hmem : (m.roomFor item.id item.group)[item.group.toNat] ++ [[stored item]] ∈
            (m.roomFor item.id item.group).modify item.group.toNat (· ++ [[stored item]]) :=
          List.mem_of_getElem? (i := item.group.toNat) (by simp [hlt])
        refine hself (List.mem_flatten.mpr ⟨[stored item], ?_, List.mem_singleton_self _⟩)
        exact List.mem_flatten.mpr ⟨_, hmem, List.mem_append_right _ (List.mem_singleton_self _)⟩

theorem Entered.addKeyEntry (h : m.Entered) {item : KeyItem} (hgroup : 0 ≤ item.group) :
    (m.addKeyEntry item).Entered := by
  obtain ⟨_, hroom, hold⟩ := length_roomFor (m := m) item.id item.group
  rcases addKeyEntry_cases m item with hsame | ⟨table, htable, hlength, hitems⟩
  · rwa [hsame]
  · rw [htable]
    refine h.setTable (fun old hget => (hold old hget).trans_eq hlength.symm) fun item' hitem => ?_
    refine (hitems item' hitem).imp_right fun hnew => ?_
    rw [hnew, hlength]
    exact ⟨hgroup, hroom⟩

theorem Grouped.setLanguageData (h : m.Grouped) (layouts : List Str) :
    ({ m with m_keyboardLayouts := layouts }).Grouped :=
  ⟨h.tables, h.items, h.modifierKeys⟩

private theorem le_foldl_max (l : List Nat) (a : Nat) : a ≤ l.foldl max a ∧ ∀ x ∈ l, x ≤ l.foldl max a := by
  induction l generalizing a with
  | nil => exact ⟨le_rfl, fun _ hx => nomatch hx⟩
  | cons b l ih =>
    obtain ⟨hmax, hl⟩ := ih (max a b)
    refine ⟨(le_max_left a b).trans hmax, fun x hx => ?_⟩
    rcases List.mem_cons.mp hx with rfl | hx
    · exact (le_max_right a x).trans hmax
    · exact hl x hx

/-- A finished map has all groups of the map that was entered, in every table. -/
theorem finish_grouped (h : m.Entered) : m.finish.Grouped := by
  have hpadded (table : KeyGroupTable) (n : Nat) :
      (table ++ List.replicate (n - table.length) ([] : KeyEntryList)).flatten = table.flatten := by
    simp
  refine ⟨fun e he => ?_, fun item hitem => ?_, ?_⟩
  · obtain ⟨table, _, hpad⟩ := (m.m_keyIDMap.mem_mapValues _ e).mp he
    rw [hpad, List.length_append, List.length_replicate]
    change m.findNumGroups ≤ _
    omega
  · obtain ⟨e, he, hin⟩ := List.mem_flatMap.mp hitem
    obtain ⟨table, htable, hpad⟩ := (m.m_keyIDMap.mem_mapValues _ e).mp he
    rw [hpad, hpadded] at hin
    obtain ⟨hlow, id, table', hget, hlt⟩ := h item (List.mem_flatMap.mpr ⟨_, htable, hin⟩)
    obtain ⟨k, hmem, _⟩ := (m.m_keyIDMap.get?_eq_some_iff id table').mp hget
    have hle := (le_foldl_max (m.m_keyIDMap.entries.map (·.2.length)) 0).2 _ (List.mem_map_of_mem hmem)
    refine ⟨hlow, ?_⟩
    change item.group < (m.findNumGroups : Int)
    rw [findNumGroups]
    dsimp only at hle
    omega
  · simp [finish, setModifierKeys]

/-! ### Three layouts for two groups -/

def enteredTwoGroups : KeyMap :=
  let item : KeyItem := ⟨kKeyShift_L, 0, 50, 0, 0, keyModifierShift, false, false, 0⟩
  (((empty .other).addKeyEntry item).addKeyEntry
    { item with id := 0x41, button := 38, required := keyModifierShift, sensitive := keyModifierShift, generates := 0 }
    ).addKeyEntry { item with id := 0x42, group := 1, button := 39, generates := 0 }

def twoGroups : KeyMap :=
  { enteredTwoGroups.finish with m_keyboardLayouts := ["us".toList, "de".toList, "fr".toList] }

private theorem twoGroups_grouped : twoGroups.Grouped :=
  (finish_grouped ((((entered_empty .other).addKeyEntry (by decide)).addKeyEntry (by decide)).addKeyEntry
    (by decide))).setLanguageData _

/-- In the group of the key nothing is looked up outside, whatever the language. -/
theorem mapKey_inside_iff_twoGroups :
    (∀ l ∈ twoGroups.mapLookups 0x41 0 keyModifierShift false "fr".toList ⟨.empty, 0, []⟩, twoGroups.Inside l) ↔
      twoGroups.LanguageInside "fr".toList ∨
        ∀ t ∈ twoGroups.mapTypings 0x41 0 keyModifierShift false "fr".toList ⟨.empty, 0, []⟩,
          t.group = t.item.group ∨ t.NeedsNoModifiers :=
  mapKey_inside_iff twoGroups_grouped (by decide) (by decide) 0x41 keyModifierShift false "fr".toList ⟨.empty, 0, []⟩

/-- From the other group the third layout is switched to, and Shift is looked for there. -/
theorem shift_of_third_layout :
    ¬ ∀ l ∈ twoGroups.mapLookups 0x41 1 keyModifierShift false "fr".toList ⟨.empty, 0, []⟩, twoGroups.Inside l := by
  intro h
  have hlookup : .modifierKeys 2 0 ∈
      twoGroups.mapLookups 0x41 1 keyModifierShift false "fr".toList ⟨.empty, 0, []⟩ := by
    decide
  exact absurd (h _ hlookup).2.1 (by decide)

end Synergy.KeyMap
