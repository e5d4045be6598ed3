import Mathlib.Data.BitVec
import Mathlib.Order.Lattice
import Synergy.Input.KeyNames

/-! Keystrokes that are written and read again. The modifiers of a text come back name by name, and
then what stands for the key decides: a name of the table, a character, or an escape, which has four
digits for the keys below `0x10000` only. -/
namespace Synergy.KeyMap

/-- The modifiers that have names. -/
def namedModifiers : KeyModifierMask := 0x3f

/-- The characters that the configuration reader takes for its own. -/
def delimiters : List Char := ['#', ',', ';', '(', ')']

/-- A character of a name: no separator, no delimiter and not the sign of an escape. -/
private def inName (c : Char) : Bool := inComponent c && !delimiters.contains c && c.toLower != '\\'

private theorem inName_iff (c : Char) :
    inName c = true ↔ inComponent c = true ∧ c ∉ delimiters ∧ c.toLower ≠ '\\' := by
  simp [inName, and_assoc]

/-- Names are found again, and are no modifiers but for one. -/
private theorem key_names : ∀ e ∈ kKeyNameMap, nameToKeyMap e.1 = some e.2 ∧
    (e.2 ≠ kKeyAltGr → nameToModifierMap e.1 = none) ∧ e.1 ≠ [] ∧ e.1.length ≠ 1 ∧ e.2 < 0x10000 := by
  decide +kernel

private theorem key_characters : ∀ e ∈ kKeyNameMap,
    ∀ c ∈ e.1, inComponent c = true ∧ c ∉ delimiters ∧ c.toLower ≠ '\\' := by
  have hall : ∀ e ∈ kKeyNameMap, e.1.all inName = true := by decide +kernel
  exact fun e he c hc => (inName_iff c).mp (List.all_eq_true.mp (hall e he) c hc)

private theorem modifier_names : ∀ e ∈ kModifierNameMap, nameToModifierMap e.1 = some e.2 ∧ e.1 ≠ [] ∧
    e.1.length ≠ 1 ∧ e.2 &&& namedModifiers = e.2 := by
  decide

private theorem modifier_characters : ∀ e ∈ kModifierNameMap,
    ∀ c ∈ e.1, inComponent c = true ∧ c ∉ delimiters ∧ c.toLower ≠ '\\' := by
  have hall : ∀ e ∈ kModifierNameMap, e.1.all inName = true := by decide
  exact fun e he c hc => (inName_iff c).mp (List.all_eq_true.mp (hall e he) c hc)

theorem mem_of_valueOf {α : Type*} {table : List (Str × α)} {x : Str} {v : α} (h : valueOf table x = some v) :
    ∃ e ∈ table, e.2 = v ∧ e.1.fold = x.fold := by
  rw [valueOf, Option.map_eq_some_iff] at h
  obtain ⟨e, he, hv⟩ := h
  have hfold := List.find?_some he
  exact ⟨e, List.mem_reverse.mp (List.mem_of_find?_eq_some he), hv, (CaselessCmp.equal_iff _ _).mp hfold⟩

theorem mem_of_nameOf {α : Type*} [DecidableEq α] {table : List (Str × α)} {v : α} {x : Str}
    (h : nameOf table v = some x) : (x, v) ∈ table := by
  rw [nameOf, Option.map_eq_some_iff] at h
  obtain ⟨e, he, rfl⟩ := h
  have hv : e.2 = v := by simpa using List.find?_some he
  exact hv ▸ List.mem_reverse.mp (List.mem_of_find?_eq_some he)

private theorem length_of_fold {x y : Str} (h : x.fold = y.fold) : x.length = y.length := by
  simpa [Str.fold] using congrArg List.length h

/-- No name of a table is one character alone. -/
private theorem valueOf_single {α : Type*} {table : List (Str × α)} (hl : ∀ e ∈ table, e.1.length ≠ 1)
    (c : Char) : valueOf table [c] = none := by
  by_contra h
  obtain ⟨v, hv⟩ := Option.ne_none_iff_exists'.mp h
  obtain ⟨e, he, _, hfold⟩ := mem_of_valueOf hv
  exact hl e he (length_of_fold hfold)

/-- No name of a table starts with the sign of an escape. -/
private theorem valueOf_escape {α : Type*} {table : List (Str × α)}
    (hl : ∀ e ∈ table, ∀ c ∈ e.1, c.toLower ≠ '\\') (x : Str) : valueOf table ('\\' :: x) = none := by
  by_contra h
  obtain ⟨v, hv⟩ := Option.ne_none_iff_exists'.mp h
  obtain ⟨e, he, _, hfold⟩ := mem_of_valueOf hv
  have hmem : '\\' ∈ e.1.fold := by
    rw [hfold]
    exact List.mem_cons_self
  obtain ⟨c, hc, hlow⟩ := List.mem_map.mp hmem
  exact hl e he c hc hlow

/-! ### Reading one component -/

private theorem inComponent_blank {c : Char} (h : inComponent c = true) : isBlank c = false := by
  simp only [inComponent, Bool.not_eq_true', Bool.or_eq_false_iff] at h
  exact h.1.1

/-- A component, and what the reader makes of the rest of the text. -/
private theorem component_split {name : Str} (hne : name ≠ []) (hname : ∀ c ∈ name, inComponent c = true)
    {rest : Str} (hrest : rest.takeWhile inComponent = []) :
    (∃ first tail, (name ++ rest).dropWhile isBlank = first :: tail) ∧
      (name ++ rest).dropWhile isBlank = name ++ rest ∧ (name ++ rest).takeWhile inComponent = name ∧
      (name ++ rest).dropWhile inComponent = rest := by
  obtain ⟨first, tail, rfl⟩ := List.exists_cons_of_ne_nil hne
  have hblank : ((first :: tail) ++ rest).dropWhile isBlank = (first :: tail) ++ rest := by
    rw [List.cons_append, List.dropWhile_cons, inComponent_blank (hname first List.mem_cons_self)]
    rfl
  have hdrop : rest.dropWhile inComponent = rest := by
    have happ := List.takeWhile_append_dropWhile (p := inComponent) (l := rest)
    rwa [hrest, List.nil_append] at happ
  refine ⟨⟨first, tail ++ rest, hblank⟩, hblank, ?_, ?_⟩
  · rw [List.takeWhile_append_of_pos hname, hrest, List.append_nil]
  · rw [List.dropWhile_append_of_pos hname, hdrop]

/-- A component at the start of a text, and what becomes of it. -/
theorem parseModifiersFrom_component {name : Str} (hne : name ≠ []) (hname : ∀ c ∈ name, inComponent c = true)
    {rest : Str} (hrest : rest.takeWhile inComponent = []) (mask : KeyModifierMask) :
    parseModifiersFrom mask (name ++ rest) =
      match nameToModifierMap name with
      | none => some (((name ++ rest).reverse.dropWhile isBlank).reverse, mask)
      | some mod =>
        if mask &&& mod ≠ 0 then none
        else
          match rest.dropWhile isBlank with
          | [] => some ([], mask ||| mod)
          | plus :: rest => if plus ≠ '+' then none else parseModifiersFrom (mask ||| mod) rest := by
  obtain ⟨⟨first, tail, hfirst⟩, hblank, htake, hdrop⟩ := component_split hne hname hrest
  rw [parseModifiersFrom]
  simp only [hfirst]
  rw [hblank] at hfirst
  rw [← hfirst]
  have hrest' : ((name ++ rest).dropWhile isBlank |>.dropWhile inComponent).dropWhile isBlank =
      rest.dropWhile isBlank := by
    rw [hblank, hdrop]
  simp only [htake, if_neg hne]
  cases nameToModifierMap name with
  | none => rfl
  | some mod =>
    by_cases hfree : mask &&& mod ≠ 0
    · simp only [if_pos hfree]
    · simp only [if_neg hfree]
      split
      · rename_i hend
        rw [hrest'] at hend
        rw [hend]
      · rename_i plus tail' hplus
        rw [hrest'] at hplus
        rw [hplus]

/-- A modifier is taken, with the plus sign after it. -/
theorem parseModifiersFrom_plus {name : Str} {mod : KeyModifierMask} (hmod : (name, mod) ∈ kModifierNameMap)
    {mask : KeyModifierMask} (hfree : mask &&& mod = 0) (rest : Str) :
    parseModifiersFrom mask (name ++ '+' :: rest) = parseModifiersFrom (mask ||| mod) rest := by
  obtain ⟨hvalue, hne, _, _⟩ := modifier_names _ hmod
  have hname := modifier_characters _ hmod
  rw [parseModifiersFrom_component hne (fun c hc => (hname c hc).1) rfl, hvalue]
  have hblank : ('+' :: rest).dropWhile isBlank = '+' :: rest := rfl
  simp only [hblank, hfree, ne_eq, not_true_eq_false, if_false]

/-- A modifier at the end of a text is taken, unless it has been before. -/
theorem parseModifiersFrom_end {name : Str} {mod : KeyModifierMask} (hmod : (name, mod) ∈ kModifierNameMap)
    (mask : KeyModifierMask) :
    parseModifiersFrom mask name = if mask &&& mod ≠ 0 then none else some ([], mask ||| mod) := by
  obtain ⟨hvalue, hne, _, _⟩ := modifier_names _ hmod
  have hname := modifier_characters _ hmod
  have hend : ([] : Str).takeWhile inComponent = [] := rfl
  have h := parseModifiersFrom_component hne (fun c hc => (hname c hc).1) hend mask
  rw [List.append_nil, hvalue] at h
  exact h

/-- What is no modifier is left for the key. -/
theorem parseModifiersFrom_key {text : Str} (hne : text ≠ []) (htext : ∀ c ∈ text, inComponent c = true)
    (hmod : nameToModifierMap text = none) (mask : KeyModifierMask) :
    parseModifiersFrom mask text = some (text, mask) := by
  have hend : ([] : Str).takeWhile inComponent = [] := rfl
  have h := parseModifiersFrom_component hne htext hend mask
  rw [List.append_nil, hmod] at h
  have hlast : text.reverse.dropWhile isBlank = text.reverse := by
    rw [List.dropWhile_eq_self_iff]
    intro hpos
    rw [Bool.not_eq_true]
    exact inComponent_blank (htext _ (List.mem_reverse.mp (List.getElem_mem hpos)))
  rw [h]
  simp only [hlast, List.reverse_reverse]

/-! ### The modifiers of a text -/

/-- The modifiers below a bit that have names. -/
private def namedBelow (i : Nat) : KeyModifierMask := namedModifiers &&& BitVec.ofNat 32 (2 ^ i - 1)

private theorem namedBelow_bit : ∀ i < 16, namedBelow i &&& (1 <<< i) = 0 ∧
    namedBelow (i + 1) = namedBelow i ||| (namedModifiers &&& (1 <<< i)) ∧
    (namedModifiers &&& (1 <<< i) = 0 ∧ modifierToNameMap (1 <<< i) = none ∨
      namedModifiers &&& (1 <<< i) = 1 <<< i ∧
        ∃ e ∈ kModifierNameMap, e.2 = 1 <<< i ∧ modifierToNameMap (1 <<< i) = some e.1) := by
  decide

private theorem and_bit (mask : KeyModifierMask) (i : Nat) :
    mask &&& (1 <<< i) = 0 ∨ mask &&& (1 <<< i) = 1 <<< i := by
  have h := BitVec.and_twoPow mask i
  rw [BitVec.twoPow_eq] at h
  by_cases hbit : mask.getLsbD i = true
  · exact Or.inr (h.trans (if_pos hbit))
  · exact Or.inl (h.trans (if_neg hbit))

/-- A bit adds nothing to the text, or the name of a modifier. -/
private theorem modifierText_cases (mask : KeyModifierMask) {i : Nat} (hi : i < 16) :
    (modifierText mask i = [] ∧ mask &&& namedBelow (i + 1) = mask &&& namedBelow i) ∨
      ∃ e ∈ kModifierNameMap, modifierText mask i = e.1 ++ ['+'] ∧ mask &&& namedBelow i &&& e.2 = 0 ∧
        mask &&& namedBelow (i + 1) = (mask &&& namedBelow i) ||| e.2 := by
  obtain ⟨hfree, hnext, hname⟩ := namedBelow_bit i hi
  rw [hnext, BitVec.and_or_distrib_left]
  rcases hname with ⟨hnone, hname⟩ | ⟨hsome, e, he, hid, hname⟩
  · left
    rw [hnone]
    refine ⟨?_, by simp⟩
    rw [modifierText, hname]
    exact ite_self _
  · rw [hsome]
    rcases and_bit mask i with hbit | hbit
    · left
      rw [hbit]
      exact ⟨if_pos hbit, by simp⟩
    · right
      have hne : ¬ e.2 = 0 := by
        intro hzero
        exact absurd he (by rw [show e = (e.1, 0) from Prod.ext rfl hzero]; simp [kModifierNameMap])
      refine ⟨e, he, ?_, ?_, by rw [hbit, hid]⟩
      · rw [modifierText, hbit, ← hid, if_neg hne, hid, hname]
        rfl
      · rw [hid, BitVec.and_assoc, hfree]
        exact BitVec.and_zero

/-- The modifiers of a text are taken one after the other. -/
private theorem parseModifiersFrom_bits (mask : KeyModifierMask) {i : Nat} (hi : i ≤ 16) (text : Str) :
    parseModifiersFrom 0 ((List.range i).flatMap (modifierText mask) ++ text) =
      parseModifiersFrom (mask &&& namedBelow i) text := by
  induction i generalizing text with
  | zero =>
    have hzero : mask &&& namedBelow 0 = 0 := BitVec.and_zero
    rw [hzero]
    rfl
  | succ i ih =>
    rw [List.range_succ, List.flatMap_append, List.flatMap_singleton, List.append_assoc, ih (by omega)]
    rcases modifierText_cases mask (show i < 16 by omega) with ⟨htext, hnext⟩ | ⟨e, he, htext, hfree, hnext⟩
    · rw [htext, hnext, List.nil_append]
    · rw [htext, hnext, List.append_assoc, List.singleton_append]
      exact parseModifiersFrom_plus he hfree text

/-- Without the last plus sign the modifiers are the whole text. -/
private theorem parseModifiersFrom_dropLast (mask : KeyModifierMask) {i : Nat} (hi : i ≤ 16) :
    parseModifiersFrom 0 ((List.range i).flatMap (modifierText mask)).dropLast =
      some ([], mask &&& namedBelow i) := by
  induction i with
  | zero =>
    have hzero : mask &&& namedBelow 0 = 0 := BitVec.and_zero
    rw [hzero, List.range_zero, List.flatMap_nil, List.dropLast_nil, parseModifiersFrom]
    rfl
  | succ i ih =>
    have hbits := parseModifiersFrom_bits mask (show i ≤ 16 by omega)
    rw [List.range_succ, List.flatMap_append, List.flatMap_singleton]
    rcases modifierText_cases mask (show i < 16 by omega) with ⟨htext, hnext⟩ | ⟨e, he, htext, hfree, hnext⟩
    · rw [htext, hnext, List.append_nil]
      exact ih (by omega)
    · rw [htext, hnext, ← List.append_assoc, List.dropLast_concat, hbits, parseModifiersFrom_end he, hfree]
      rfl

private theorem namedBelow_all : namedBelow kKeyModifierNumBits = namedModifiers := by decide

/-- A modifier that the reader takes has a name. -/
private theorem named_or {mask mod : KeyModifierMask} (hmask : mask &&& namedModifiers = mask) {c : Str}
    (hmod : nameToModifierMap c = some mod) : (mask ||| mod) &&& namedModifiers = mask ||| mod := by
  obtain ⟨e, he, rfl, _⟩ := mem_of_valueOf hmod
  rw [BitVec.and_or_distrib_right, hmask, (modifier_names e he).2.2.2]

/-- The modifiers that the reader finds are ones with names. -/
theorem named_of_parseModifiersFrom {mask : KeyModifierMask} {text x : Str} {mask' : KeyModifierMask}
    (hmask : mask &&& namedModifiers = mask) (h : parseModifiersFrom mask text = some (x, mask')) :
    mask' &&& namedModifiers = mask' := by
  fun_induction parseModifiersFrom mask text with
  | case1 | case2 | case4 =>
    obtain ⟨rfl, rfl⟩ := Prod.mk.inj (Option.some.inj h)
    exact hmask
  | case3 | case5 | case7 => cases h
  | case6 mask _ _ _ _ _ _ mod hmod =>
    obtain ⟨rfl, rfl⟩ := Prod.mk.inj (Option.some.inj h)
    exact named_or hmask hmod
  | case8 mask _ _ _ _ _ _ mod hmod _ _ _ _ _ ih => exact ih (named_or hmask hmod) h

/-! ### The key of a text -/

/-- The keys that have no name but a character are digits and letters. -/
private theorem character_key : ∀ key < 127, 33 ≤ key → keyToNameMap key = none →
    isgraph (Char.ofNat key) = true ∧ (Char.ofNat key).toNat = key ∧ inComponent (Char.ofNat key) = true ∧
      Char.ofNat key ∉ delimiters := by
  decide +kernel

/-- The digits of an escape. -/
def escapeDigits (key : KeyID) : Str := (Nat.toDigits 16 key).leftpad 4 '0'

theorem isDigit_of_mem_escapeDigits (key : KeyID) : ∀ c ∈ escapeDigits key, isDigit 16 c = true := by
  intro c hc
  rw [escapeDigits, List.leftpad, List.mem_append, List.mem_replicate] at hc
  rcases hc with ⟨_, rfl⟩ | hc
  · rfl
  · exact isDigit_of_mem_toDigits (by decide) (by decide) key c hc

theorem numeral_escapeDigits (key : KeyID) : numeral 16 (escapeDigits key) = key := by
  have hpad (n : Nat) (digits : Str) : numeral 16 (List.replicate n '0' ++ digits) = numeral 16 digits := by
    induction n with
    | zero => rfl
    | succ n ih => exact ih
  rw [escapeDigits, List.leftpad, hpad, numeral_toDigits (by decide) (by decide)]

/-- An escape has four digits for the keys below `0x10000`, and more for the others. -/
theorem length_escapeDigits (key : Nat) : (escapeDigits key).length = 4 ↔ key < 0x10000 := by
  have hdigits := Nat.length_toDigits_le_iff (b := 16) (n := key) (k := 4) (by decide) (by decide)
  rw [escapeDigits, List.length_leftpad]
  omega

/-- The reader of numbers takes the digits of an escape whole. -/
theorem strtolHex_escapeDigits {key : Nat} (hkey : key < 0x10000) :
    strtolHex (cStr (escapeDigits key)) = ((key : Int), []) := by
  have hdigits := isDigit_of_mem_escapeDigits key
  have hne : escapeDigits key ≠ [] := by
    intro hnil
    have hlength := (length_escapeDigits key).mpr hkey
    rw [hnil] at hlength
    cases hlength
  have hzero : cStr (escapeDigits key) = escapeDigits key :=
    cStr_eq_self fun hmem => absurd (hdigits _ hmem) (by decide)
  have hspace : (escapeDigits key).dropWhile isspace = escapeDigits key := by
    rw [List.dropWhile_eq_self_iff]
    intro hpos
    rw [(isspace_of_isDigit (hdigits _ (List.getElem_mem hpos))).1]
    exact Bool.false_ne_true
  have hsign : signed (escapeDigits key) = (false, escapeDigits key) := by
    unfold signed
    split
    · rename_i _ hminus
      exact absurd (hdigits '-' (hminus ▸ List.mem_cons_self)) (by decide)
    · rename_i _ hplus
      exact absurd (hdigits '+' (hplus ▸ List.mem_cons_self)) (by decide)
    · rfl
  have hprefix : withoutHexPrefix (escapeDigits key) = escapeDigits key := by
    unfold withoutHexPrefix
    split
    · rename_i x d rest hx
      have hxdigit := hdigits x (by simp [hx])
      have hx' : ¬ (x = 'x' ∨ x = 'X') := by
        rintro (rfl | rfl) <;> exact absurd hxdigit (by decide)
      simp [hx', hx]
    · rfl
  have htake : (escapeDigits key).takeWhile (isDigit 16) = escapeDigits key := List.takeWhile_eq_self_iff.mpr hdigits
  have hdrop : (escapeDigits key).dropWhile (isDigit 16) = [] := List.dropWhile_eq_nil_iff.mpr hdigits
  simp only [strtolHex, hzero, hspace, hsign, hprefix, htake, hdrop, numeral_escapeDigits,
    List.isEmpty_eq_false_iff.mpr hne, Bool.false_eq_true, if_false, Prod.mk.injEq, and_true]
  omega

/-- What stands for a key: a name, a character or an escape. -/
private theorem keyText_cases (key : Nat) : (keyText key, key) ∈ kKeyNameMap ∨
    (keyToNameMap key = none ∧ 33 ≤ key ∧ key < 127 ∧ keyText key = [Char.ofNat key]) ∨
      keyText key = '\\' :: 'u' :: escapeDigits key := by
  unfold keyText
  cases hname : keyToNameMap key with
  | some name => exact Or.inl (mem_of_nameOf hname)
  | none =>
    by_cases hrange : 33 ≤ key ∧ key < 127
    · exact Or.inr (Or.inl ⟨rfl, hrange.1, hrange.2, if_pos hrange⟩)
    · exact Or.inr (Or.inr (if_neg hrange))

private theorem escape_characters (key : KeyID) : ∀ c ∈ '\\' :: 'u' :: escapeDigits key,
    inComponent c = true ∧ c ∉ delimiters := by
  intro c hc
  rw [List.mem_cons, List.mem_cons] at hc
  rcases hc with rfl | rfl | hc
  · decide
  · decide
  · have hdigit := isDigit_of_mem_escapeDigits key c hc
    have hnot (d : Char) (hd : isDigit 16 d = false) : c ≠ d := by
      rintro rfl
      rw [hd] at hdigit
      cases hdigit
    simp [inComponent, isBlank, delimiters, hnot ' ' rfl, hnot '\t' rfl, hnot '+' rfl, hnot ')' rfl, hnot '#' rfl,
      hnot ',' rfl, hnot ';' rfl, hnot '(' rfl]

/-- What stands for a key is one component without delimiters. -/
theorem keyText_characters (key : KeyID) :
    keyText key ≠ [] ∧ ∀ c ∈ keyText key, inComponent c = true ∧ c ∉ delimiters := by
  rcases keyText_cases key with hname | ⟨hname, hlow, hhigh, htext⟩ | htext
  · obtain ⟨_, _, hne, _, _⟩ := key_names _ hname
    have hchars := key_characters _ hname
    exact ⟨hne, fun c hc => ⟨(hchars c hc).1, (hchars c hc).2.1⟩⟩
  · obtain ⟨_, _, hcomponent, hdelimiter⟩ := character_key key hhigh hlow hname
    rw [htext]
    refine ⟨List.cons_ne_nil _ _, fun c hc => ?_⟩
    rw [List.mem_singleton] at hc
    exact hc ▸ ⟨hcomponent, hdelimiter⟩
  · rw [htext]
    exact ⟨List.cons_ne_nil _ _, escape_characters key⟩

/-- All keys but one that has the name of a modifier are told from modifiers. -/
theorem keyText_no_modifier {key : KeyID} (hkey : key ≠ kKeyAltGr) : nameToModifierMap (keyText key) = none := by
  rcases keyText_cases key with hname | ⟨_, _, _, htext⟩ | htext
  · exact (key_names _ hname).2.1 hkey
  · rw [htext]
    exact valueOf_single (fun e he => (modifier_names e he).2.2.1) _
  · rw [htext]
    exact valueOf_escape (fun e he c hc => (modifier_characters e he c hc).2.2) _

private theorem parseKey_escape (digits : Str) : parseKey ('\\' :: 'u' :: digits) =
    if digits.length = 4 then
      if (strtolHex (cStr digits)).2 = [] then some ((strtolHex (cStr digits)).1 % 2 ^ 32).toNat else none
    else none := by
  have hname : nameToKeyMap ('\\' :: 'u' :: digits) = none :=
    valueOf_escape (fun e he c hc => (key_characters e he c hc).2.2) _
  unfold parseKey
  rw [hname]
  rfl

/-- A key is read back from what stands for it if it is below `0x10000`. -/
theorem parseKey_keyText (key : Nat) : parseKey (keyText key) = if key < 0x10000 then some key else none := by
  rcases keyText_cases key with hname | ⟨hname, hlow, hhigh, htext⟩ | htext
  · obtain ⟨hvalue, _, _, _, hsmall⟩ := key_names _ hname
    unfold parseKey
    rw [hvalue, if_pos hsmall]
  · obtain ⟨hgraph, hvalue, _, _⟩ := character_key key hhigh hlow hname
    have hnone : nameToKeyMap [Char.ofNat key] = none := valueOf_single (fun e he => (key_names e he).2.2.2.1) _
    have hsmall : key < 0x10000 := by omega
    rw [htext, if_pos hsmall]
    unfold parseKey
    rw [hnone]
    simp only [hgraph, hvalue, if_true]
  · rw [htext, parseKey_escape]
    by_cases hkey : key < 0x10000
    · rw [if_pos ((length_escapeDigits key).mpr hkey), if_pos hkey, strtolHex_escapeDigits hkey, if_pos rfl]
      have hvalue : ((key : Int) % 2 ^ 32).toNat = key := by omega
      exact congrArg some hvalue
    · rw [if_neg (mt (length_escapeDigits key).mp hkey), if_neg hkey]

/-! ### Writing and reading -/

private theorem mem_modifierText {mask : KeyModifierMask} {i : Nat} (hi : i < 16) {c : Char}
    (hc : c ∈ modifierText mask i) : c ∉ delimiters := by
  rcases modifierText_cases mask hi with ⟨htext, _⟩ | ⟨e, he, htext, _⟩
  · rw [htext] at hc
    cases hc
  · rw [htext, List.mem_append, List.mem_singleton] at hc
    rcases hc with hc | rfl
    · exact (modifier_characters e he c hc).2.1
    · decide

/-- The text of a keystroke is free of delimiters. -/
theorem formatKey_delimiters (key : KeyID) (mask : KeyModifierMask) :
    ∀ c ∈ formatKey key mask, c ∉ delimiters := by
  have hmodifiers : ∀ c ∈ (List.range kKeyModifierNumBits).flatMap (modifierText mask), c ∉ delimiters := by
    intro c hc
    obtain ⟨i, hi, hc⟩ := List.mem_flatMap.mp hc
    exact mem_modifierText (List.mem_range.mp hi) hc
  intro c hc
  by_cases hkey : key ≠ kKeyNone
  · rw [formatKey, if_pos hkey, List.mem_append] at hc
    rcases hc with hc | hc
    · exact hmodifiers c hc
    · exact ((keyText_characters key).2 c hc).2
  · rw [formatKey, if_neg hkey] at hc
    exact hmodifiers c (List.mem_of_mem_dropLast hc)

/-- The modifiers of a keystroke that is read have names. -/
theorem named_of_parseKeystroke {text : Str} {key : KeyID} {mask : KeyModifierMask}
    (h : parseKeystroke text = some (key, mask)) : mask &&& namedModifiers = mask := by
  rw [parseKeystroke, Option.bind_eq_some_iff] at h
  obtain ⟨⟨x, mask'⟩, hparsed, h⟩ := h
  obtain ⟨key', _, h⟩ := Option.map_eq_some_iff.mp h
  obtain ⟨rfl, rfl⟩ := Prod.mk.inj h
  have hzero : (0 : KeyModifierMask) &&& namedModifiers = 0 := BitVec.zero_and
  exact named_of_parseModifiersFrom hzero hparsed

/-- The modifiers of a text come back, and the key is what is left. -/
private theorem parseModifiers_formatKey {key : KeyID} (hkey : key ≠ kKeyNone) {mask : KeyModifierMask}
    (hmask : mask &&& namedModifiers = mask) :
    parseModifiers (formatKey key mask) = parseModifiersFrom mask (keyText key) := by
  rw [parseModifiers, formatKey, if_pos hkey, parseModifiersFrom_bits mask (i := kKeyModifierNumBits) le_rfl,
    namedBelow_all, hmask]

/-- Without a key the modifiers are all there is. -/
private theorem parseKeystroke_modifiers {mask : KeyModifierMask} (hmask : mask &&& namedModifiers = mask) :
    parseKeystroke (formatKey kKeyNone mask) = some (kKeyNone, mask) := by
  have hmodifiers : parseModifiers (formatKey kKeyNone mask) = some ([], mask) := by
    have h := parseModifiersFrom_dropLast mask (i := kKeyModifierNumBits) le_rfl
    rwa [namedBelow_all, hmask] at h
  have hempty : parseKey [] = some kKeyNone := by decide
  rw [parseKeystroke, hmodifiers, Option.bind_some, hempty, Option.map_some]

/-- The key that has the name of a modifier is read as that modifier. -/
private theorem parseKeystroke_altGr {mask : KeyModifierMask} (hmask : mask &&& namedModifiers = mask) :
    parseKeystroke (formatKey kKeyAltGr mask) ≠ some (kKeyAltGr, mask) := by
  have htext : keyText kKeyAltGr = "AltGr".toList := by decide
  have hmod : ("AltGr".toList, 0x0020) ∈ kModifierNameMap := by decide
  have hempty : parseKey [] = some kKeyNone := by decide
  intro h
  rw [parseKeystroke, parseModifiers_formatKey (by decide) hmask, htext, parseModifiersFrom_end hmod] at h
  split at h
  · cases h
  · rw [Option.bind_some, hempty, Option.map_some] at h
    exact absurd (Prod.mk.inj (Option.some.inj h)).1 (by decide)

/-- A keystroke is read back from its own text, which is free of delimiters, exactly if its key is
below `0x10000` and does not have the name of a modifier. -/
theorem keystroke_round_trip_iff {text : Str} {key : KeyID} {mask : KeyModifierMask}
    (h : parseKeystroke text = some (key, mask)) :
    (parseKeystroke (formatKey key mask) = some (key, mask) ∧ ∀ c ∈ formatKey key mask, c ∉ delimiters) ↔
      key ≠ kKeyAltGr ∧ key < 0x10000 := by
  have hmask := named_of_parseKeystroke h
  rw [and_iff_left (formatKey_delimiters key mask)]
  by_cases hnone : key = kKeyNone
  · subst hnone
    exact iff_of_true (parseKeystroke_modifiers hmask) ⟨by decide, by decide⟩
  by_cases haltGr : key = kKeyAltGr
  · subst haltGr
    exact iff_of_false (parseKeystroke_altGr hmask) fun hkey => hkey.1 rfl
  have hread : parseModifiers (formatKey key mask) = some (keyText key, mask) := by
    obtain ⟨hne, hchars⟩ := keyText_characters key
    rw [parseModifiers_formatKey hnone hmask]
    exact parseModifiersFrom_key hne (fun c hc => (hchars c hc).1) (keyText_no_modifier haltGr) mask
  rw [parseKeystroke, hread, Option.bind_some, parseKey_keyText, and_iff_right haltGr]
  by_cases hsmall : key < 0x10000
  · rw [if_pos hsmall, Option.map_some]
    exact iff_of_true rfl hsmall
  · rw [if_neg hsmall, Option.map_none]
    exact iff_of_false (fun hnone => nomatch hnone) hsmall

/-- Control and a key that is a separator as well. -/
theorem keystroke_round_trip_control_plus :
    (parseKeystroke (formatKey 0x2b 2) = some (0x2b, 2) ∧ ∀ c ∈ formatKey 0x2b 2, c ∉ delimiters) ↔
      (0x2b : KeyID) ≠ kKeyAltGr ∧ (0x2b : KeyID) < 0x10000 := by
  have hmod : ("Control".toList, 0x0002) ∈ kModifierNameMap := by decide
  have hplus : parseModifiersFrom (0 ||| 2) ['+'] = some (['+'], 2) := by
    rw [parseModifiersFrom]
    rfl
  have hread : parseModifiers "Control++".toList = some (['+'], 2) :=
    (parseModifiersFrom_plus hmod BitVec.zero_and ['+']).trans hplus
  have hkey : parseKey ['+'] = some 0x2b := by decide
  have hparsed : parseKeystroke "Control++".toList = some (0x2b, 2) := by
    rw [parseKeystroke, hread, Option.bind_some, hkey, Option.map_some]
  exact keystroke_round_trip_iff hparsed

/-- The key of an escape is written under its name, which is read as a modifier. -/
theorem altGr_lost : parseKeystroke "\\uef7e".toList = some (kKeyAltGr, 0) ∧
    parseKeystroke (formatKey kKeyAltGr 0) = some (kKeyNone, 0x0020) := by
  have hread : parseModifiers "\\uef7e".toList = some ("\\uef7e".toList, 0) :=
    parseModifiersFrom_key (by decide) (List.all_eq_true.mp (by decide)) (by decide) 0
  have hkey : parseKey "\\uef7e".toList = some kKeyAltGr := by decide
  have hmod : ("AltGr".toList, 0x0020) ∈ kModifierNameMap := by decide
  have htext : formatKey kKeyAltGr 0 = "AltGr".toList := by decide
  have hempty : parseKey [] = some kKeyNone := by decide
  have hback : parseModifiers "AltGr".toList = some ([], 0x0020) := parseModifiersFrom_end hmod 0
  constructor
  · rw [parseKeystroke, hread, Option.bind_some, hkey, Option.map_some]
  · rw [parseKeystroke, htext, hback, Option.bind_some, hempty, Option.map_some]

end Synergy.KeyMap
