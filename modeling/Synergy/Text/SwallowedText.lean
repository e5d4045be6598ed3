import Mathlib.Order.Lattice
import Synergy.Text.TextRoundTrip

/-! What malformed text does to the ASCII characters next to it. A character that is cut short by the end
takes all bytes that are left, and half of a pair takes the unit that follows. -/
namespace Synergy.Unicode

def isAscii (c : Nat) : Bool := c < 0x80

/-- The ASCII characters of a text. -/
def asciiOf (text : Bytes) : List Nat := (text.map UInt8.toNat).filter isAscii

/-- The character has more bytes than are left. -/
def CutShort (lead : UInt8) (rest : Bytes) : Prop := ∃ size, sequenceLength lead = some size ∧ rest.length + 1 < size

/-- Some character that is cut short by the end of the text has ASCII characters after its first byte. -/
def Swallows (text : Bytes) : Prop :=
  ∃ before lead rest, text = before ++ lead :: rest ∧ CutShort lead rest ∧ ∃ b ∈ rest, isAscii b.toNat = true

/-- The ASCII characters are all among the units that the text is converted to. -/
def KeepsAscii (src : Bytes) : Prop :=
  ∃ utf16 ucs2 errors errors', UTF8ToUTF16 src = some (utf16, errors) ∧ UTF8ToUCS2 src = some (ucs2, errors') ∧
    (asciiOf src).Sublist (unitsOf false utf16) ∧ (asciiOf src).Sublist (unitsOf false ucs2)

theorem asciiOf_append (text more : Bytes) : asciiOf (text ++ more) = asciiOf text ++ asciiOf more := by
  rw [asciiOf, List.map_append, List.filter_append]
  rfl

theorem asciiOf_eq_nil_iff {text : Bytes} : asciiOf text = [] ↔ ¬ ∃ b ∈ text, isAscii b.toNat = true := by
  simp [asciiOf, List.filter_eq_nil_iff]

private theorem isAscii_checkedChar {size : Nat} (h : 0x80 ≤ s_minChar size) (c : Nat) :
    isAscii (checkedChar size c) = false := by
  have hmin : c < s_minChar size ∨ 0x80 ≤ c := by omega
  unfold checkedChar
  split_ifs
  · rfl
  · rfl
  · rfl
  · simpa [isAscii] using hmin.resolve_left ‹_›

/-- The continuation bytes at the front of the first bytes. -/
private theorem take_kept (rest : Bytes) (n : Nat) :
    rest.take ((rest.take n).takeWhile isContinuation).length = (rest.take n).takeWhile isContinuation :=
  (List.prefix_iff_eq_take.mp ((List.takeWhile_prefix isContinuation).trans (List.take_prefix n rest))).symm

/-- What a character takes: itself if it is ASCII, all that is left if it is cut short by the end, and no
ASCII otherwise. -/
private theorem nextChar_cases (lead : UInt8) (rest : Bytes) :
    (isAscii lead.toNat = true ∧ ¬ CutShort lead rest ∧ nextChar lead rest = (lead.toNat, 0)) ∨
      (isAscii lead.toNat = false ∧ isAscii (nextChar lead rest).1 = false ∧
        ((CutShort lead rest ∧ (nextChar lead rest).2 = rest.length) ∨
          (¬ CutShort lead rest ∧ ∀ b ∈ rest.take (nextChar lead rest).2, isContinuation b = true))) := by
  unfold nextChar CutShort
  cases hsize : sequenceLength lead with
  | none =>
    have hlead : isAscii lead.toNat = false := by
      by_contra hascii
      have hsmall : lead < 0x80 := by simpa [isAscii, UInt8.lt_iff_toNat_lt] using hascii
      rw [sequenceLength, if_pos hsmall] at hsize
      cases hsize
    exact .inr ⟨hlead, rfl, .inr ⟨fun ⟨_, hcut, _⟩ => (nomatch hcut), fun b hb => (nomatch hb)⟩⟩
  | some size =>
    dsimp only
    have hcut : (∃ size', some size = some size' ∧ rest.length + 1 < size') ↔ rest.length + 1 < size :=
      ⟨fun ⟨_, heq, hlt⟩ => Option.some.inj heq ▸ hlt, fun hlt => ⟨size, rfl, hlt⟩⟩
    rw [hcut]
    rcases Nat.lt_or_ge size 2 with hone | hmore
    · have hlead : size = 1 ∧ lead.toNat < 0x80 := by
        have hrange := sequenceLength_range hsize
        omega
      obtain ⟨rfl, hascii⟩ := hlead
      have hchar : extracted 1 lead [] = lead.toNat := by
        have hmask : extracted 1 lead [] = lead.toNat % 2 ^ 8 := Nat.and_two_pow_sub_one_eq_mod _ 8
        rw [hmask]
        omega
      have hchecked : checkedChar 1 lead.toNat = lead.toNat := by
        have hmin : s_minChar 1 = 0 := rfl
        rw [checkedChar, hmin, if_neg (by omega), if_neg (by omega), if_neg (by omega)]
      refine .inl ⟨by simpa [isAscii] using hascii, by omega, ?_⟩
      rw [if_neg (by omega), Nat.sub_self, List.take_zero, List.takeWhile_nil, if_neg (by simp), hchar, hchecked]
    · have hrange := sequenceLength_range hsize
      have hlead : isAscii lead.toNat = false := by
        rw [isAscii, decide_eq_false_iff_not]
        omega
      have hmin : 0x80 ≤ s_minChar size := by
        have hcases : size = 2 ∨ size = 3 ∨ size = 4 ∨ size = 5 ∨ size = 6 := by omega
        rcases hcases with rfl | rfl | rfl | rfl | rfl <;> decide
      have htake := take_kept rest (size - 1)
      have hle := (List.takeWhile_prefix isContinuation (l := rest.take (size - 1))).length_le
      have hlen := List.length_take_le (size - 1) rest
      refine .inr ⟨hlead, ?_⟩
      split_ifs with hshort hkept
      · exact ⟨rfl, .inl ⟨hshort, rfl⟩⟩
      · refine ⟨rfl, .inr ⟨hshort, fun b hb => ?_⟩⟩
        rw [htake] at hb
        exact List.mem_takeWhile_imp hb
      · refine ⟨isAscii_checkedChar hmin _, .inr ⟨hshort, fun b hb => ?_⟩⟩
        have hall : size - 1 = ((rest.take (size - 1)).takeWhile isContinuation).length := by omega
        dsimp only at hb
        rw [hall, htake] at hb
        exact List.mem_takeWhile_imp hb

private theorem isAscii_continuation {b : UInt8} (h : isContinuation b = true) : isAscii b.toNat = false := by
  have hrange := (isContinuation_iff b).mp h
  rw [isAscii, decide_eq_false_iff_not]
  omega

private theorem not_cutShort_continuation {lead : UInt8} (h : isContinuation lead = true) (rest : Bytes) :
    ¬ CutShort lead rest := by
  rintro ⟨size, hsize, hshort⟩
  have hrange := sequenceLength_range hsize
  have hlead := (isContinuation_iff lead).mp h
  omega

private theorem swallows_cons_iff {lead : UInt8} {rest : Bytes} :
    Swallows (lead :: rest) ↔
      (CutShort lead rest ∧ ∃ b ∈ rest, isAscii b.toNat = true) ∨ Swallows rest := by
  constructor
  · rintro ⟨before, lead', rest', htext, hcut, hascii⟩
    cases before with
    | nil =>
      obtain ⟨rfl, rfl⟩ := List.cons.inj htext
      exact .inl ⟨hcut, hascii⟩
    | cons _ before => exact .inr ⟨before, lead', rest', (List.cons.inj htext).2, hcut, hascii⟩
  · rintro (⟨hcut, hascii⟩ | ⟨before, lead', rest', rfl, hcut, hascii⟩)
    · exact ⟨[], lead, rest, rfl, hcut, hascii⟩
    · exact ⟨lead :: before, lead', rest', rfl, hcut, hascii⟩

/-- Continuation bytes at the front swallow nothing. -/
private theorem swallows_drop_iff {rest : Bytes} {k : Nat} (h : ∀ b ∈ rest.take k, isContinuation b = true) :
    Swallows (rest.drop k) ↔ Swallows rest := by
  induction k generalizing rest with
  | zero => rfl
  | succ k ih =>
    cases rest with
    | nil => rfl
    | cons b rest =>
      obtain ⟨hb, hmore⟩ := List.forall_mem_cons.mp h
      rw [List.drop_succ_cons, ih hmore, swallows_cons_iff, or_iff_right fun hcut => not_cutShort_continuation hb rest hcut.1]

/-- The ASCII among the characters is ASCII of the text, and all of it just if none is swallowed. -/
theorem chars_ascii (text : Bytes) :
    ((chars text).filter isAscii).Sublist (asciiOf text) ∧
      ((chars text).filter isAscii = asciiOf text ↔ ¬ Swallows text) := by
  fun_induction chars text with
  | case1 =>
    have hnone : ¬ Swallows [] := by
      rintro ⟨before, lead, rest, h, -⟩
      simp at h
    exact ⟨.slnil, iff_of_true rfl hnone⟩
  | case2 lead rest ih =>
    obtain ⟨hsub, hiff⟩ := ih
    have hcons : asciiOf (lead :: rest) = (if isAscii lead.toNat then [lead.toNat] else []) ++ asciiOf rest := by
      rw [← List.singleton_append, asciiOf_append]
      congr 1
      cases hlead : isAscii lead.toNat <;> simp [asciiOf, hlead]
    rw [hcons, List.filter_cons, swallows_cons_iff]
    rcases nextChar_cases lead rest with ⟨hlead, hwhole, hnext⟩ | ⟨hlead, hchar, hcut | ⟨hwhole, hmore⟩⟩
    · rw [hnext] at hsub hiff ⊢
      rw [List.drop_zero] at hsub hiff ⊢
      rw [if_pos hlead, if_pos hlead, List.singleton_append, or_iff_right fun hcut => hwhole hcut.1, List.cons.injEq]
      exact ⟨hsub.cons_cons _, (and_iff_right rfl).trans hiff⟩
    · obtain ⟨hcut, htaken⟩ := hcut
      rw [hchar, hlead, htaken, List.drop_length, chars, if_neg Bool.false_ne_true, if_neg Bool.false_ne_true,
        List.filter_nil, List.nil_append]
      refine ⟨List.nil_sublist _, eq_comm.trans (asciiOf_eq_nil_iff.trans (not_congr ?_))⟩
      constructor
      · exact fun hascii => .inl ⟨hcut, hascii⟩
      · rintro (⟨-, hascii⟩ | ⟨before, lead', rest', rfl, -, b, hb, hascii⟩)
        · exact hascii
        · exact ⟨b, by simp [hb], hascii⟩
    · have hnone : asciiOf (rest.take (nextChar lead rest).2) = [] := by
        rw [asciiOf_eq_nil_iff]
        rintro ⟨b, hb, hascii⟩
        rw [isAscii_continuation (hmore b hb)] at hascii
        cases hascii
      have hrest : asciiOf rest = asciiOf (rest.drop (nextChar lead rest).2) := by
        conv_lhs => rw [← List.take_append_drop (nextChar lead rest).2 rest]
        rw [asciiOf_append, hnone, List.nil_append]
      rw [hchar, hlead, if_neg Bool.false_ne_true, if_neg Bool.false_ne_true, List.nil_append, hrest,
        or_iff_right fun hcut => hwhole hcut.1, ← swallows_drop_iff hmore]
      exact ⟨hsub, hiff⟩

private theorem ascii_units {encode : Nat → Bytes × Bool}
    (h : ∀ c more, ∃ units, unitsOf false ((encode c).1 ++ more) = units ++ unitsOf false more ∧
      units.filter isAscii = [c].filter isAscii) (cs : List Nat) :
    (unitsOf false (cs.flatMap fun c => (encode c).1)).filter isAscii = cs.filter isAscii := by
  induction cs with
  | nil => rfl
  | cons c cs ih =>
    obtain ⟨units, hunits, hascii⟩ := h c (cs.flatMap fun c => (encode c).1)
    rw [List.flatMap_cons, hunits, List.filter_append, hascii, ih, ← List.filter_append]
    rfl

private theorem filter_none {c : Nat} (h : 0x80 ≤ c) : [c].filter isAscii = [] := by
  simp [isAscii, h]

/-- A character that is not ASCII has no ASCII units. -/
private theorem utf16Char_ascii (c : Nat) (more : Bytes) :
    ∃ units, unitsOf false ((utf16Char c).1 ++ more) = units ++ unitsOf false more ∧
      units.filter isAscii = [c].filter isAscii := by
  unfold utf16Char
  dsimp only
  by_cases hbad : c = s_invalid ∨ 0x110000 ≤ c
  · have hlarge : 0x80 ≤ c := by
      rw [s_invalid] at hbad
      omega
    rw [if_pos hbad, if_pos (by decide), filter_none hlarge]
    exact ⟨[s_replacement], unitsOf_unitBytes (by decide) more, rfl⟩
  · rw [if_neg hbad]
    by_cases hsmall : c < 0x10000
    · rw [if_pos hsmall]
      exact ⟨[c], unitsOf_unitBytes hsmall more, rfl⟩
    · have hhigh : (c - 0x10000) >>> 10 = (c - 0x10000) / 1024 := Nat.shiftRight_eq_div_pow _ 10
      have hlow : (c - 0x10000) &&& 0x3ff = (c - 0x10000) % 1024 := Nat.and_two_pow_sub_one_eq_mod _ 10
      rw [if_neg hsmall, hhigh, hlow, List.append_assoc, unitsOf_unitBytes (by omega), unitsOf_unitBytes (by omega),
        filter_none (by omega)]
      refine ⟨[_, _], rfl, List.filter_eq_nil_iff.mpr fun unit hunit => ?_⟩
      have hlarge : 0x80 ≤ unit := by
        rcases List.mem_pair.mp hunit with rfl | rfl <;> omega
      simpa [isAscii] using hlarge

private theorem ucs2Char_ascii (c : Nat) (more : Bytes) :
    ∃ units, unitsOf false ((ucs2Char c).1 ++ more) = units ++ unitsOf false more ∧
      units.filter isAscii = [c].filter isAscii := by
  unfold ucs2Char
  split_ifs with hinvalid hlarge
  · rw [hinvalid]
    exact ⟨[s_replacement], unitsOf_unitBytes (by decide) more, rfl⟩
  · rw [filter_none (by omega)]
    exact ⟨[s_replacement], unitsOf_unitBytes (by decide) more, rfl⟩
  · exact ⟨[c], unitsOf_unitBytes (by omega) more, rfl⟩

/-- A list of ASCII is found among others just if it is found among their ASCII. -/
private theorem sublist_filter_iff {l m : List Nat} (h : ∀ c ∈ l, isAscii c = true) :
    l.Sublist m ↔ l.Sublist (m.filter isAscii) := by
  constructor
  · intro hsub
    rw [← List.filter_eq_self.mpr h]
    exact hsub.filter _
  · exact fun hsub => hsub.trans List.filter_sublist

private theorem isAscii_of_mem_asciiOf {text : Bytes} {c : Nat} (h : c ∈ asciiOf text) : isAscii c = true :=
  (List.mem_filter.mp h).2

/-- The ASCII of a text is found among the units just if none is swallowed and none is past the size. -/
theorem keepsAscii_iff (src : Bytes) :
    KeepsAscii src ↔
      (∀ b ∈ src.drop (sizeOf32 src), isAscii b.toNat = false) ∧ ¬ Swallows (readable src) := by
  have hsplit : asciiOf src = asciiOf (readable src) ++ asciiOf (src.drop (sizeOf32 src)) := by
    rw [readable, ← asciiOf_append, List.take_append_drop]
  have hpast : (∀ b ∈ src.drop (sizeOf32 src), isAscii b.toNat = false) ↔ asciiOf (src.drop (sizeOf32 src)) = [] := by
    simp [asciiOf_eq_nil_iff]
  obtain ⟨hsub, hiff⟩ := chars_ascii (readable src)
  have hkept : (asciiOf src).Sublist ((chars (readable src)).filter isAscii) ↔
      asciiOf (src.drop (sizeOf32 src)) = [] ∧ (chars (readable src)).filter isAscii = asciiOf (readable src) := by
    constructor
    · intro hall
      have hlength := (hall.trans hsub).length_le
      rw [hsplit, List.length_append] at hlength
      have hnone : asciiOf (src.drop (sizeOf32 src)) = [] := List.eq_nil_of_length_eq_zero (by omega)
      rw [hsplit, hnone, List.append_nil] at hall
      exact ⟨hnone, hsub.antisymm hall⟩
    · rintro ⟨hnone, heq⟩
      rw [hsplit, hnone, List.append_nil, heq]
  have hunits (encode : Nat → Bytes × Bool) (h : ∀ c more, ∃ units, unitsOf false ((encode c).1 ++ more) =
      units ++ unitsOf false more ∧ units.filter isAscii = [c].filter isAscii) :
      (asciiOf src).Sublist (unitsOf false ((chars (readable src)).flatMap fun c => (encode c).1)) ↔
        (asciiOf src).Sublist ((chars (readable src)).filter isAscii) := by
    rw [sublist_filter_iff fun c hc => isAscii_of_mem_asciiOf hc, ascii_units h]
  unfold KeepsAscii
  rw [UTF8ToUTF16_eq, UTF8ToUCS2_eq, hpast, ← hiff, ← hkept]
  constructor
  · rintro ⟨utf16, ucs2, errors, errors', hutf16, -, hsub, -⟩
    obtain ⟨rfl, -⟩ := Prod.mk.inj (Option.some.inj hutf16)
    exact (hunits utf16Char utf16Char_ascii).mp hsub
  · intro hsub
    exact ⟨_, _, _, _, rfl, rfl, (hunits utf16Char utf16Char_ascii).mpr hsub, (hunits ucs2Char ucs2Char_ascii).mpr hsub⟩

/-- The first unit of a pair. -/
def isHigh (unit : Nat) : Bool := 0xd800 ≤ unit && unit ≤ 0xdbff

/-- An odd number of units that start a pair stand at the end. -/
def EndsOdd (units : List Nat) : Prop := (units.reverse.takeWhile isHigh).length % 2 = 1

/-- Some ASCII unit is taken for the second of a pair. -/
def SwallowsUnit (units : List Nat) : Prop :=
  ∃ before unit after, units = before ++ unit :: after ∧ isAscii unit = true ∧ EndsOdd before

/-- The ASCII units are all among the bytes that the units are converted to. -/
def KeepsUnits (units : List Nat) : Prop :=
  ∃ text errors, UTF16ToUTF8 (units.flatMap unitBytes) = some (text, errors) ∧
    (units.filter isAscii).Sublist (text.map UInt8.toNat)

private theorem endsOdd_cons_other {c : Nat} (h : isHigh c = false) (units : List Nat) :
    EndsOdd (c :: units) ↔ EndsOdd units := by
  unfold EndsOdd
  rw [List.reverse_cons, List.takeWhile_append]
  split_ifs with hall
  · rw [List.takeWhile_cons_of_neg (by simp [h]), List.append_nil, hall]
  · rfl

/-- Two units in front, the first of which starts a pair, make no difference. -/
private theorem endsOdd_pair {c : Nat} (h : isHigh c = true) (c2 : Nat) (units : List Nat) :
    EndsOdd (c :: c2 :: units) ↔ EndsOdd units := by
  unfold EndsOdd
  rw [List.reverse_cons, List.reverse_cons, List.append_assoc, List.takeWhile_append]
  split_ifs with hall
  · rw [hall]
    cases h2 : isHigh c2 with
    | true =>
      simp only [List.cons_append, List.nil_append, List.takeWhile_cons, h, h2, if_true, List.takeWhile_nil,
        List.length_append, List.length_cons, List.length_nil]
      omega
    | false => rw [List.cons_append, List.takeWhile_cons_of_neg (by simp [h2]), List.append_nil]
  · rfl

private theorem isAscii_high {c : Nat} (h : isHigh c = true) : isAscii c = false := by
  simp only [isHigh, Bool.and_eq_true, decide_eq_true_eq] at h
  rw [isAscii, decide_eq_false_iff_not]
  omega

private theorem not_swallowsUnit_nil : ¬ SwallowsUnit [] := by
  rintro ⟨before, unit, after, h, -⟩
  simp at h

private theorem swallowsUnit_cons_other {c : Nat} (h : isHigh c = false) (units : List Nat) :
    SwallowsUnit (c :: units) ↔ SwallowsUnit units := by
  constructor
  · rintro ⟨before, unit, after, hunits, hascii, hodd⟩
    cases before with
    | nil => exact absurd hodd (by simp [EndsOdd])
    | cons c' before =>
      obtain ⟨rfl, rfl⟩ := List.cons.inj hunits
      exact ⟨before, unit, after, rfl, hascii, (endsOdd_cons_other h before).mp hodd⟩
  · rintro ⟨before, unit, after, rfl, hascii, hodd⟩
    exact ⟨c :: before, unit, after, rfl, hascii, (endsOdd_cons_other h before).mpr hodd⟩

private theorem endsOdd_singleton {c : Nat} (h : isHigh c = true) : EndsOdd [c] := by
  simp [EndsOdd, h]

/-- A unit after the first of a pair is swallowed if it is ASCII. -/
private theorem swallowsUnit_pair {c : Nat} (h : isHigh c = true) (c2 : Nat) (units : List Nat) :
    SwallowsUnit (c :: c2 :: units) ↔ isAscii c2 = true ∨ SwallowsUnit units := by
  constructor
  · rintro ⟨before, unit, after, hunits, hascii, hodd⟩
    match before, hunits with
    | [], hunits => exact absurd hodd (by simp [EndsOdd])
    | [c'], hunits =>
      obtain ⟨-, htail⟩ := List.cons.inj hunits
      obtain ⟨rfl, -⟩ := List.cons.inj htail
      exact .inl hascii
    | c' :: c2' :: before, hunits =>
      obtain ⟨rfl, htail⟩ := List.cons.inj hunits
      obtain ⟨rfl, rfl⟩ := List.cons.inj htail
      exact .inr ⟨before, unit, after, rfl, hascii, (endsOdd_pair h c2 before).mp hodd⟩
  · rintro (hascii | ⟨before, unit, after, rfl, hascii, hodd⟩)
    · exact ⟨[c], c2, units, rfl, hascii, endsOdd_singleton h⟩
    · exact ⟨c :: c2 :: before, unit, after, rfl, hascii, (endsOdd_pair h c2 before).mpr hodd⟩

private theorem isAscii_joinPair {c : Nat} (c2 : Nat) : isAscii (joinPair c c2).1 = false := by
  unfold joinPair
  split_ifs
  · rfl
  · rw [isAscii, decide_eq_false_iff_not]
    omega

/-- The ASCII of characters is ASCII of units, and all of it just if none is swallowed. -/
def KeptFrom (units cs : List Nat) : Prop :=
  (cs.filter isAscii).Sublist (units.filter isAscii) ∧
    (cs.filter isAscii = units.filter isAscii ↔ ¬ SwallowsUnit units)

private theorem KeptFrom.cons {c d : Nat} {units cs : List Nat} (h : KeptFrom units cs) (hhigh : isHigh c = false)
    (hascii : [d].filter isAscii = [c].filter isAscii) : KeptFrom (c :: units) (d :: cs) := by
  have hsplit (a : Nat) (l : List Nat) : (a :: l).filter isAscii = [a].filter isAscii ++ l.filter isAscii := by
    rw [← List.filter_append]
    rfl
  unfold KeptFrom
  rw [hsplit, hsplit c, hascii, swallowsUnit_cons_other hhigh, List.append_cancel_left_eq]
  exact ⟨(List.append_sublist_append_left _).mpr h.1, h.2⟩

private theorem KeptFrom.pair {c c2 d : Nat} {units cs : List Nat} (h : KeptFrom units cs) (hhigh : isHigh c = true)
    (hd : isAscii d = false) : KeptFrom (c :: c2 :: units) (d :: cs) := by
  have hnone : (d :: cs).filter isAscii = cs.filter isAscii := by simp [hd]
  have hfirst : (c :: c2 :: units).filter isAscii = (c2 :: units).filter isAscii := by simp [isAscii_high hhigh]
  unfold KeptFrom
  rw [hnone, hfirst, swallowsUnit_pair hhigh]
  cases hsecond : isAscii c2 with
  | true =>
    rw [List.filter_cons_of_pos hsecond]
    refine ⟨h.1.trans (List.sublist_cons_self _ _), fun heq => ?_, fun hno => absurd (.inl rfl) hno⟩
    have hlength := h.1.length_le
    rw [heq, List.length_cons] at hlength
    omega
  | false =>
    rw [List.filter_cons_of_neg (by simp [hsecond]), or_iff_right Bool.false_ne_true]
    exact h

private theorem isHigh_eq_false {c : Nat} (h : ¬ (0xd800 ≤ c ∧ c ≤ 0xdbff)) : isHigh c = false := by
  rw [← Bool.not_eq_true]
  simpa [isHigh] using h

private theorem keptFrom_nil : KeptFrom [] [] := ⟨.slnil, fun _ => not_swallowsUnit_nil, fun _ => rfl⟩

/-- Half of a pair at the end, or the second unit of one by itself. -/
private theorem filter_replaced {c : Nat} (h : 0xd800 ≤ c) : [s_replacement].filter isAscii = [c].filter isAscii := by
  rw [filter_none (by decide), filter_none (by omega)]

theorem joined_ascii (units : List Nat) : KeptFrom units ((joined units).map Prod.fst) := by
  fun_induction joined units with
  | case1 => exact keptFrom_nil
  | case2 c =>
    by_cases hplain : c < 0xd800 ∨ 0xdfff < c
    · rw [if_pos hplain]
      exact keptFrom_nil.cons (isHigh_eq_false (by omega)) rfl
    · rw [if_neg hplain]
      cases hhigh : isHigh c with
      | false => exact keptFrom_nil.cons hhigh (filter_replaced (by omega))
      | true =>
        have hnone : ¬ SwallowsUnit [c] := by
          rintro ⟨before, unit, after, hunits, hascii, hodd⟩
          cases before with
          | nil => exact absurd hodd (by simp [EndsOdd])
          | cons c' before => simp at hunits
        have hascii : [c].filter isAscii = [s_replacement].filter isAscii := (filter_replaced (by omega)).symm
        exact ⟨by rw [hascii]; exact .refl _, fun _ => hnone, fun _ => hascii.symm⟩
  | case3 c c2 units hplain ih => exact ih.cons (isHigh_eq_false (by omega)) rfl
  | case4 c c2 units hpair hhigh ih =>
    exact ih.pair (by simpa [isHigh] using hhigh) (isAscii_joinPair c2)
  | case5 c c2 units hpair hlow ih => exact ih.cons (isHigh_eq_false hlow) (filter_replaced (by omega))

private theorem not_ascii_bits (x : Nat) {mask base : Nat} (h : 0x80 ≤ base ∧ mask + base < 256) :
    isAscii (UInt8.ofNat ((x &&& mask) + base)).toNat = false := by
  have hle : x &&& mask ≤ mask := Nat.and_le_right
  rw [UInt8.toNat_ofNat', isAscii, decide_eq_false_iff_not]
  omega

/-- Only an ASCII character is encoded with ASCII bytes. -/
theorem toUTF8_ascii (c : Nat) : asciiOf (toUTF8 c).1 = [c].filter isAscii := by
  unfold toUTF8
  dsimp only
  generalize hreplaced : (if (0xd800 ≤ c ∧ c ≤ 0xdfff) ∨ 0x80000000 ≤ c then s_replacement else c) = d
  have hd : [d].filter isAscii = [c].filter isAscii := by
    rw [← hreplaced]
    split_ifs with hbad
    · exact filter_replaced (by omega)
    · rfl
  rw [← hd]
  split_ifs with h1 h2 h3 h4 h5
  · have hbyte : (UInt8.ofNat d).toNat = d := by
      rw [UInt8.toNat_ofNat']
      omega
    rw [asciiOf, List.map_singleton, hbyte]
  all_goals
    rw [filter_none (by omega)]
    refine asciiOf_eq_nil_iff.mpr fun ⟨b, hb, hascii⟩ => ?_
    simp only [List.mem_cons, List.not_mem_nil, or_false] at hb
    rcases hb with rfl | rfl | rfl | rfl | rfl | rfl
  all_goals
    rw [not_ascii_bits _ (by decide)] at hascii
    cases hascii

private theorem asciiOf_written (cs : List (Nat × Bool)) :
    asciiOf (written cs).1 = (cs.map Prod.fst).filter isAscii := by
  induction cs with
  | nil => rfl
  | cons c cs ih =>
    have hcons : (written (c :: cs)).1 = (toUTF8 c.1).1 ++ (written cs).1 := rfl
    rw [hcons, asciiOf_append, toUTF8_ascii, ih, ← List.filter_append]
    rfl

private theorem unitsOf_flatMap {units : List Nat} (hbits : ∀ unit ∈ units, unit < 2 ^ 16) :
    unitsOf false (units.flatMap unitBytes) = units := by
  induction units with
  | nil => rfl
  | cons unit units ih =>
    obtain ⟨hunit, hunits⟩ := List.forall_mem_cons.mp hbits
    rw [List.flatMap_cons, unitsOf_unitBytes hunit, ih hunits]

private theorem take_flatMap_unitBytes (units : List Nat) (n : Nat) :
    (units.flatMap unitBytes).take (2 * n) = (units.take n).flatMap unitBytes := by
  induction n generalizing units with
  | zero => rfl
  | succ n ih =>
    cases units with
    | nil => rfl
    | cons unit units =>
      rw [List.take_succ_cons, List.flatMap_cons, List.flatMap_cons, ← ih units]
      rfl

private theorem length_flatMap_unitBytes (units : List Nat) : (units.flatMap unitBytes).length = 2 * units.length := by
  induction units with
  | nil => rfl
  | cons unit units ih =>
    rw [List.flatMap_cons, List.length_append, ih, List.length_cons, Nat.mul_succ, Nat.add_comm]
    rfl

/-- The units that are read of units without a byte order mark. -/
private theorem unmarked_units {units : List Nat} (hbits : ∀ unit ∈ units, unit < 2 ^ 16)
    (hmark : units.head? ≠ some 0xfeff ∧ units.head? ≠ some 0xfffe) :
    unmarked (readableUnits (units.flatMap unitBytes)) = units.take (units.length % 2 ^ 31) := by
  have hcount : sizeOf32 (units.flatMap unitBytes) >>> 1 = units.length % 2 ^ 31 := by
    rw [sizeOf32, length_flatMap_unitBytes, Nat.shiftRight_one]
    omega
  have htaken := unitsOf_flatMap fun unit hunit => hbits unit (List.mem_of_mem_take (i := units.length % 2 ^ 31) hunit)
  rw [readableUnits, hcount, take_flatMap_unitBytes, unmarked, htaken, List.head?_take]
  split
  · next heq =>
    split_ifs at heq
    exact absurd heq hmark.1
  · next heq =>
    split_ifs at heq
    exact absurd heq hmark.2
  · rfl

private theorem keepsUnits_iff {units : List Nat} (hbits : ∀ unit ∈ units, unit < 2 ^ 16)
    (hmark : units.head? ≠ some 0xfeff ∧ units.head? ≠ some 0xfffe) :
    KeepsUnits units ↔ (∀ unit ∈ units.drop (units.length % 2 ^ 31), isAscii unit = false) ∧
      ¬ SwallowsUnit (units.take (units.length % 2 ^ 31)) := by
  obtain ⟨hsub, hiff⟩ := joined_ascii (units.take (units.length % 2 ^ 31))
  have hsplit : units.filter isAscii = (units.take (units.length % 2 ^ 31)).filter isAscii ++
      (units.drop (units.length % 2 ^ 31)).filter isAscii := by
    rw [← List.filter_append, List.take_append_drop]
  have hpast : (∀ unit ∈ units.drop (units.length % 2 ^ 31), isAscii unit = false) ↔
      (units.drop (units.length % 2 ^ 31)).filter isAscii = [] := by
    simp [List.filter_eq_nil_iff]
  have hascii : ∀ c ∈ units.filter isAscii, isAscii c = true := fun c hc => (List.mem_filter.mp hc).2
  have htext (cs : List (Nat × Bool)) : (units.filter isAscii).Sublist ((written cs).1.map UInt8.toNat) ↔
      (units.filter isAscii).Sublist ((cs.map Prod.fst).filter isAscii) := by
    rw [sublist_filter_iff hascii, ← asciiOf_written]
    rfl
  unfold KeepsUnits
  rw [UTF16ToUTF8_eq, unmarked_units hbits hmark, hpast, ← hiff]
  constructor
  · rintro ⟨text, errors, heq, hall⟩
    obtain ⟨rfl, -⟩ := Prod.mk.inj (Option.some.inj heq)
    replace hall := (htext (joined (units.take (units.length % 2 ^ 31)))).mp hall
    have hlength := (hall.trans hsub).length_le
    rw [hsplit, List.length_append] at hlength
    have hnone := List.eq_nil_of_length_eq_zero (l := (units.drop (units.length % 2 ^ 31)).filter isAscii) (by omega)
    rw [hsplit, hnone, List.append_nil] at hall
    exact ⟨hnone, hsub.antisymm hall⟩
  · rintro ⟨hnone, heq⟩
    refine ⟨_, _, rfl, (htext _).mpr ?_⟩
    rw [heq, hsplit, hnone, List.append_nil]

/-- Malformed text leaves the ASCII characters next to it alone just if no character that is cut short by
the end has ASCII after its first byte, no ASCII unit follows an odd number of units that start a pair, and
there is no ASCII past the size, a number of 32 bits. -/
theorem neighbors_kept_iff (src : Bytes) (units : List Nat) (hbits : ∀ unit ∈ units, unit < 2 ^ 16)
    (hmark : units.head? ≠ some 0xfeff ∧ units.head? ≠ some 0xfffe) :
    (KeepsAscii src ↔ (∀ b ∈ src.drop (sizeOf32 src), isAscii b.toNat = false) ∧ ¬ Swallows (readable src)) ∧
      (KeepsUnits units ↔ (∀ unit ∈ units.drop (units.length % 2 ^ 31), isAscii unit = false) ∧
        ¬ SwallowsUnit (units.take (units.length % 2 ^ 31))) :=
  ⟨keepsAscii_iff src, keepsUnits_iff hbits hmark⟩

theorem neighbors_kept_lone_half :
    (KeepsAscii [0xff, 0x41] ↔
      (∀ b ∈ ([0xff, 0x41] : Bytes).drop (sizeOf32 [0xff, 0x41]), isAscii b.toNat = false) ∧
        ¬ Swallows (readable [0xff, 0x41])) ∧
      (KeepsUnits [0xdc00, 0x41] ↔ (∀ unit ∈ [0xdc00, 0x41].drop (2 % 2 ^ 31), isAscii unit = false) ∧
        ¬ SwallowsUnit ([0xdc00, 0x41].take (2 % 2 ^ 31))) :=
  neighbors_kept_iff [0xff, 0x41] [0xdc00, 0x41] (by decide) (by decide)

/-- The letter after the first byte of a longer character is gone. -/
theorem letter_swallowed :
    ¬ ((∀ src, KeepsAscii src) ∧ ∀ units : List Nat, (∀ unit ∈ units, unit < 2 ^ 16) →
      units.head? ≠ some 0xfeff ∧ units.head? ≠ some 0xfffe → KeepsUnits units) := by
  rintro ⟨h, -⟩
  obtain ⟨utf16, ucs2, errors, errors', hutf16, -, hsub, -⟩ := h [0xe0, 0x41]
  have hlost : UTF8ToUTF16 [0xe0, 0x41] = some ([0xfd, 0xff], false) := by decide
  rw [hlost] at hutf16
  obtain ⟨rfl, -⟩ := Prod.mk.inj (Option.some.inj hutf16)
  exact absurd hsub (by decide)

end Synergy.Unicode
