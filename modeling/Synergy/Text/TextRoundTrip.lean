import Mathlib.Order.Lattice
import Synergy.Text.Unicode

/-! Valid UTF-8 text comes back from UTF-16. -/
namespace Synergy.Unicode

/-- A character that both encodings have, other than the noncharacters that the decoder refuses. -/
def Scalar (c : Nat) : Prop := c < 0x110000 ∧ ¬ (0xd800 ≤ c ∧ c ≤ 0xdfff) ∧ ¬ (0xfffe ≤ c ∧ c ≤ 0xffff)

private theorem and_3f (n : Nat) : n &&& 0x3f = n % 64 := Nat.and_two_pow_sub_one_eq_mod n 6

private theorem shiftLeft_or (a : Nat) {b : Nat} (h : b < 2 ^ 6) : a <<< 6 ||| b = a * 64 + b := by
  rw [← Nat.shiftLeft_add_eq_or_of_lt h, Nat.shiftLeft_eq]

theorem extracted_cons (c : Nat) (b : UInt8) (rest : Bytes) :
    (b :: rest).foldl (fun c b => c <<< 6 ||| b.toNat &&& 0x3f) c =
      rest.foldl (fun c b => c <<< 6 ||| b.toNat &&& 0x3f) (c * 64 + b.toNat % 64) := by
  have hlow : b.toNat % 64 < 2 ^ 6 := Nat.mod_lt _ (by decide)
  rw [List.foldl_cons, and_3f, shiftLeft_or c hlow]

theorem isContinuation_iff (b : UInt8) : isContinuation b = true ↔ 0x80 ≤ b.toNat ∧ b.toNat < 0xc0 := by
  have hall : ∀ n < 256, isContinuation (UInt8.ofNat n) = true ↔ 0x80 ≤ n ∧ n < 0xc0 := by decide +kernel
  have hb := hall b.toNat b.toNat_lt
  rwa [UInt8.ofNat_toNat] at hb

/-- A character that is not refused has the bytes of its length, and only continuation bytes after the first. -/
theorem nextChar_valid {lead : UInt8} {rest : Bytes} (h : (nextChar lead rest).1 ≠ s_invalid) :
    ∃ size, sequenceLength lead = some size ∧ (nextChar lead rest).2 = size - 1 ∧
      (rest.take (size - 1)).length = size - 1 ∧ (∀ b ∈ rest.take (size - 1), 0x80 ≤ b.toNat ∧ b.toNat < 0xc0) ∧
      (nextChar lead rest).1 = extracted size lead (rest.take (size - 1)) ∧ s_minChar size ≤ (nextChar lead rest).1 ∧
      ¬ (0xd800 ≤ (nextChar lead rest).1 ∧ (nextChar lead rest).1 ≤ 0xdfff) ∧
      ¬ (0xfffe ≤ (nextChar lead rest).1 ∧ (nextChar lead rest).1 ≤ 0xffff) := by
  unfold nextChar at h ⊢
  cases hlength : sequenceLength lead with
  | none =>
    rw [hlength] at h
    exact absurd rfl h
  | some size =>
    rw [hlength] at h
    dsimp only at h ⊢
    split_ifs at h ⊢ with hshort hkept
    · exact absurd rfl h
    · exact absurd rfl h
    · have hlen : (rest.take (size - 1)).length = size - 1 := List.length_take_of_le (by omega)
      have hprefix := List.takeWhile_prefix isContinuation (l := rest.take (size - 1))
      have hall := hprefix.eq_of_length (by have := hprefix.length_le; omega)
      dsimp only at h ⊢
      unfold checkedChar at h ⊢
      split_ifs at h ⊢ with hmin hsurrogate hnonchar
      · exact absurd rfl h
      · exact absurd rfl h
      · exact absurd rfl h
      · refine ⟨size, rfl, rfl, hlen, fun b hb => ?_, rfl, Nat.le_of_not_lt hmin, hsurrogate, hnonchar⟩
        rw [← hall] at hb
        exact (isContinuation_iff b).mp (List.mem_takeWhile_imp hb)

/-- A byte made of some of the bits of a character. -/
private theorem ofNat_bits {b : UInt8} {c shift bits base : Nat} (h : b.toNat = c / 2 ^ shift % 2 ^ bits + base) :
    UInt8.ofNat ((c >>> shift &&& (2 ^ bits - 1)) + base) = b := by
  have hb := b.toNat_lt
  refine UInt8.toNat_inj.mp ?_
  rw [UInt8.toNat_ofNat', Nat.and_two_pow_sub_one_eq_mod, Nat.shiftRight_eq_div_pow, ← h, Nat.mod_eq_of_lt hb]

private theorem continuation_bits {b : UInt8} {c shift : Nat} (h : b.toNat = c / 2 ^ shift % 2 ^ 6 + 0x80) :
    UInt8.ofNat ((c >>> shift &&& 0x3f) + 0x80) = b := ofNat_bits h

/-- The first byte says how long the character is. -/
theorem sequenceLength_range {lead : UInt8} {size : Nat} (h : sequenceLength lead = some size) :
    (size = 1 ∧ lead.toNat < 0x80) ∨ (size = 2 ∧ 0xc0 ≤ lead.toNat ∧ lead.toNat < 0xe0) ∨
      (size = 3 ∧ 0xe0 ≤ lead.toNat ∧ lead.toNat < 0xf0) ∨ (size = 4 ∧ 0xf0 ≤ lead.toNat ∧ lead.toNat < 0xf8) ∨
      (size = 5 ∧ 0xf8 ≤ lead.toNat ∧ lead.toNat < 0xfc) ∨ (size = 6 ∧ 0xfc ≤ lead.toNat ∧ lead.toNat < 0xfe) := by
  unfold sequenceLength at h
  simp only [UInt8.lt_iff_toNat_lt] at h
  split_ifs at h <;> obtain rfl := Option.some.inj h <;> simp_all

/-- Encoding a valid character gives the bytes that it was decoded from. -/
theorem toUTF8_nextChar {lead : UInt8} {rest : Bytes} (h : (nextChar lead rest).1 ≠ s_invalid)
    (hmax : (nextChar lead rest).1 < 0x110000) :
    toUTF8 (nextChar lead rest).1 = (lead :: rest.take (nextChar lead rest).2, false) ∧
      Scalar (nextChar lead rest).1 := by
  obtain ⟨size, hsize, htaken, hlength, hrest, hchar, hmin, hsurrogate, hnonchar⟩ := nextChar_valid h
  refine ⟨?_, hmax, hsurrogate, hnonchar⟩
  rw [htaken]
  generalize (nextChar lead rest).1 = c at hmax hchar hmin hsurrogate hnonchar ⊢
  generalize rest.take (size - 1) = more at hlength hrest hchar ⊢
  have hbad : ¬ ((0xd800 ≤ c ∧ c ≤ 0xdfff) ∨ 0x80000000 ≤ c) := by omega
  unfold toUTF8
  dsimp only
  rw [if_neg hbad, decide_eq_false hbad]
  refine Prod.ext ?_ rfl
  dsimp only
  rcases sequenceLength_range hsize with ⟨rfl, hlead⟩ | ⟨rfl, hlead⟩ | ⟨rfl, hlead⟩ | ⟨rfl, hlead⟩ | ⟨rfl, hlead⟩ |
    ⟨rfl, hlead⟩
  · obtain rfl := List.eq_nil_of_length_eq_zero hlength
    have hc : c = lead.toNat % 2 ^ 8 := hchar.trans (Nat.and_two_pow_sub_one_eq_mod _ 8)
    have hc' : lead.toNat = c := by omega
    rw [if_pos (by omega), ← hc', UInt8.ofNat_toNat]
  · obtain ⟨b, rfl⟩ := List.length_eq_one_iff.mp hlength
    have hb := hrest b (by simp)
    have hmask : lead.toNat &&& leadMask 2 = lead.toNat % 2 ^ 5 := Nat.and_two_pow_sub_one_eq_mod _ 5
    rw [extracted, extracted_cons, hmask, List.foldl_nil] at hchar
    have hfew : 0x80 ≤ c := hmin
    have hfirst : lead.toNat = c / 2 ^ 6 % 2 ^ 5 + 0xc0 := by omega
    have hsecond : b.toNat = c / 2 ^ 0 % 2 ^ 6 + 0x80 := by omega
    rw [if_neg (by omega), if_pos (by omega)]
    exact congrArg₂ List.cons (ofNat_bits hfirst) (congrArg (· :: []) (continuation_bits hsecond))
  · obtain ⟨b, b', rfl⟩ := List.length_eq_two.mp hlength
    have hb := hrest b (by simp)
    have hb' := hrest b' (by simp)
    have hmask : lead.toNat &&& leadMask 3 = lead.toNat % 2 ^ 4 := Nat.and_two_pow_sub_one_eq_mod _ 4
    rw [extracted, extracted_cons, extracted_cons, hmask, List.foldl_nil] at hchar
    have hfew : 0x800 ≤ c := hmin
    have hfirst : lead.toNat = c / 2 ^ 12 % 2 ^ 4 + 0xe0 := by omega
    have hsecond : b.toNat = c / 2 ^ 6 % 2 ^ 6 + 0x80 := by omega
    have hthird : b'.toNat = c / 2 ^ 0 % 2 ^ 6 + 0x80 := by omega
    rw [if_neg (by omega), if_neg (by omega), if_pos (by omega)]
    exact congrArg₂ List.cons (ofNat_bits hfirst) (congrArg₂ List.cons (continuation_bits hsecond)
      (congrArg (· :: []) (continuation_bits hthird)))
  · obtain ⟨b, b', b'', rfl⟩ := List.length_eq_three.mp hlength
    have hb := hrest b (by simp)
    have hb' := hrest b' (by simp)
    have hb'' := hrest b'' (by simp)
    have hmask : lead.toNat &&& leadMask 4 = lead.toNat % 2 ^ 3 := Nat.and_two_pow_sub_one_eq_mod _ 3
    rw [extracted, extracted_cons, extracted_cons, extracted_cons, hmask, List.foldl_nil] at hchar
    have hfew : 0x10000 ≤ c := hmin
    have hfirst : lead.toNat = c / 2 ^ 18 % 2 ^ 3 + 0xf0 := by omega
    have hsecond : b.toNat = c / 2 ^ 12 % 2 ^ 6 + 0x80 := by omega
    have hthird : b'.toNat = c / 2 ^ 6 % 2 ^ 6 + 0x80 := by omega
    have hfourth : b''.toNat = c / 2 ^ 0 % 2 ^ 6 + 0x80 := by omega
    rw [if_neg (by omega), if_neg (by omega), if_neg (by omega), if_pos (by omega)]
    exact congrArg₂ List.cons (ofNat_bits hfirst) (congrArg₂ List.cons (continuation_bits hsecond)
      (congrArg₂ List.cons (continuation_bits hthird) (congrArg (· :: []) (continuation_bits hfourth))))
  · exact absurd hmin (by simp [s_minChar]; omega)
  · exact absurd hmin (by simp [s_minChar]; omega)

/-- Encoding the characters of a valid text gives the text. -/
theorem written_chars {text : Bytes} (h : ∀ c ∈ chars text, c ≠ s_invalid ∧ c < 0x110000) :
    written ((chars text).map fun c => (c, false)) = (text, false) ∧ ∀ c ∈ chars text, Scalar c := by
  fun_induction chars text with
  | case1 => exact ⟨rfl, nofun⟩
  | case2 lead rest ih =>
    obtain ⟨hfirst, hrest⟩ := List.forall_mem_cons.mp h
    obtain ⟨hencoded, hscalar⟩ := toUTF8_nextChar hfirst.1 hfirst.2
    obtain ⟨hwritten, hall⟩ := ih hrest
    refine ⟨?_, List.forall_mem_cons.mpr ⟨hscalar, hall⟩⟩
    obtain ⟨htext, herror⟩ := Prod.mk.inj hwritten
    rw [List.map_cons, written, List.flatMap_cons, List.any_cons, htext, herror, hencoded, List.cons_append,
      List.take_append_drop]
    rfl

theorem unitsOf_unitBytes {unit : Nat} (h : unit < 2 ^ 16) (more : Bytes) :
    unitsOf false (unitBytes unit ++ more) = unit :: unitsOf false more := by
  have hunit : (UInt8.ofNat unit).toNat + 256 * (UInt8.ofNat (unit >>> 8)).toNat = unit := by
    rw [UInt8.toNat_ofNat', UInt8.toNat_ofNat', Nat.shiftRight_eq_div_pow]
    omega
  exact congrArg (· :: unitsOf false more) hunit

private theorem joined_plain {c : Nat} (h : c < 0xd800 ∨ 0xdfff < c) (units : List Nat) :
    joined (c :: units) = (c, false) :: joined units := by
  cases units with
  | nil => exact congrArg (· :: []) (if_pos h)
  | cons c2 units => rw [joined, if_pos h]

/-- A character that has one or two units, in front of others. -/
private theorem utf16Char_units {c : Nat} (h : Scalar c) (more : Bytes) :
    (utf16Char c).2 = false ∧
      joined (unitsOf false ((utf16Char c).1 ++ more)) = (c, false) :: joined (unitsOf false more) ∧
      ∃ unit, (unitsOf false ((utf16Char c).1 ++ more)).head? = some unit ∧ unit ≠ 0xfffe ∧
        (unit = 0xfeff → c = 0xfeff) := by
  obtain ⟨hmax, hsurrogate, hnonchar⟩ := h
  have hvalid : ¬ (c = s_invalid ∨ 0x110000 ≤ c) := by
    unfold s_invalid
    omega
  have hgood : ¬ (c ≠ s_invalid ∧ 0x110000 ≤ c) := by omega
  unfold utf16Char
  dsimp only
  rw [if_neg hvalid, decide_eq_false hgood]
  refine ⟨rfl, ?_⟩
  by_cases hsmall : c < 0x10000
  · rw [if_pos hsmall, unitsOf_unitBytes hsmall]
    exact ⟨joined_plain (by omega) _, c, rfl, by omega, id⟩
  · have hhigh : (c - 0x10000) >>> 10 = (c - 0x10000) / 1024 := Nat.shiftRight_eq_div_pow _ 10
    have hlow : (c - 0x10000) &&& 0x3ff = (c - 0x10000) % 1024 := Nat.and_two_pow_sub_one_eq_mod _ 10
    rw [if_neg hsmall, hhigh, hlow, List.append_assoc, unitsOf_unitBytes (by omega), unitsOf_unitBytes (by omega)]
    refine ⟨?_, _, rfl, by omega, by omega⟩
    have hlow' : (c - 0x10000) % 1024 < 2 ^ 10 := by omega
    have hpair : joinPair ((c - 0x10000) / 1024 + 0xd800) ((c - 0x10000) % 1024 + 0xdc00) = (c, false) := by
      unfold joinPair
      rw [if_neg (by omega), Nat.add_sub_cancel, Nat.add_sub_cancel, ← Nat.shiftLeft_add_eq_or_of_lt hlow',
        Nat.shiftLeft_eq]
      exact Prod.ext (by dsimp only; omega) rfl
    rw [joined, if_neg (by omega), if_pos (by omega), hpair]

/-- The units of characters are read as the characters. -/
theorem joined_utf16 {cs : List Nat} (h : ∀ c ∈ cs, Scalar c) :
    joined (unitsOf false (cs.flatMap fun c => (utf16Char c).1)) = cs.map fun c => (c, false) := by
  induction cs with
  | nil => rfl
  | cons c cs ih =>
    obtain ⟨hc, hcs⟩ := List.forall_mem_cons.mp h
    rw [List.flatMap_cons, (utf16Char_units hc _).2.1, ih hcs, List.map_cons]

/-- No byte order mark is read where there is none. -/
private theorem unmarked_utf16 {cs : List Nat} (h : ∀ c ∈ cs, Scalar c) (hmark : cs.head? ≠ some 0xfeff) :
    unmarked (cs.flatMap fun c => (utf16Char c).1) = unitsOf false (cs.flatMap fun c => (utf16Char c).1) := by
  cases cs with
  | nil => rfl
  | cons c cs =>
    obtain ⟨unit, hhead, hswapped, hfirst⟩ := (utf16Char_units (h c List.mem_cons_self)
      (cs.flatMap fun c => (utf16Char c).1)).2.2
    rw [List.flatMap_cons]
    unfold unmarked
    rw [hhead]
    split
    · next heq => exact absurd (congrArg some (hfirst (Option.some.inj heq))) hmark
    · next heq => exact absurd (Option.some.inj heq) hswapped
    · rfl

/-- Every conversion ends, and reads nothing but the text. -/
def Total (src : Bytes) : Prop :=
  (isUTF8 src).isSome ∧ (UTF8ToUTF16 src).isSome ∧ (UTF8ToUCS2 src).isSome ∧ (UTF16ToUTF8 src).isSome

/-- The text is the same after it was converted to UTF-16 and back, without an error. -/
def RoundTrips (src : Bytes) : Prop :=
  ∃ utf16, UTF8ToUTF16 src = some (utf16, false) ∧ UTF16ToUTF8 utf16 = some (src, false)

private theorem readable_of_lt {src : Bytes} (h : src.length < 2 ^ 32) : readable src = src := by
  rw [readable, sizeOf32, Nat.mod_eq_of_lt h, List.take_length]

private theorem length_utf16_even (cs : List Nat) : (cs.flatMap fun c => (utf16Char c).1).length % 2 = 0 := by
  have hchar : ∀ c, (utf16Char c).1.length % 2 = 0 := by
    intro c
    unfold utf16Char
    dsimp only
    split_ifs <;> simp [unitBytes]
  induction cs with
  | nil => rfl
  | cons c cs ih =>
    have hc := hchar c
    rw [List.flatMap_cons, List.length_append]
    omega

private theorem readableUnits_of_lt {src : Bytes} (h : src.length < 2 ^ 32) (heven : src.length % 2 = 0) :
    readableUnits src = src := by
  rw [readableUnits, sizeOf32, Nat.mod_eq_of_lt h, Nat.shiftRight_one]
  exact List.take_of_length_le (by omega)

theorem total (src : Bytes) : Total src := by
  unfold Total
  rw [isUTF8_eq, UTF8ToUTF16_eq, UTF8ToUCS2_eq, UTF16ToUTF8_eq]
  exact ⟨rfl, rfl, rfl, rfl⟩

/-- Valid text whose code points fit UTF-16 and that has no byte order mark comes back from UTF-16, while
its sizes are numbers of 32 bits; and every conversion of any bytes ends without a read outside of them. -/
theorem text_round_trip :
    (∀ src : Bytes, src.length < 2 ^ 32 →
      (∀ utf16 errors, UTF8ToUTF16 src = some (utf16, errors) → utf16.length < 2 ^ 32) →
      isUTF8 src = some true → (∀ c ∈ chars src, c < 0x110000) → (chars src).head? ≠ some 0xfeff →
      RoundTrips src) ∧ ∀ src, Total src := by
  refine ⟨fun src hsize hunits hvalid hmax hmark => ?_, total⟩
  rw [isUTF8_eq, readable_of_lt hsize] at hvalid
  rw [UTF8ToUTF16_eq, readable_of_lt hsize] at hunits
  have hchars : ∀ c ∈ chars src, c ≠ s_invalid ∧ c < 0x110000 := fun c hc =>
    ⟨by simpa using List.all_eq_true.mp (Option.some.inj hvalid) c hc, hmax c hc⟩
  obtain ⟨hwritten, hscalar⟩ := written_chars hchars
  have herrors : ((chars src).any fun c => (utf16Char c).2) = false :=
    List.any_eq_false.mpr fun c hc => by simp [(utf16Char_units (hscalar c hc) []).1]
  have hlength := readableUnits_of_lt (hunits _ _ rfl) (length_utf16_even _)
  refine ⟨(chars src).flatMap fun c => (utf16Char c).1, ?_, ?_⟩
  · rw [UTF8ToUTF16_eq, readable_of_lt hsize, herrors]
  · rw [UTF16ToUTF8_eq, hlength, unmarked_utf16 hscalar hmark, joined_utf16 hscalar, hwritten]

theorem text_round_trip_euro : RoundTrips [0xe2, 0x82, 0xac, 0x41, 0xf0, 0x9f, 0x98, 0x80] :=
  have hutf16 : UTF8ToUTF16 [0xe2, 0x82, 0xac, 0x41, 0xf0, 0x9f, 0x98, 0x80] =
      some ([0xac, 0x20, 0x41, 0, 0x3d, 0xd8, 0, 0xde], false) := by decide
  have hchars : chars [0xe2, 0x82, 0xac, 0x41, 0xf0, 0x9f, 0x98, 0x80] = [0x20ac, 0x41, 0x1f600] := by decide +kernel
  text_round_trip.1 [0xe2, 0x82, 0xac, 0x41, 0xf0, 0x9f, 0x98, 0x80] (by decide)
    (fun utf16 errors h => by
      rw [hutf16] at h
      rw [← (Prod.mk.inj (Option.some.inj h)).1]
      decide)
    (by decide) (by rw [hchars]; decide) (by rw [hchars]; decide)

private theorem chars_replicate (n : Nat) : chars (List.replicate n 0x61) = List.replicate n 0x61 := by
  induction n with
  | zero =>
    rw [List.replicate_zero, chars]
    rfl
  | succ n ih =>
    have hnext : nextChar 0x61 (List.replicate n 0x61) = (0x61, 0) := by
      have hsize : sequenceLength 0x61 = some 1 := by decide
      unfold nextChar
      rw [hsize]
      dsimp only
      rw [if_neg (by omega), Nat.sub_self, List.take_zero]
      rfl
    rw [List.replicate_succ, chars, hnext, List.drop_zero, ih]
    rfl

/-- Text of as many bytes as a size has values is taken for an empty one. -/
theorem huge_text_lost :
    ¬ ((∀ src : Bytes, isUTF8 src = some true → (∀ c ∈ chars src, c < 0x110000) →
      (chars src).head? ≠ some 0xfeff → RoundTrips src) ∧ ∀ src, Total src) := by
  rintro ⟨h, -⟩
  obtain ⟨n, hn⟩ : ∃ n, n = 2 ^ 32 := ⟨_, rfl⟩
  have hnone : readable (List.replicate n 0x61) = [] := by
    rw [readable, sizeOf32, List.length_replicate, hn, Nat.mod_self, List.take_zero]
  have hempty : chars [] = [] := by rw [chars]
  obtain ⟨utf16, hto, hback⟩ := h (List.replicate n 0x61) (by rw [isUTF8_eq, hnone, hempty]; rfl)
    (by
      rw [chars_replicate]
      intro c hc
      rw [List.eq_of_mem_replicate hc]
      decide)
    (by
      rw [chars_replicate]
      cases n with
      | zero => cases hn
      | succ n => simp [List.replicate_succ])
  rw [UTF8ToUTF16_eq, hnone, hempty] at hto
  obtain ⟨rfl, -⟩ := Prod.mk.inj (Option.some.inj hto)
  have hnothing : UTF16ToUTF8 [] = some ([], false) := by decide
  rw [List.flatMap_nil, hnothing] at hback
  have hlength := congrArg List.length (Prod.mk.inj (Option.some.inj hback)).1
  rw [List.length_replicate, hn, List.length_nil] at hlength
  exact absurd hlength (by decide)

end Synergy.Unicode
