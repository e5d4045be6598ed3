import Mathlib.Data.List.TakeWhile
import Synergy.Io.StreamBuffer

/-! The conversions between encodings of text. A pointer is an offset into the source, and a read outside of
it has no value. -/
namespace Synergy.Unicode

def s_invalid : Nat := 0xffff
def s_replacement : Nat := 0xfffd

def readBytes (src : Bytes) (data count : Nat) : Option Bytes :=
  if data + count ≤ src.length then some ((src.drop data).take count) else none

/-- The number of bytes of a character, by its first one. -/
def sequenceLength (lead : UInt8) : Option Nat :=
  if lead < 0x80 then some 1
  else if lead < 0xc0 then none
  else if lead < 0xe0 then some 2
  else if lead < 0xf0 then some 3
  else if lead < 0xf8 then some 4
  else if lead < 0xfc then some 5
  else if lead < 0xfe then some 6
  else none

/-- The bits of the first byte that belong to the character. -/
def leadMask : Nat → Nat
  | 1 => 0xff
  | 2 => 0x1f
  | 3 => 0x0f
  | 4 => 0x07
  | 5 => 0x03
  | _ => 0x01

/-- The smallest character that needs as many bytes. -/
def s_minChar (size : Nat) : Nat :=
  ([0x00000000, 0x00000000, 0x00000080, 0x00000800, 0x00010000, 0x00200000, 0x04000000][size]?).getD 0

def isContinuation (b : UInt8) : Bool := b &&& 0xc0 == 0x80

/-- The bits of all bytes. -/
def extracted (size : Nat) (lead : UInt8) (rest : Bytes) : Nat :=
  rest.foldl (fun c b => c <<< 6 ||| b.toNat &&& 0x3f) (lead.toNat &&& leadMask size)

/-- No character that is too long, half of a pair, or not one. -/
def checkedChar (size c : Nat) : Nat :=
  if c < s_minChar size then s_invalid
  else if 0xd800 ≤ c ∧ c ≤ 0xdfff then s_invalid
  else if 0xfffe ≤ c ∧ c ≤ 0xffff then s_invalid
  else c

/-- The next character of the `n` bytes at `data`, and the bytes after it. A character that is cut short by
another one ends before it, one that is cut short by the end takes all that is left. -/
def fromUTF8 (src : Bytes) (data n : Nat) : Option (Nat × Nat × Nat) := do
  let lead ← src[data]?
  match sequenceLength lead with
  | none => return (s_invalid, data + 1, n - 1)
  | some size =>
    if n < size then return (s_invalid, data + n, 0)
    else
      let rest ← readBytes src (data + 1) (size - 1)
      let kept := (rest.takeWhile isContinuation).length + 1
      if kept < size then return (s_invalid, data + kept, n - kept)
      else return (checkedChar size (extracted size lead rest), data + size, n - size)

/-- The bytes of a character, and whether it cannot be encoded. -/
def toUTF8 (c : Nat) : Bytes × Bool :=
  let bad := (0xd800 ≤ c ∧ c ≤ 0xdfff) ∨ 0x80000000 ≤ c
  let c := if bad then s_replacement else c
  let continuation (shift : Nat) : UInt8 := .ofNat ((c >>> shift &&& 0x3f) + 0x80)
  (if c < 0x00000080 then [.ofNat c]
    else if c < 0x00000800 then [.ofNat ((c >>> 6 &&& 0x1f) + 0xc0), continuation 0]
    else if c < 0x00010000 then [.ofNat ((c >>> 12 &&& 0x0f) + 0xe0), continuation 6, continuation 0]
    else if c < 0x00200000 then
      [.ofNat ((c >>> 18 &&& 0x07) + 0xf0), continuation 12, continuation 6, continuation 0]
    else if c < 0x04000000 then
      [.ofNat ((c >>> 24 &&& 0x03) + 0xf8), continuation 18, continuation 12, continuation 6, continuation 0]
    else
      [.ofNat ((c >>> 30 &&& 0x01) + 0xfc), continuation 24, continuation 18, continuation 12, continuation 6,
        continuation 0], bad)

/-- The two bytes of a 16-bit unit, the low one first. -/
def unitBytes (unit : Nat) : Bytes := [.ofNat unit, .ofNat (unit >>> 8)]

/-- A character as units, and whether it cannot be encoded. -/
def ucs2Char (c : Nat) : Bytes × Bool :=
  if c = s_invalid then (unitBytes s_replacement, false)
  else if 0x00010000 ≤ c then (unitBytes s_replacement, true)
  else (unitBytes c, false)

def utf16Char (c : Nat) : Bytes × Bool :=
  let bad := c ≠ s_invalid ∧ 0x00110000 ≤ c
  let c := if c = s_invalid ∨ 0x00110000 ≤ c then s_replacement else c
  (if c < 0x00010000 then unitBytes c
    else unitBytes ((c - 0x00010000) >>> 10 + 0xd800) ++ unitBytes (((c - 0x00010000) &&& 0x03ff) + 0xdc00), bad)

/-- The loop over the characters of `n` bytes, which ends at the first invalid one. -/
def isUTF8Loop (src : Bytes) : Nat → Nat → Nat → Option Bool
  | _, _, 0 => some true
  | 0, _, _ + 1 => none
  | fuel + 1, data, n + 1 => do
    let (c, data, n) ← fromUTF8 src data (n + 1)
    if c = s_invalid then return false
    isUTF8Loop src fuel data n

/-- The loop that converts each character of `n` bytes. -/
def convertLoop (encode : Nat → Bytes × Bool) (src : Bytes) : Nat → Nat → Nat → Option (Bytes × Bool)
  | _, _, 0 => some ([], false)
  | 0, _, _ + 1 => none
  | fuel + 1, data, n + 1 => do
    let (c, data, n) ← fromUTF8 src data (n + 1)
    let (dst, errors) ← convertLoop encode src fuel data n
    return ((encode c).1 ++ dst, (encode c).2 || errors)

/-- The size as it is kept, a 32-bit number. -/
def sizeOf32 (src : Bytes) : Nat := src.length % 2 ^ 32

/-- Every character takes a byte at least. -/
def isUTF8 (src : Bytes) : Option Bool := isUTF8Loop src (sizeOf32 src) 0 (sizeOf32 src)

/-- The text, and the error flag. -/
def UTF8ToUCS2 (src : Bytes) : Option (Bytes × Bool) := convertLoop ucs2Char src (sizeOf32 src) 0 (sizeOf32 src)

def UTF8ToUTF16 (src : Bytes) : Option (Bytes × Bool) := convertLoop utf16Char src (sizeOf32 src) 0 (sizeOf32 src)

/-- The unit at an offset, on a machine that has the low byte first. -/
def decode16 (src : Bytes) (data : Nat) (byteSwapped : Bool) : Option Nat := do
  let first ← src[data]?
  let second ← src[data + 1]?
  return if byteSwapped then second.toNat + 256 * first.toNat else first.toNat + 256 * second.toNat

/-- A character in front of what follows it. -/
def emit (c : Nat × Bool) (rest : Option (Bytes × Bool)) : Option (Bytes × Bool) := do
  let (dst, errors) ← rest
  return ((toUTF8 c.1).1 ++ dst, c.2 || (toUTF8 c.1).2 || errors)

/-- The character of a pair, if the second unit is one of a pair, and whether it is not. -/
def joinPair (c c2 : Nat) : Nat × Bool :=
  if c2 < 0xdc00 ∨ 0xdfff < c2 then (s_replacement, true)
  else (((c - 0xd800) <<< 10 ||| (c2 - 0xdc00)) + 0x00010000, false)

/-- The loop over `n` units. -/
def doUTF16Loop (src : Bytes) (byteSwapped : Bool) : Nat → Nat → Option (Bytes × Bool)
  | 0, _ => some ([], false)
  | 1, data => do
    let c ← decode16 src data byteSwapped
    if c < 0xd800 ∨ 0xdfff < c then emit (c, false) (doUTF16Loop src byteSwapped 0 (data + 2))
    else emit (s_replacement, true) (doUTF16Loop src byteSwapped 0 (data + 2))
  | n + 2, data => do
    let c ← decode16 src data byteSwapped
    if c < 0xd800 ∨ 0xdfff < c then emit (c, false) (doUTF16Loop src byteSwapped (n + 1) (data + 2))
    else if 0xd800 ≤ c ∧ c ≤ 0xdbff then do
      let c2 ← decode16 src (data + 2) byteSwapped
      -- the second unit is taken whatever it is
      emit (joinPair c c2) (doUTF16Loop src byteSwapped n (data + 4))
    else emit (s_replacement, true) (doUTF16Loop src byteSwapped (n + 1) (data + 2))

/-- A byte order mark is left out, and says which byte comes first. -/
def doUTF16ToUTF8 (src : Bytes) (n : Nat) : Option (Bytes × Bool) :=
  if n = 0 then some ([], false)
  else do
    let mark ← decode16 src 0 false
    if mark = 0xfeff then doUTF16Loop src false (n - 1) 2
    else if mark = 0xfffe then doUTF16Loop src true (n - 1) 2
    else doUTF16Loop src false n 0

def UTF16ToUTF8 (src : Bytes) : Option (Bytes × Bool) := doUTF16ToUTF8 src (sizeOf32 src >>> 1)

end Synergy.Unicode

/-! The characters and the units that the loops over text find, as functions of the bytes that are left. -/
namespace Synergy.Unicode

/-- The bytes stand at an offset in the source. -/
def StandsAt (src : Bytes) (data : Nat) (text : Bytes) : Prop :=
  ∃ before after, src = before ++ (text ++ after) ∧ before.length = data

/-- The character that starts with a byte, and how many of the bytes that follow are taken. -/
def nextChar (lead : UInt8) (rest : Bytes) : Nat × Nat :=
  match sequenceLength lead with
  | none => (s_invalid, 0)
  | some size =>
    if rest.length + 1 < size then (s_invalid, rest.length)
    else
      let kept := ((rest.take (size - 1)).takeWhile isContinuation).length
      if kept + 1 < size then (s_invalid, kept)
      else (checkedChar size (extracted size lead (rest.take (size - 1))), size - 1)

/-- The characters of a text. -/
def chars : Bytes → List Nat
  | [] => []
  | lead :: rest => (nextChar lead rest).1 :: chars (rest.drop (nextChar lead rest).2)
termination_by text => text.length
decreasing_by
  rw [List.length_drop, List.length_cons]
  omega

/-- The units of a text in 16-bit units; an odd byte at the end is none. -/
def unitsOf (byteSwapped : Bool) : Bytes → List Nat
  | first :: second :: rest =>
    (if byteSwapped then second.toNat + 256 * first.toNat else first.toNat + 256 * second.toNat) ::
      unitsOf byteSwapped rest
  | _ => []

/-- The characters of units, and whether each stands for an error. -/
def joined : List Nat → List (Nat × Bool)
  | [] => []
  | [c] => [if c < 0xd800 ∨ 0xdfff < c then (c, false) else (s_replacement, true)]
  | c :: c2 :: units =>
    if c < 0xd800 ∨ 0xdfff < c then (c, false) :: joined (c2 :: units)
    else if 0xd800 ≤ c ∧ c ≤ 0xdbff then joinPair c c2 :: joined units
    else (s_replacement, true) :: joined (c2 :: units)

/-- The text of characters, some of which stand for errors, and whether there is an error. -/
def written (cs : List (Nat × Bool)) : Bytes × Bool :=
  (cs.flatMap fun c => (toUTF8 c.1).1, cs.any fun c => c.2 || (toUTF8 c.1).2)

namespace StandsAt
variable {src text : Bytes} {data : Nat}

theorem whole (src : Bytes) {n : Nat} : StandsAt src 0 (src.take n) :=
  ⟨[], src.drop n, by rw [List.take_append_drop, List.nil_append], rfl⟩

theorem get {lead : UInt8} (h : StandsAt src data (lead :: text)) : src[data]? = some lead := by
  obtain ⟨before, after, rfl, rfl⟩ := h
  simp

theorem drop (h : StandsAt src data text) {count : Nat} (hcount : count ≤ text.length) :
    StandsAt src (data + count) (text.drop count) := by
  obtain ⟨before, after, rfl, rfl⟩ := h
  refine ⟨before ++ text.take count, after, ?_, by rw [List.length_append, List.length_take_of_le hcount]⟩
  rw [List.append_assoc, ← List.append_assoc (text.take count), List.take_append_drop]

theorem tail {lead : UInt8} (h : StandsAt src data (lead :: text)) : StandsAt src (data + 1) text := by
  have hdrop : 1 ≤ (lead :: text).length := by simp
  exact h.drop hdrop

theorem readBytes (h : StandsAt src data text) {count : Nat} (hcount : count ≤ text.length) :
    readBytes src data count = some (text.take count) := by
  obtain ⟨before, after, rfl, rfl⟩ := h
  unfold Unicode.readBytes
  rw [if_pos (by simp only [List.length_append]; omega), List.drop_left, List.take_append_of_le_length hcount]

end StandsAt

theorem nextChar_le (lead : UInt8) (rest : Bytes) : (nextChar lead rest).2 ≤ rest.length := by
  unfold nextChar
  cases sequenceLength lead with
  | none => exact Nat.zero_le _
  | some size =>
    dsimp only
    split_ifs with hshort hkept
    · exact le_rfl
    · have htake := (List.takeWhile_prefix isContinuation (l := rest.take (size - 1))).length_le
      exact htake.trans (List.length_take_le' _ _)
    · dsimp only
      omega

private theorem sequenceLength_pos {lead : UInt8} {size : Nat} (h : sequenceLength lead = some size) : 0 < size := by
  unfold sequenceLength at h
  split_ifs at h <;> obtain rfl := Option.some.inj h <;> decide

/-- The next character is a function of the bytes that are left. -/
theorem fromUTF8_eq {src rest : Bytes} {lead : UInt8} {data : Nat} (h : StandsAt src data (lead :: rest)) :
    fromUTF8 src data (rest.length + 1) =
      some ((nextChar lead rest).1, data + 1 + (nextChar lead rest).2, rest.length - (nextChar lead rest).2) := by
  unfold fromUTF8 nextChar
  rw [h.get]
  simp only [Option.bind_eq_bind, Option.bind_some]
  cases hlength : sequenceLength lead with
  | none => rfl
  | some size =>
    have hpos := sequenceLength_pos hlength
    dsimp only
    by_cases hshort : rest.length + 1 < size
    · rw [if_pos hshort, if_pos hshort, Nat.add_right_comm, Nat.add_assoc, Nat.sub_self]
      rfl
    · rw [if_neg hshort, if_neg hshort, h.tail.readBytes (by omega), Option.bind_some]
      split_ifs with hkept
      · refine congrArg some (Prod.ext rfl (Prod.ext ?_ ?_))
        · dsimp only
          omega
        · dsimp only
          omega
      · refine congrArg some (Prod.ext rfl (Prod.ext ?_ ?_))
        · dsimp only
          omega
        · dsimp only
          omega

/-- The text that is left after a character. -/
private theorem standsAt_next {src rest : Bytes} {lead : UInt8} {data : Nat} (h : StandsAt src data (lead :: rest)) :
    StandsAt src (data + 1 + (nextChar lead rest).2) (rest.drop (nextChar lead rest).2) :=
  h.tail.drop (nextChar_le lead rest)

/-- The loop finds the characters of the text, up to the first that is invalid. -/
theorem isUTF8Loop_eq {src : Bytes} {fuel data : Nat} {text : Bytes} (h : StandsAt src data text)
    (hfuel : text.length ≤ fuel) : isUTF8Loop src fuel data text.length = some ((chars text).all (· ≠ s_invalid)) := by
  induction fuel generalizing data text with
  | zero =>
    obtain rfl := List.eq_nil_of_length_eq_zero (Nat.le_zero.mp hfuel)
    rw [chars]
    rfl
  | succ fuel ih =>
    cases text with
    | nil =>
      rw [chars]
      rfl
    | cons lead rest =>
      rw [List.length_cons] at hfuel
      rw [List.length_cons, isUTF8Loop, fromUTF8_eq h, chars, List.all_cons]
      simp only [Option.bind_eq_bind, Option.bind_some]
      have hrest := ih (standsAt_next h) (by rw [List.length_drop]; omega)
      rw [List.length_drop] at hrest
      split_ifs with hinvalid
      · simp [hinvalid]
      · rw [hrest]
        simp [hinvalid]

theorem convertLoop_eq (encode : Nat → Bytes × Bool) {src : Bytes} {fuel data : Nat} {text : Bytes}
    (h : StandsAt src data text) (hfuel : text.length ≤ fuel) :
    convertLoop encode src fuel data text.length =
      some ((chars text).flatMap fun c => (encode c).1, (chars text).any fun c => (encode c).2) := by
  induction fuel generalizing data text with
  | zero =>
    obtain rfl := List.eq_nil_of_length_eq_zero (Nat.le_zero.mp hfuel)
    rw [chars]
    rfl
  | succ fuel ih =>
    cases text with
    | nil =>
      rw [chars]
      rfl
    | cons lead rest =>
      rw [List.length_cons] at hfuel
      have hrest := ih (standsAt_next h) (by rw [List.length_drop]; omega)
      rw [List.length_drop] at hrest
      rw [List.length_cons, convertLoop, fromUTF8_eq h, chars, List.flatMap_cons, List.any_cons]
      simp only [Option.bind_eq_bind, Option.bind_some]
      rw [hrest]
      rfl

private theorem decode16_eq {src rest : Bytes} {first second : UInt8} {data : Nat} (byteSwapped : Bool)
    (h : StandsAt src data (first :: second :: rest)) :
    decode16 src data byteSwapped = (unitsOf byteSwapped (first :: second :: rest)).head? := by
  unfold decode16
  rw [h.get, h.tail.get]
  rfl

private theorem emit_written (c : Nat × Bool) (cs : List (Nat × Bool)) :
    emit c (some (written cs)) = some (written (c :: cs)) := by
  unfold emit written
  rw [List.flatMap_cons, List.any_cons]
  rfl

/-- The loop finds the characters of the units. -/
theorem doUTF16Loop_eq (byteSwapped : Bool) {src : Bytes} {n data : Nat} {text : Bytes} (h : StandsAt src data text)
    (hlength : text.length = 2 * n) :
    doUTF16Loop src byteSwapped n data = some (written (joined (unitsOf byteSwapped text))) := by
  fun_induction doUTF16Loop src byteSwapped n data generalizing text with
  | case1 data =>
    obtain rfl := List.eq_nil_of_length_eq_zero hlength
    rfl
  | case2 data ih =>
    match text, hlength, h with
    | [first, second], _, h =>
      rw [decode16_eq byteSwapped h, ih h.tail.tail rfl]
      simp only [unitsOf, List.head?_cons, Option.bind_eq_bind, Option.bind_some, joined, emit_written]
      split_ifs <;> rfl
  | case3 data n ih1 ih2 =>
    match text, hlength, h with
    | first :: second :: first2 :: second2 :: rest, hlength, h =>
      simp only [List.length_cons] at hlength
      have hnext := ih1 h.tail.tail (by simp only [List.length_cons]; omega)
      have hafter := ih2 h.tail.tail.tail.tail (by omega)
      rw [hnext, hafter, decode16_eq byteSwapped h, decode16_eq byteSwapped h.tail.tail]
      simp only [unitsOf, List.head?_cons, Option.bind_eq_bind, Option.bind_some, joined, emit_written]
      split_ifs <;> rfl

private theorem sizeOf32_le (src : Bytes) : sizeOf32 src ≤ src.length := Nat.mod_le _ _

/-- What is read of a text: as much as its size, kept in 32 bits, says. -/
def readable (src : Bytes) : Bytes := src.take (sizeOf32 src)

theorem length_readable (src : Bytes) : (readable src).length = sizeOf32 src :=
  List.length_take_of_le (sizeOf32_le src)

theorem isUTF8_eq (src : Bytes) : isUTF8 src = some ((chars (readable src)).all (· ≠ s_invalid)) := by
  rw [isUTF8, ← length_readable src]
  exact isUTF8Loop_eq (.whole src) le_rfl

private theorem convert_eq (encode : Nat → Bytes × Bool) (src : Bytes) :
    convertLoop encode src (sizeOf32 src) 0 (sizeOf32 src) =
      some ((chars (readable src)).flatMap fun c => (encode c).1, (chars (readable src)).any fun c => (encode c).2) := by
  rw [← length_readable src]
  exact convertLoop_eq encode (.whole src) le_rfl

theorem UTF8ToUTF16_eq (src : Bytes) :
    UTF8ToUTF16 src = some ((chars (readable src)).flatMap fun c => (utf16Char c).1,
      (chars (readable src)).any fun c => (utf16Char c).2) := convert_eq utf16Char src

theorem UTF8ToUCS2_eq (src : Bytes) :
    UTF8ToUCS2 src = some ((chars (readable src)).flatMap fun c => (ucs2Char c).1,
      (chars (readable src)).any fun c => (ucs2Char c).2) := convert_eq ucs2Char src

/-- The units of a text after its byte order mark. -/
def unmarked (text : Bytes) : List Nat :=
  match (unitsOf false text).head? with
  | some 0xfeff => unitsOf false (text.drop 2)
  | some 0xfffe => unitsOf true (text.drop 2)
  | _ => unitsOf false text

private theorem doUTF16ToUTF8_eq {src text : Bytes} {n : Nat} (h : StandsAt src 0 text) (hlength : text.length = 2 * n) :
    doUTF16ToUTF8 src n = some (written (joined (unmarked text))) := by
  unfold doUTF16ToUTF8
  cases n with
  | zero =>
    obtain rfl := List.eq_nil_of_length_eq_zero hlength
    rfl
  | succ n =>
    match text, hlength, h with
    | first :: second :: rest, hlength, h =>
      simp only [List.length_cons] at hlength
      have hrest : rest.length = 2 * n := by omega
      have hmark : decode16 src 0 false = some (first.toNat + 256 * second.toNat) := decode16_eq false h
      have hhead : (unitsOf false (first :: second :: rest)).head? = some (first.toNat + 256 * second.toNat) := rfl
      rw [if_neg (Nat.succ_ne_zero n), hmark, Nat.add_sub_cancel]
      simp only [Option.bind_eq_bind, Option.bind_some]
      unfold unmarked
      rw [hhead]
      split_ifs with hfeff hfffe
      · rw [hfeff]
        exact doUTF16Loop_eq false h.tail.tail hrest
      · rw [hfffe]
        exact doUTF16Loop_eq true h.tail.tail hrest
      · rw [doUTF16Loop_eq false h (by simp only [List.length_cons]; omega)]
        split
        · next heq => exact absurd (Option.some.inj heq) hfeff
        · next heq => exact absurd (Option.some.inj heq) hfffe
        · rfl

/-- What is read of a text of units. -/
def readableUnits (src : Bytes) : Bytes := src.take (2 * (sizeOf32 src >>> 1))

theorem UTF16ToUTF8_eq (src : Bytes) : UTF16ToUTF8 src = some (written (joined (unmarked (readableUnits src)))) := by
  have hle := sizeOf32_le src
  refine doUTF16ToUTF8_eq (.whole src) (List.length_take_of_le ?_)
  rw [Nat.shiftRight_one]
  omega

end Synergy.Unicode
