import Mathlib.Data.Int.Log
import Mathlib.Data.Nat.Digits.Defs
import Mathlib.Data.Rat.Floor
import Mathlib.Tactic.IntervalCases
import Mathlib.Tactic.SplitIfs
import Synergy.Base.Text

/-! Numbers in text: the digits of a number, the number that digits stand for, and the
decimal numbers that Qt writes and reads. -/
namespace Synergy

/-- The value of a digit, for bases up to sixteen. -/
def digitValue (c : Char) : Nat :=
  if c.toNat ≤ 57 then c.toNat - 48 else if c.toNat ≤ 70 then c.toNat - 55 else c.toNat - 87

def isDigit (base : Nat) (c : Char) : Bool :=
  ((48 ≤ c.toNat && c.toNat ≤ 57) || (65 ≤ c.toNat && c.toNat ≤ 70) || (97 ≤ c.toNat && c.toNat ≤ 102)) &&
    digitValue c < base

/-- The number that digits of a base stand for. -/
def numeral (base : Nat) (digits : Str) : Nat := digits.foldl (fun n c => base * n + digitValue c) 0

def isspace (c : Char) : Bool := c == ' ' || (9 ≤ c.toNat && c.toNat ≤ 13)

/-- The text without the white space around it. -/
def trimmed (s : Str) : Str := ((s.dropWhile isspace).reverse.dropWhile isspace).reverse

/-- `QString::toULongLong`: a decimal number in white space, with a plus sign or none. -/
def toULongLong (s : Str) : Option Nat :=
  let t := trimmed s
  let digits := if t.head? = some '+' then t.drop 1 else t
  if digits.isEmpty || !digits.all (isDigit 10) then none
  else if numeral 10 digits < 2 ^ 64 then some (numeral 10 digits) else none

/-- A sign, if there is one, and what follows it. -/
def signed : Str → Bool × Str
  | '-' :: s => (true, s)
  | '+' :: s => (false, s)
  | s => (false, s)

/-- `strtol` for base ten and a long of 64 bits: the number, and the text it stops at. Without a
number the whole text is left; a number out of range is the closest one in it. -/
def strtol (s : Str) : Int × Str :=
  let (negative, t) := signed (s.dropWhile isspace)
  let digits := t.takeWhile (isDigit 10)
  if digits.isEmpty then (0, s)
  else
    let n : Int := numeral 10 digits
    (max (-2 ^ 63) (min (2 ^ 63 - 1) (if negative then -n else n)), t.dropWhile (isDigit 10))

/-- A hexadecimal number without the prefix that may stand before its digits. -/
def withoutHexPrefix : Str → Str
  | '0' :: x :: d :: s => if (x == 'x' || x == 'X') && isDigit 16 d then d :: s else '0' :: x :: d :: s
  | s => s

/-- `strtol` for base sixteen. -/
def strtolHex (s : Str) : Int × Str :=
  let (negative, t) := signed (s.dropWhile isspace)
  let digits := (withoutHexPrefix t).takeWhile (isDigit 16)
  if digits.isEmpty then (0, s)
  else
    let n : Int := numeral 16 digits
    (max (-2 ^ 63) (min (2 ^ 63 - 1) (if negative then -n else n)), (withoutHexPrefix t).dropWhile (isDigit 16))

/-- `std::stoi`, or nothing when it throws. -/
def stoi (s : Str) : Option Int :=
  if ((signed (s.dropWhile isspace)).2.takeWhile (isDigit 10)).isEmpty then none
  else if -2 ^ 31 ≤ (strtol s).1 ∧ (strtol s).1 < 2 ^ 31 then some (strtol s).1
  else none

theorem digitValue_digitChar {d : Nat} (h : d < 16) : digitValue (Nat.digitChar d) = d := by
  interval_cases d <;> decide

theorem isDigit_digitChar {b d : Nat} (h : d < b) (hb : b ≤ 16) : isDigit b (Nat.digitChar d) = true := by
  have hd : d < 16 := by omega
  have hv : digitValue (Nat.digitChar d) < b := by rwa [digitValue_digitChar hd]
  have hr : ∀ d < 16, isDigit 16 (Nat.digitChar d) = true := by decide
  have hr := hr d hd
  rw [isDigit, Bool.and_eq_true] at hr ⊢
  exact ⟨hr.1, decide_eq_true hv⟩

theorem numeral_append (b : Nat) (l : Str) (c : Char) :
    numeral b (l ++ [c]) = b * numeral b l + digitValue c := by
  simp [numeral]

/-- The digits of a number stand for it. -/
theorem numeral_toDigits {b : Nat} (hb : 1 < b) (hb' : b ≤ 16) (n : Nat) : numeral b (Nat.toDigits b n) = n := by
  induction n using Nat.strong_induction_on with
  | _ n ih =>
    rcases lt_or_ge n b with h | h
    · rw [Nat.toDigits_of_lt_base h]
      simp [numeral, digitValue_digitChar (h.trans_le hb')]
    · have hm : n % b < b := Nat.mod_lt _ (by omega)
      rw [Nat.toDigits_of_base_le hb h, numeral_append, ih _ (Nat.div_lt_self (by omega) hb),
        digitValue_digitChar (hm.trans_le hb')]
      exact Nat.div_add_mod n b

theorem isDigit_of_mem_toDigits {b : Nat} (hb : 1 < b) (hb' : b ≤ 16) (n : Nat) :
    ∀ c ∈ Nat.toDigits b n, isDigit b c = true := by
  induction n using Nat.strong_induction_on with
  | _ n ih =>
    intro c hc
    rcases lt_or_ge n b with h | h
    · rw [Nat.toDigits_of_lt_base h, List.mem_singleton] at hc
      exact hc ▸ isDigit_digitChar h hb'
    · rw [Nat.toDigits_of_base_le hb h, List.mem_append, List.mem_singleton] at hc
      rcases hc with hc | rfl
      · exact ih _ (Nat.div_lt_self (by omega) hb) c hc
      · exact isDigit_digitChar (Nat.mod_lt _ (by omega)) hb'

/-- A digit is neither white space nor a sign. -/
theorem isspace_of_isDigit {b : Nat} {c : Char} (h : isDigit b c = true) : isspace c = false ∧ c ≠ '+' := by
  simp only [isDigit, Bool.and_eq_true, Bool.or_eq_true, decide_eq_true_eq] at h
  have hspace : c.toNat ≠ 32 := by omega
  have hplus : c.toNat ≠ 43 := by omega
  refine ⟨?_, fun hc => hplus (hc ▸ rfl)⟩
  have hc : c ≠ ' ' := fun hc => hspace (hc ▸ rfl)
  have hrange : ¬ c.toNat ≤ 13 := by omega
  simp [isspace, hc, hrange]

theorem isDigit_ten {c : Char} (h : isDigit 10 c = true) : 48 ≤ c.toNat ∧ c.toNat ≤ 57 := by
  rw [isDigit, Bool.and_eq_true] at h
  have hv : digitValue c < 10 := of_decide_eq_true h.2
  have hr := h.1
  simp only [Bool.and_eq_true, Bool.or_eq_true, decide_eq_true_eq] at hr
  unfold digitValue at hv
  split_ifs at hv <;> omega

private theorem dropWhile_none {p : Char → Bool} {s : Str} (h : ∀ c ∈ s, p c = false) : s.dropWhile p = s := by
  cases s with
  | nil => rfl
  | cons c s => simp [h c (by simp)]

theorem trimmed_of_digits {b : Nat} {s : Str} (h : ∀ c ∈ s, isDigit b c = true) : trimmed s = s := by
  have hs : ∀ c ∈ s, isspace c = false := fun c hc => (isspace_of_isDigit (h c hc)).1
  rw [trimmed, dropWhile_none hs, dropWhile_none fun c hc => hs c (List.mem_reverse.mp hc), List.reverse_reverse]

/-- The decimal digits of a 64-bit number are read back as that number. -/
theorem toULongLong_toDigits {n : Nat} (hn : n < 2 ^ 64) : toULongLong (Nat.toDigits 10 n) = some n := by
  have hdigits := isDigit_of_mem_toDigits (b := 10) (by decide) (by decide) n
  have hhead : (Nat.toDigits 10 n).head? ≠ some '+' := by
    intro h
    exact (isspace_of_isDigit (hdigits '+' (List.mem_of_mem_head? h))).2 rfl
  have hempty : (Nat.toDigits 10 n).isEmpty = false := by
    rw [List.isEmpty_eq_false_iff, ← List.length_pos_iff]
    exact Nat.length_toDigits_pos
  have hall : (Nat.toDigits 10 n).all (isDigit 10) = true := List.all_eq_true.mpr hdigits
  simp only [toULongLong, trimmed_of_digits hdigits, if_neg hhead, hempty, hall, Bool.not_true, Bool.or_self,
    Bool.false_eq_true, if_false, numeral_toDigits (b := 10) (by decide) (by decide), if_pos hn]

end Synergy

/-! Binary floating point numbers as the text of a configuration gives them: `strtod`, and
the rounding to the formats of `double` and `float`. -/
namespace Synergy

/-- A floating point number; the two zeros compare alike and are one here. -/
inductive Double
  | finite (value : ℚ)
  | infinite (negative : Bool)
  | nan
  deriving DecidableEq

namespace Double

/-- The closest integer, the even one of two. -/
def roundEven (q : ℚ) : ℤ :=
  if Int.fract q < 1 / 2 then ⌊q⌋
  else if 1 / 2 < Int.fract q then ⌊q⌋ + 1
  else if ⌊q⌋ % 2 = 0 then ⌊q⌋
  else ⌊q⌋ + 1

/-- Rounding to a format by its precision and the exponents of its smallest normal number
and of its overflow. -/
def rounded (precision : ℕ) (least overflow : ℤ) (q : ℚ) : Double :=
  let ulp : ℚ := 2 ^ (max (Int.log 2 |q|) least - precision + 1)
  let r := roundEven (q / ulp) * ulp
  if 2 ^ overflow ≤ |r| then infinite (q < 0) else finite r

def toDouble : ℚ → Double := rounded 53 (-1022) 1024

def toFloat : ℚ → Double := rounded 24 (-126) 128

/-- `operator<`, which nothing satisfies with a nan. -/
def less : Double → Double → Bool
  | finite p, finite q => p < q
  | finite _, infinite negative => !negative
  | infinite negative, finite _ => negative
  | infinite negative, infinite negative' => negative && !negative'
  | _, _ => false

/-- `operator>=`, which is not the negation of `operator<` with a nan. -/
def notLess : Double → Double → Bool
  | nan, _ => false
  | _, nan => false
  | x, y => !less x y

end Double

/-- The digits of a number with at most one point in them: their value and what follows. -/
def mantissa (base : ℕ) (s : Str) : Option (ℚ × Str) :=
  let whole := s.takeWhile (isDigit base)
  let after := s.dropWhile (isDigit base)
  let pointed := after.head? = some '.'
  let fraction := if pointed then (after.drop 1).takeWhile (isDigit base) else []
  if whole.isEmpty && fraction.isEmpty then none
  else
    some (numeral base (whole ++ fraction) / base ^ fraction.length,
      if pointed then (after.drop 1).dropWhile (isDigit base) else after)

/-- The exponent after its mark, if there are digits in it, and what follows. -/
def exponent (mark : Char) (s : Str) : ℤ × Str :=
  match s with
  | [] => (0, [])
  | c :: t =>
    let (negative, u) := signed t
    let digits := u.takeWhile (isDigit 10)
    if c.toLower ≠ mark || digits.isEmpty then (0, s)
    else ((if negative then -(numeral 10 digits : ℤ) else numeral 10 digits), u.dropWhile (isDigit 10))

/-- The number that a text without a sign starts with, as it is spelled, and what follows. -/
def unsignedNumber (s : Str) : Option (Double × Str) :=
  if Str.fold (s.take 8) = "infinity".toList then some (.infinite false, s.drop 8)
  else if Str.fold (s.take 3) = "inf".toList then some (.infinite false, s.drop 3)
  else if Str.fold (s.take 3) = "nan".toList then
    -- a sequence in parentheses belongs to it when they close
    let t := s.drop 3
    let u := (t.drop 1).dropWhile fun c => c.isAlphanum || c == '_'
    some (.nan, if t.head? = some '(' ∧ u.head? = some ')' then u.drop 1 else t)
  else
    match if Str.fold (s.take 2) = "0x".toList then mantissa 16 (s.drop 2) else none with
    | some (m, t) => some (.finite (m * 2 ^ (exponent 'p' t).1), (exponent 'p' t).2)
    | none => (mantissa 10 s).map fun (m, t) => (.finite (m * 10 ^ (exponent 'e' t).1), (exponent 'e' t).2)

/-- The number that a text starts with, as it is spelled, and what follows. -/
def spelledNumber (s : Str) : Option (Double × Str) :=
  let (negative, t) := signed (s.dropWhile isspace)
  (unsignedNumber t).map fun (x, u) =>
    (match x with
      | .finite q => .finite (if negative then -q else q)
      | .infinite _ => .infinite negative
      | .nan => .nan, u)

/-- `strtod`: the number, and the text it stops at, which is the whole text without a number. -/
def strtod (s : Str) : Double × Str :=
  match spelledNumber s with
  | some (.finite q, t) => (Double.toDouble q, t)
  | some (x, t) => (x, t)
  | none => (.finite 0, s)

example : spelledNumber " +12.5e1 ".toList = some (.finite 125, [' ']) := by decide +kernel

end Synergy
