import Mathlib.Algebra.Order.Group.Int
import Mathlib.Data.List.Infix
import Mathlib.Data.List.TakeWhile
import Mathlib.Tactic.SplitIfs
import Synergy.Base.Numerals

/-! Formats with positional arguments: how a format is scanned, and what takes the place of its escapes. -/
namespace Synergy.Text

/-- What makes formatting fail: an index outside a table, an argument that is not there, or a `std::length_error`. -/
inductive FormatFault where
  | outOfRange
  | noArgument
  | lengthError
  deriving DecidableEq

/-- What is remembered of an escape: where it begins, its width, and the index of its argument. -/
structure Escape where
  pos : Nat
  width : Nat
  index : Nat

/-- `strtol` sets `errno` for a number that a long of 64 bits does not hold. -/
def outOfLong (s : Str) : Bool :=
  let (negative, t) := signed (s.dropWhile isspace)
  let n := numeral 10 (t.takeWhile (isDigit 10))
  if negative then 2 ^ 63 < n else 2 ^ 63 ≤ n

/-- The argument index behind an opening brace, and the width of the escape. -/
def argumentIndex (s : Str) : Option (Nat × Nat) :=
  let (i, rest) := strtol s
  if outOfLong s || i < 0 || rest.head? ≠ some '\x7d' then none else some (i.toNat, s.length - rest.length + 3)

/-- The escapes from a position on, and the number of characters that the loop counts; `skip` characters have been
passed already. -/
def scan : Nat → Nat → Str → List Escape × Nat
  | _, _, [] => ([], 0)
  | skip + 1, pos, _ :: s => scan skip (pos + 1) s
  | 0, pos, ch :: s =>
    let goOn (skip : Nat) (escapes : List Escape) : List Escape × Nat :=
      let (later, fmtLength) := scan skip (pos + 1) s
      (escapes ++ later, fmtLength + 1)
    if ch = '%' then
      match s with
      | [] => ([], 0)
      | '%' :: _ => goOn 1 [⟨pos, 2, 0⟩]
      | '\x7b' :: t =>
        match argumentIndex t with
        | none => goOn 1 []
        | some (i, width) => goOn (width - 1) [⟨pos, width, i⟩]
      | _ :: _ => goOn 1 []
    else goOn 0 []

/-- `std::string::append`. -/
def append (maxSize : Nat) (result piece : Str) : Except FormatFault Str :=
  if maxSize < result.length + piece.length then .error .lengthError else .ok (result ++ piece)

/-- The length of the result, in the arithmetic of `size_t`. -/
def resultLength (length : List Nat) : Int → List Escape → Except FormatFault Int
  | n, [] => .ok n
  | n, e :: escapes =>
    match length[e.index]? with
    | none => .error .outOfRange
    | some valueLength => resultLength length ((n - e.width + valueLength) % 2 ^ 64) escapes

def substituteEscapes (maxSize : Nat) (fmt : Str) (value : List Str) :
    Nat → Str → List Escape → Except FormatFault Str
  | src, result, [] => if fmt.length < src then .error .outOfRange else append maxSize result (fmt.drop src)
  | src, result, e :: escapes =>
    if e.pos < src || fmt.length < e.pos then .error .outOfRange
    else
      match value[e.index]? with
      | none => .error .outOfRange
      | some v =>
        (append maxSize result ((fmt.drop src).take (e.pos - src))).bind fun result =>
          (append maxSize result v).bind fun result =>
            substituteEscapes maxSize fmt value (e.pos + e.width) result escapes

/-- `static_cast<int>`. -/
def toInt (n : Nat) : Int := (n + 2 ^ 31) % 2 ^ 32 - 2 ^ 31

/-- `fmt` and the arguments are without the zero bytes that end them; `maxSize` is `max_size()` of a `std::string`. -/
def vformat (maxSize : Nat) (fmt : Str) (args : List Str) : Except FormatFault Str :=
  let (escapes, fmtLength) := scan 0 0 fmt
  let maxIndex := escapes.foldl (fun maxIndex e => max maxIndex e.index) 0
  if args.length < maxIndex then .error .noArgument
  else
    let value := ['%'] :: args.take maxIndex
    let counted := escapes.take (toInt escapes.length).toNat
    (resultLength (value.map List.length) fmtLength counted).bind fun length =>
      if maxSize < length then .error .lengthError else substituteEscapes maxSize fmt value 0 [] counted

/-! ### Plain substitution -/

/-- The parts of a format; a `%` before another character than `%` or a number in braces stands for itself. -/
inductive Token where
  | plain (ch : Char)
  | percent
  | element (text : Str) (index : Nat)
  | empty
  | improper (ch : Char)
  | last
  deriving DecidableEq

namespace Token

def text : Token → Str
  | plain ch => [ch]
  | percent => ['%', '%']
  | element text _ => '%' :: '\x7b' :: (text ++ ['\x7d'])
  | empty => ['%', '\x7b', '\x7d']
  | improper ch => ['%', ch]
  | last => ['%']

/-- The argument of an index, and a `%` for index zero. -/
def argument (args : List Str) : Nat → Str
  | 0 => ['%']
  | i + 1 => args[i]?.getD []

/-- What takes the place of a part. -/
def value (args : List Str) : Token → Str
  | percent => ['%']
  | element _ index => argument args index
  | t => t.text

def isEscape : Token → Bool
  | percent | element _ _ | empty => true
  | _ => false

end Token

/-- The index that the text in a pair of braces gives. -/
def indexOf (text : Str) : Option Nat :=
  let (negative, digits) := signed (text.dropWhile isspace)
  let n := numeral 10 digits
  if digits.isEmpty || !digits.all (isDigit 10) || (negative && n ≠ 0) || 2 ^ 63 ≤ n then none else some n

/-- The part that begins with an opening brace behind a `%`. -/
def braced (s : Str) : Token :=
  let text := s.takeWhile (· ≠ '\x7d')
  if text.length = s.length then .improper '\x7b'
  else if text = [] then .empty
  else
    match indexOf text with
    | none => .improper '\x7b'
    | some index => .element text index

/-- The parts of a format, in order, when `skip` characters have been passed. -/
def tokens : Nat → Str → List Token
  | _, [] => []
  | skip + 1, _ :: s => tokens skip s
  | 0, ch :: s =>
    if ch = '%' then
      match s with
      | [] => [.last]
      | '%' :: _ => .percent :: tokens 1 s
      | '\x7b' :: t => braced t :: tokens ((braced t).text.length - 1) s
      | ch :: _ => .improper ch :: tokens 1 s
    else .plain ch :: tokens 0 s

/-- The format with its escapes replaced. -/
def substitute (args : List Str) (fmt : Str) : Str := (tokens 0 fmt).flatMap (Token.value args)

/-! ### The scanner

The scanner of formats finds the parts that a format has: the escapes with their places, and how many parts there
are. -/

namespace Token

def index : Token → Nat
  | element _ index => index
  | _ => 0

/-- The escapes among parts that begin at a position. -/
def place : Nat → List Token → List Escape
  | _, [] => []
  | pos, t :: ts =>
    (if t.isEscape then [⟨pos, t.text.length, t.index⟩] else []) ++ place (pos + t.text.length) ts

/-- The parts that the loop counts. -/
def units (ts : List Token) : Nat := ts.countP (· ≠ last)

theorem units_cons (t : Token) (ts : List Token) : units (t :: ts) = units ts + if t = last then 0 else 1 := by
  rw [units, List.countP_cons, units]
  by_cases hlast : t = .last
  · rw [if_pos hlast, if_neg (by simp [hlast])]
  · rw [if_neg hlast, if_pos (by simp [hlast])]

theorem length_text_pos (t : Token) : 0 < t.text.length := by
  cases t <;> exact Nat.succ_pos _

end Token

open Token

/-! ### Numbers in braces -/

private theorem dropWhile_before {p : Char → Bool} {c : Char} (hc : p c = false) (l r : Str) :
    (l ++ c :: r).dropWhile p = l.dropWhile p ++ c :: r := by
  induction l with
  | nil => exact List.dropWhile_cons_of_neg (by rw [hc]; exact Bool.false_ne_true)
  | cons x l ih =>
    rw [List.cons_append, List.dropWhile_cons, List.dropWhile_cons]
    split_ifs
    · exact ih
    · rfl

private theorem takeWhile_before {p : Char → Bool} {c : Char} (hc : p c = false) (l r : Str) :
    (l ++ c :: r).takeWhile p = l.takeWhile p := by
  induction l with
  | nil => exact List.takeWhile_cons_of_neg (by rw [hc]; exact Bool.false_ne_true)
  | cons x l ih =>
    rw [List.cons_append, List.takeWhile_cons, List.takeWhile_cons]
    split_ifs
    · rw [ih]
    · rfl

private theorem signed_cons (x : Char) (l : Str) :
    signed (x :: l) = if x = '-' then (true, l) else if x = '+' then (false, l) else (false, x :: l) := by
  by_cases hminus : x = '-'
  · rw [if_pos hminus, hminus]
    rfl
  · by_cases hplus : x = '+'
    · rw [if_neg hminus, if_pos hplus, hplus]
      rfl
    · rw [if_neg hminus, if_neg hplus, signed.eq_def]
      split
      · exact absurd (List.cons.inj ‹_›).1 hminus
      · exact absurd (List.cons.inj ‹_›).1 hplus
      · rfl

private theorem signed_before {c : Char} (hminus : c ≠ '-') (hplus : c ≠ '+') (l r : Str) :
    signed (l ++ c :: r) = ((signed l).1, (signed l).2 ++ c :: r) := by
  cases l with
  | nil =>
    rw [List.nil_append, signed_cons, if_neg hminus, if_neg hplus]
    rfl
  | cons x l =>
    rw [List.cons_append, signed_cons, signed_cons]
    split_ifs <;> rfl

private theorem signed_suffix (s : Str) : (signed s).2 <:+ s := by
  rw [signed.eq_def]
  split
  · exact List.suffix_cons ..
  · exact List.suffix_cons ..
  · exact List.suffix_refl _

/-- What `strtol` leaves is the end of the text. -/
private theorem strtol_suffix (s : Str) : (strtol s).2 <:+ s := by
  have hnumber := (List.dropWhile_suffix (isDigit 10)).trans
    ((signed_suffix (s.dropWhile isspace)).trans (List.dropWhile_suffix isspace))
  rw [strtol]
  generalize signed (s.dropWhile isspace) = result at hnumber ⊢
  dsimp only
  split
  · exact List.suffix_refl _
  · exact hnumber

/-- What `strtol` reads of a text in front of a closing brace: its digits, if it begins with a number. -/
private theorem strtol_before {text u : Str} {negative : Bool} (h : signed (text.dropWhile isspace) = (negative, u))
    (r : Str) :
    strtol (text ++ '\x7d' :: r) =
        (if (u.takeWhile (isDigit 10)).isEmpty then (0, text ++ '\x7d' :: r)
        else (max (-2 ^ 63) (min (2 ^ 63 - 1) (if negative then -(numeral 10 (u.takeWhile (isDigit 10)) : Int)
          else numeral 10 (u.takeWhile (isDigit 10)))), u.dropWhile (isDigit 10) ++ '\x7d' :: r)) ∧
      outOfLong (text ++ '\x7d' :: r) =
        if negative then decide (2 ^ 63 < numeral 10 (u.takeWhile (isDigit 10)))
        else decide (2 ^ 63 ≤ numeral 10 (u.takeWhile (isDigit 10))) := by
  have hspace : isspace '\x7d' = false := by decide
  have hdigit : isDigit 10 '\x7d' = false := by decide
  have hsigned : signed ((text ++ '\x7d' :: r).dropWhile isspace) = (negative, u ++ '\x7d' :: r) := by
    rw [dropWhile_before hspace, signed_before (by decide) (by decide), h]
  rw [strtol, outOfLong, hsigned]
  dsimp only
  rw [takeWhile_before hdigit, dropWhile_before hdigit]
  constructor
  · rfl
  · cases negative <;> rfl

private theorem indexOf_eq {text u : Str} {negative : Bool} (h : signed (text.dropWhile isspace) = (negative, u)) :
    indexOf text = if u.isEmpty || !u.all (isDigit 10) || (negative && numeral 10 u ≠ 0) ||
      decide (2 ^ 63 ≤ numeral 10 u) then none else some (numeral 10 u) := by
  rw [indexOf, h]

/-- A text has a closing brace somewhere, or none. -/
private theorem brace_cases (t : Str) : '\x7d' ∉ t ∨ ∃ text r, '\x7d' ∉ text ∧ t = text ++ '\x7d' :: r := by
  by_cases hmem : '\x7d' ∈ t
  · obtain ⟨text, r, ht, hnot⟩ := List.eq_append_cons_of_mem hmem
    exact Or.inr ⟨text, r, hnot, ht⟩
  · exact Or.inl hmem

private theorem takeWhile_of_not_mem {text : Str} (h : '\x7d' ∉ text) : text.takeWhile (· ≠ '\x7d') = text := by
  refine List.takeWhile_eq_self_iff.mpr fun ch hch => decide_eq_true ?_
  rintro rfl
  exact h hch

private theorem braced_open {t : Str} (h : '\x7d' ∉ t) : braced t = .improper '\x7b' := by
  rw [braced, takeWhile_of_not_mem h, if_pos rfl]

private theorem braced_closed {text : Str} (h : '\x7d' ∉ text) (r : Str) :
    braced (text ++ '\x7d' :: r) = if text = [] then .empty else
      match indexOf text with
      | none => .improper '\x7b'
      | some index => .element text index := by
  have htext : (text ++ '\x7d' :: r).takeWhile (· ≠ '\x7d') = text := by
    rw [takeWhile_before (by decide), takeWhile_of_not_mem h]
  rw [braced, htext]
  exact if_neg (by rw [List.length_append, List.length_cons]; omega)

/-- The number that the scanner takes is the one that the grammar takes. -/
private theorem taken_iff (negative : Bool) (n : Nat) (hn : ¬ (negative && n ≠ 0 || decide (2 ^ 63 ≤ n)) = true) :
    (if negative then decide (2 ^ 63 < n) else decide (2 ^ 63 ≤ n)) = false ∧
      max (-2 ^ 63) (min (2 ^ 63 - 1) (if negative then -(n : Int) else n)) = n := by
  cases negative with
  | true =>
    have hzero : n = 0 := by
      simp at hn
      exact hn.1
    subst hzero
    exact ⟨rfl, rfl⟩
  | false =>
    have hlt : n < 2 ^ 63 := by simpa using hn
    refine ⟨decide_eq_false (Nat.not_le.mpr hlt), ?_⟩
    simp only [Bool.false_eq_true, if_false]
    omega

private theorem refused_of (negative : Bool) (n : Nat) (hn : (negative && n ≠ 0 || decide (2 ^ 63 ≤ n)) = true) :
    (if negative then decide (2 ^ 63 < n) else decide (2 ^ 63 ≤ n)) = true ∨
      max (-2 ^ 63) (min (2 ^ 63 - 1) (if negative then -(n : Int) else n)) < 0 := by
  cases negative with
  | true =>
    have hpos : n ≠ 0 := by
      rintro rfl
      simp at hn
    right
    simp only [if_true]
    omega
  | false =>
    have hle : 2 ^ 63 ≤ n := by simpa using hn
    exact Or.inl (decide_eq_true hle)

/-- The scanner and the grammar agree about what a number in braces is. -/
theorem argumentIndex_eq (t : Str) : argumentIndex t =
    if (braced t).isEscape then some ((braced t).index, (braced t).text.length) else none := by
  rcases brace_cases t with hopen | ⟨text, r, hnot, rfl⟩
  · have hrest : (strtol t).2.head? ≠ some '\x7d' := by
      intro hhead
      obtain ⟨u, hu⟩ := List.head?_eq_some_iff.mp hhead
      exact hopen ((strtol_suffix t).subset (hu ▸ List.mem_cons_self))
    rw [braced_open hopen, argumentIndex]
    generalize strtol t = result at hrest ⊢
    dsimp only
    rw [if_pos (by simp [hrest])]
    rfl
  · obtain ⟨negative, u, hsigned⟩ : ∃ negative u, signed (text.dropWhile isspace) = (negative, u) := ⟨_, _, rfl⟩
    obtain ⟨hstrtol, hrange⟩ := strtol_before hsigned r
    have hindex := indexOf_eq hsigned
    have hsuffix : u <:+ text := by
      have hnumber := signed_suffix (text.dropWhile isspace)
      rw [hsigned] at hnumber
      exact hnumber.trans (List.dropWhile_suffix isspace)
    rw [argumentIndex, hstrtol, hrange, braced_closed hnot]
    have hhead (v : Str) (hv : v <:+ text) (hne : v ≠ []) :
        decide ((v ++ '\x7d' :: r).head? ≠ some '\x7d') = true := by
      obtain ⟨x, v, rfl⟩ := List.exists_cons_of_ne_nil hne
      refine decide_eq_true fun heq => ?_
      obtain rfl : x = '\x7d' := Option.some.inj heq
      exact hnot (hv.subset List.mem_cons_self)
    by_cases hdigits : (u.takeWhile (isDigit 10)).isEmpty = true
    · rw [if_pos hdigits]
      dsimp only
      have hnone : u.takeWhile (isDigit 10) = [] := List.isEmpty_iff.mp hdigits
      by_cases htext : text = []
      · subst htext
        have hzero : (if negative then decide (2 ^ 63 < numeral 10 []) else decide (2 ^ 63 ≤ numeral 10 [])) =
            false := by
          cases negative <;> rfl
        rw [hnone, hzero, if_pos rfl, List.nil_append, Nat.sub_self]
        rfl
      · have hnotAll : (u.isEmpty || !u.all (isDigit 10)) = true := by
          cases u with
          | nil => rfl
          | cons x u =>
            have hx : isDigit 10 x = false := by
              rw [List.takeWhile_cons] at hnone
              split at hnone
              · cases hnone
              · exact Bool.eq_false_iff.mpr ‹_›
            rw [List.all_cons, hx]
            rfl
        rw [hnotAll, Bool.true_or, Bool.true_or, if_pos rfl] at hindex
        rw [if_neg htext, hindex, hhead text (List.suffix_refl _) htext, Bool.or_true, if_pos rfl]
        rfl
    · rw [if_neg hdigits]
      dsimp only
      have hne : u ≠ [] := by
        rintro rfl
        exact hdigits rfl
      have htext : text ≠ [] := by
        rintro rfl
        exact hne (List.suffix_nil.mp hsuffix)
      rw [if_neg htext]
      have hempty : u.isEmpty = false := List.isEmpty_eq_false_iff.mpr hne
      by_cases hall : u.all (isDigit 10) = true
      · have hwhole : u.takeWhile (isDigit 10) = u := List.takeWhile_eq_self_iff.mpr (List.all_eq_true.mp hall)
        have hend : u.dropWhile (isDigit 10) = [] := List.dropWhile_eq_nil_iff.mpr (List.all_eq_true.mp hall)
        rw [hwhole, hend, List.nil_append]
        rw [hempty, hall, Bool.not_true, Bool.false_or, Bool.false_or] at hindex
        by_cases hn : (negative && numeral 10 u ≠ 0 || decide (2 ^ 63 ≤ numeral 10 u)) = true
        · rw [if_pos hn] at hindex
          rw [hindex]
          rcases refused_of negative _ hn with hout | hneg
          · rw [hout, Bool.true_or, Bool.true_or, if_pos rfl]
            rfl
          · rw [decide_eq_true hneg, Bool.or_true, Bool.true_or, if_pos rfl]
            rfl
        · rw [if_neg hn] at hindex
          obtain ⟨hin, hvalue⟩ := taken_iff negative _ hn
          rw [hindex, hin, hvalue]
          have hnonneg : decide (((numeral 10 u : Nat) : Int) < 0) = false := decide_eq_false (by omega)
          rw [hnonneg, List.head?_cons, if_neg (by simp), Int.toNat_natCast, Token.isEscape, if_pos rfl]
          refine congrArg some (Prod.ext rfl ?_)
          simp [Token.text]
      · have hrest : u.dropWhile (isDigit 10) ≠ [] :=
          fun hnil => hall (List.all_eq_true.mpr (List.dropWhile_eq_nil_iff.mp hnil))
        have hnotAll : (u.isEmpty || !u.all (isDigit 10)) = true := by
          rw [Bool.eq_false_iff.mpr hall, Bool.not_false, Bool.or_true]
        rw [hnotAll, Bool.true_or, Bool.true_or, if_pos rfl] at hindex
        rw [hindex, hhead _ ((List.dropWhile_suffix _).trans hsuffix) hrest, Bool.or_true, if_pos rfl]
        rfl

/-! ### The scanner -/

theorem tokens_skip (skip : Nat) (s : Str) : tokens skip s = tokens 0 (s.drop skip) := by
  induction s generalizing skip with
  | nil => rw [List.drop_nil, tokens, tokens]
  | cons ch s ih =>
    cases skip with
    | zero => rfl
    | succ skip => rw [tokens, ih, List.drop_succ_cons]

theorem scan_skip (skip pos : Nat) (s : Str) : scan skip pos s = scan 0 (pos + skip) (s.drop skip) := by
  induction s generalizing skip pos with
  | nil => rw [List.drop_nil, scan, scan]
  | cons ch s ih =>
    cases skip with
    | zero => rfl
    | succ skip => rw [scan, ih, List.drop_succ_cons, Nat.add_assoc, Nat.add_comm 1 skip]

private theorem text_braced (t : Str) : ∃ rest, '%' :: '\x7b' :: t = (braced t).text ++ rest := by
  rcases brace_cases t with hopen | ⟨text, r, hnot, rfl⟩
  · rw [braced_open hopen]
    exact ⟨t, rfl⟩
  · rw [braced_closed hnot]
    split_ifs with htext
    · subst htext
      exact ⟨r, rfl⟩
    · split
      · exact ⟨_, rfl⟩
      · exact ⟨r, by simp [Token.text]⟩

private theorem braced_cases (t : Str) : braced t = .improper '\x7b' ∨
    (braced t).isEscape = true ∧ braced t ≠ .last ∧ (braced t).text ≠ [] := by
  rcases brace_cases t with hopen | ⟨text, r, hnot, rfl⟩
  · exact Or.inl (braced_open hopen)
  · rw [braced_closed hnot]
    split_ifs
    · exact Or.inr ⟨rfl, nofun, nofun⟩
    · split
      · exact Or.inl rfl
      · exact Or.inr ⟨rfl, nofun, nofun⟩

private theorem scan_plain {ch : Char} (hch : ch ≠ '%') (pos : Nat) (s : Str) :
    scan 0 pos (ch :: s) = ((scan 0 (pos + 1) s).1, (scan 0 (pos + 1) s).2 + 1) := by
  rw [scan.eq_def]
  dsimp only
  rw [if_neg hch]
  rfl

private theorem scan_percent (pos : Nat) (s : Str) : scan 0 pos ('%' :: '%' :: s) =
    (⟨pos, 2, 0⟩ :: (scan 0 (pos + 2) s).1, (scan 0 (pos + 2) s).2 + 1) := by
  rw [scan.eq_def]
  dsimp only
  rw [if_pos rfl]
  rfl

private theorem scan_braced (pos : Nat) (t : Str) : scan 0 pos ('%' :: '\x7b' :: t) =
    match argumentIndex t with
    | none => ((scan 0 (pos + 2) t).1, (scan 0 (pos + 2) t).2 + 1)
    | some (i, width) => (⟨pos, width, i⟩ :: (scan (width - 1) (pos + 1) ('\x7b' :: t)).1,
        (scan (width - 1) (pos + 1) ('\x7b' :: t)).2 + 1) := by
  rw [scan.eq_def]
  dsimp only
  rw [if_pos rfl]
  split
  · cases ‹ '\x7b' :: t = []›
  · cases (List.cons.inj ‹_›).1
  · obtain ⟨-, rfl⟩ := List.cons.inj ‹_›
    cases argumentIndex t with
    | none => rfl
    | some result => rfl
  · exact absurd (List.cons.inj ‹_›).1.symm ‹_›

private theorem scan_improper {ch : Char} (hpercent : ch ≠ '%') (hbrace : ch ≠ '\x7b') (pos : Nat) (s : Str) :
    scan 0 pos ('%' :: ch :: s) = ((scan 0 (pos + 2) s).1, (scan 0 (pos + 2) s).2 + 1) := by
  rw [scan.eq_def]
  dsimp only
  rw [if_pos rfl]
  split
  · cases ‹ch :: s = []›
  · exact absurd (List.cons.inj ‹_›).1 hpercent
  · exact absurd (List.cons.inj ‹_›).1 hbrace
  · rfl

private theorem tokens_improper {ch : Char} (hpercent : ch ≠ '%') (hbrace : ch ≠ '\x7b') (s : Str) :
    tokens 0 ('%' :: ch :: s) = .improper ch :: tokens 0 s := by
  rw [tokens.eq_def]
  dsimp only
  rw [if_pos rfl]
  split
  · cases ‹ch :: s = []›
  · exact absurd (List.cons.inj ‹_›).1 hpercent
  · exact absurd (List.cons.inj ‹_›).1 hbrace
  · obtain ⟨rfl, rfl⟩ := List.cons.inj ‹_›
    rfl

/-- The loop takes one part of the format at a time. -/
theorem first_part {s : Str} (h : s ≠ []) : ∃ t rest, s = t.text ++ rest ∧ tokens 0 s = t :: tokens 0 rest ∧
    ∀ pos, scan 0 pos s = ((if t.isEscape then [⟨pos, t.text.length, t.index⟩] else []) ++
      (scan 0 (pos + t.text.length) rest).1, (scan 0 (pos + t.text.length) rest).2 + if t = .last then 0 else 1) := by
  obtain ⟨ch, s, rfl⟩ := List.exists_cons_of_ne_nil h
  by_cases hch : ch = '%'
  · subst hch
    cases s with
    | nil => exact ⟨.last, [], rfl, rfl, fun _ => rfl⟩
    | cons ch s =>
      by_cases hpercent : ch = '%'
      · subst hpercent
        exact ⟨.percent, s, rfl, rfl, fun pos => scan_percent pos s⟩
      by_cases hbrace : ch = '\x7b'
      · subst hbrace
        obtain ⟨rest, hrest⟩ := text_braced s
        have hdrop : ('\x7b' :: s).drop ((braced s).text.length - 1) = rest := by
          cases htext : (braced s).text with
          | nil =>
            rcases braced_cases s with himproper | ⟨-, -, hne⟩
            · rw [himproper] at htext
              cases htext
            · exact absurd htext hne
          | cons ch text =>
            rw [htext, List.cons_append] at hrest
            rw [(List.cons.inj hrest).2, List.length_cons, Nat.add_sub_cancel, List.drop_left]
        refine ⟨braced s, rest, hrest, ?_, fun pos => ?_⟩
        · have htokens : tokens 0 ('%' :: '\x7b' :: s) =
              braced s :: tokens ((braced s).text.length - 1) ('\x7b' :: s) := rfl
          rw [htokens, tokens_skip, hdrop]
        · rw [scan_braced, argumentIndex_eq]
          rcases braced_cases s with himproper | ⟨hescape, hne, htext⟩
          · rw [himproper] at hrest ⊢
            obtain rfl : s = rest := (List.cons.inj (List.cons.inj hrest).2).2
            rfl
          · have hpos : 0 < (braced s).text.length := List.length_pos_of_ne_nil htext
            have hwidth : pos + 1 + ((braced s).text.length - 1) = pos + (braced s).text.length := by omega
            rw [hescape, if_pos rfl, if_pos rfl, if_neg hne]
            dsimp only
            rw [scan_skip, hdrop, hwidth, List.singleton_append]
      · exact ⟨.improper ch, s, rfl, tokens_improper hpercent hbrace s, fun pos => scan_improper hpercent hbrace pos s⟩
  · refine ⟨.plain ch, s, rfl, ?_, fun pos => scan_plain hch pos s⟩
    rw [tokens.eq_def]
    dsimp only
    rw [if_neg hch]

/-- The parts of a format make it up. -/
theorem flatMap_text_tokens (s : Str) : (tokens 0 s).flatMap text = s := by
  induction hn : s.length using Nat.strong_induction_on generalizing s with
  | _ n ih =>
    by_cases hs : s = []
    · rw [hs]
      rfl
    · obtain ⟨t, rest, hrest, htokens, -⟩ := first_part hs
      have hlt : rest.length < n := by
        have hpos := t.length_text_pos
        rw [← hn, hrest, List.length_append]
        omega
      rw [htokens, List.flatMap_cons, ih rest.length hlt rest rfl]
      exact hrest.symm

/-- The scanner finds the places of the escapes. -/
theorem scan_eq (pos : Nat) (s : Str) : scan 0 pos s = (place pos (tokens 0 s), units (tokens 0 s)) := by
  induction hn : s.length using Nat.strong_induction_on generalizing pos s with
  | _ n ih =>
    by_cases hs : s = []
    · rw [hs]
      rfl
    · obtain ⟨t, rest, hrest, htokens, hscan⟩ := first_part hs
      have hlt : rest.length < n := by
        have hpos := t.length_text_pos
        rw [← hn, hrest, List.length_append]
        omega
      rw [hscan, htokens, ih rest.length hlt (pos + t.text.length) rest rfl, place, units_cons]

end Synergy.Text
