import Mathlib.Data.Nat.Bits
import Mathlib.Tactic.SplitIfs
import Synergy.Base.Numerals
import Synergy.Base.Types
import Synergy.Lib.Fallible

/-! Reading a configuration line by line, and the values that stand on a line. Only the
current line number is kept of an exception's position, as in its text. -/
namespace Synergy

structure ServerConfigReadException where
  lineNumber : Nat
  error : String
  deriving DecidableEq

/-- A line as it is handed out: never empty, and printable but for blanks. -/
structure ConfigLine where
  number : Nat
  text : Str
  nonempty : text ≠ []
  printable : ∀ c ∈ text, (isgraph c || isBlank c) = true

/-- The lines still to be read, where a line of other characters throws, and the number
of the line after the last one. -/
structure ConfigReadContext where
  lines : List (Except ServerConfigReadException ConfigLine)
  lastLine : Nat

namespace ConfigReadContext

/-- `erase(0, find_first_not_of(set))`, which leaves a text of nothing else alone. -/
def eraseLeading (set : Char → Bool) (s : Str) : Str := if s.all set then s else s.dropWhile set

/-- `erase(find_last_not_of(set) + 1)`, which leaves a text of nothing else alone. -/
def eraseTrailing (set : Char → Bool) (s : Str) : Str :=
  if s.all set then s else (s.reverse.dropWhile set).reverse

/-- A line of the file without its leading blanks, its comment and its trailing white space. -/
def stripped (raw : Str) : Str :=
  eraseTrailing (fun c => isBlank c || c == '\r') ((eraseLeading isBlank raw).takeWhile (· ≠ '#'))

/-- `sprintf("%#2x")` of a signed character. -/
def hexText (c : Char) : String :=
  if c.toNat = 0 then " 0"
  else "0x" ++ String.ofList (Nat.toDigits 16 (if c.toNat < 128 then c.toNat else 2 ^ 32 - 256 + c.toNat))

/-- A stripped line that is not empty, or the exception over its first invalid character. -/
def checked (number : Nat) (text : Str) (h : text ≠ []) : Except ServerConfigReadException ConfigLine :=
  if hp : (text.all fun c => isgraph c || isBlank c) = true then .ok ⟨number, text, h, List.all_eq_true.mp hp⟩
  else
    .error ⟨number, "invalid character " ++
      ((text.find? fun c => !(isgraph c || isBlank c)).elim "" hexText)⟩

/-- The lines that `readLine` hands out one after another, from a line number on. -/
def linesFrom (number : Nat) : List Str → List (Except ServerConfigReadException ConfigLine)
  | [] => []
  | raw :: more =>
    if h : stripped raw = [] then linesFrom (number + 1) more
    else checked number (stripped raw) h :: linesFrom (number + 1) more

/-- `std::getline`, as long as it succeeds. -/
def getlines : Str → List Str
  | [] => []
  | c :: s =>
    if c = '\n' then [] :: getlines s
    else
      match getlines s with
      | [] => [[c]]
      | line :: more => (c :: line) :: more

/-- A context at the beginning of a stream. -/
def ofStream (stream : Str) (firstLine : Nat) : ConfigReadContext :=
  ⟨linesFrom firstLine (getlines stream), firstLine + (getlines stream).length⟩

/-- A section is read line by line until its end: each turn takes a state and a line to the next
state, and what it throws is thrown with the number of the line. -/
def eachLine {σ : Type} (unexpectedEnd : String) (turn : σ → Str → Except String σ) (lastLine : Nat) :
    σ → List (Except ServerConfigReadException ConfigLine) →
    Except ServerConfigReadException (σ × ConfigReadContext)
  | _, [] => .error ⟨lastLine, unexpectedEnd⟩
  | _, .error e :: _ => .error e
  | st, .ok line :: more =>
    if line.text = "end".toList then .ok (st, ⟨more, lastLine⟩)
    else
      match turn st line.text with
      | .error error => .error ⟨line.number, error⟩
      | .ok st => eachLine unexpectedEnd turn lastLine st more

/-- The lines up to the end of a section. -/
def sectionLines : List (Except ServerConfigReadException ConfigLine) → List Str
  | [] => []
  | .error _ :: _ => []
  | .ok line :: more => if line.text = "end".toList then [] else line.text :: sectionLines more

/-- What every turn does, a section that is read to its end does with all of its lines. -/
theorem eachLine_run {σ : Type} {unexpectedEnd : String} {turn : σ → Str → Except String σ} {lastLine : Nat}
    {R : σ → List Str → σ → Prop} (hnil : ∀ st, R st [] st)
    (hcons : ∀ st line st' lines st'', turn st line = .ok st' → R st' lines st'' → R st (line :: lines) st'')
    {st st' : σ} {lines : List (Except ServerConfigReadException ConfigLine)} {s : ConfigReadContext}
    (h : eachLine unexpectedEnd turn lastLine st lines = .ok (st', s)) : R st (sectionLines lines) st' := by
  induction lines generalizing st with
  | nil => cases h
  | cons l lines ih =>
    cases l with
    | error e => cases h
    | ok line =>
      rw [eachLine] at h
      rw [sectionLines]
      by_cases hend : line.text = "end".toList
      · rw [if_pos hend] at h ⊢
        obtain ⟨rfl, -⟩ := Prod.mk.inj (Except.ok.inj h)
        exact hnil st
      · rw [if_neg hend] at h ⊢
        cases hturn : turn st line.text with
        | error error => simp [hturn] at h
        | ok next =>
          rw [hturn] at h
          exact hcons st line.text next _ st' hturn (ih h)

/-- The turns that a section takes: the state before each, and the line that it accepts. -/
def turns {σ : Type} (turn : σ → Str → Except String σ) :
    σ → List (Except ServerConfigReadException ConfigLine) → List (σ × Str)
  | _, [] => []
  | _, .error _ :: _ => []
  | st, .ok line :: more =>
    if line.text = "end".toList then []
    else
      match turn st line.text with
      | .error _ => []
      | .ok next => (st, line.text) :: turns turn next more

/-- The line of a turn is accepted in the state before it. -/
theorem turns_accepted {σ : Type} {turn : σ → Str → Except String σ} {st : σ}
    {lines : List (Except ServerConfigReadException ConfigLine)} {p : σ × Str} (hp : p ∈ turns turn st lines) :
    ∃ next, turn p.1 p.2 = .ok next := by
  induction lines generalizing st with
  | nil => cases hp
  | cons l lines ih =>
    cases l with
    | error e => cases hp
    | ok line =>
      rw [turns] at hp
      split_ifs at hp
      · cases hp
      · cases hturn : turn st line.text with
        | error error => simp [hturn] at hp
        | ok next =>
          rw [hturn] at hp
          rcases List.mem_cons.mp hp with rfl | hp
          · exact ⟨next, hturn⟩
          · exact ih hp

def parseBoolean (arg : Str) : Except String OptionValue :=
  if CaselessCmp.equal arg "true".toList then .ok 1
  else if CaselessCmp.equal arg "false".toList then .ok 0
  else .error ("invalid boolean argument \"" ++ String.ofList arg ++ "\"")

def parseInt (arg : Str) : Except String OptionValue :=
  match strtol arg with
  | (tmp, []) =>
    if -2 ^ 31 ≤ tmp ∧ tmp < 2 ^ 31 then .ok tmp
    else .error ("integer argument \"" ++ String.ofList arg ++ "\" out of range")
  | _ => .error ("invalid integer argument \"" ++ String.ofList arg ++ "\"")

/-- The entry whose name is the argument, case aside. -/
def named {α : Type} (table : List (String × α)) (arg : Str) : Except String α :=
  match table.find? fun e => CaselessCmp.equal arg e.1.toList with
  | some e => .ok e.2
  | none => .error ("invalid argument \"" ++ String.ofList arg ++ "\"")

def parseModifierKey (arg : Str) : Except String OptionValue :=
  (named [("shift", kKeyModifierIDShift), ("ctrl", kKeyModifierIDControl), ("alt", kKeyModifierIDAlt),
    ("altgr", kKeyModifierIDAltGr), ("meta", kKeyModifierIDMeta), ("super", kKeyModifierIDSuper),
    ("none", kKeyModifierIDNull)] arg).map Int.ofNat

def parseCorner (arg : Str) : Except String Nat :=
  named [("left", topLeftCornerMask ||| bottomLeftCornerMask), ("right", topRightCornerMask ||| bottomRightCornerMask),
    ("top", topLeftCornerMask ||| topRightCornerMask), ("bottom", bottomLeftCornerMask ||| bottomRightCornerMask),
    ("top-left", topLeftCornerMask), ("top-right", topRightCornerMask), ("bottom-left", bottomLeftCornerMask),
    ("bottom-right", bottomRightCornerMask), ("none", noCornerMask), ("all", allCornersMask)] arg

/-- What the corner operators after the first token make of the corners so far. -/
def cornersAfter (corners : Nat) (args : Str) : Except String Nat :=
  match _hargs : args.dropWhile isBlank with
  | [] => .ok corners
  | op :: rest =>
    if op ≠ '-' ∧ op ≠ '+' then .error ("invalid corner operator \"" ++ String.ofList [op] ++ "\"")
    else if (rest.dropWhile isBlank).isEmpty then .error "missing corner argument"
    else
      let token := (rest.dropWhile isBlank).takeWhile fun c => !isBlank c
      match parseCorner token with
      | .error error => .error error
      | .ok mask =>
        cornersAfter (if op = '+' then corners ||| mask else corners.ldiff mask)
          ((rest.dropWhile isBlank).dropWhile fun c => !isBlank c)
termination_by args.length
decreasing_by
  have hrest : rest.length < args.length := by
    have h := (List.dropWhile_sublist isBlank (l := args)).length_le
    rw [_hargs, List.length_cons] at h
    omega
  have hskip := (List.dropWhile_sublist isBlank (l := rest)).length_le
  have htoken := (List.dropWhile_sublist (fun c => !isBlank c) (l := rest.dropWhile isBlank)).length_le
  omega

def parseCorners (args : Str) : Except String OptionValue :=
  if (args.dropWhile isBlank).isEmpty then .error "missing corner argument"
  else
    match parseCorner ((args.dropWhile isBlank).takeWhile fun c => !isBlank c) with
    | .error error => .error error
    | .ok mask => (cornersAfter mask ((args.dropWhile isBlank).dropWhile fun c => !isBlank c)).map Int.ofNat

example : getlines "a\n\nbc".toList = ["a".toList, [], "bc".toList] := by decide

end ConfigReadContext
end Synergy
