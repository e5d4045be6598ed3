import Synergy.Base.Numerals

/-! Fingerprints, the lines that they are stored in, and the store of those that are trusted. -/
namespace Synergy

/-- `QCryptographicHash::Algorithm`; the default is `md4`, which stands for none. -/
inductive HashAlgorithm where
  | md4
  | sha1
  | sha256
  | other (value : Nat)
  deriving DecidableEq

structure Fingerprint where
  type : HashAlgorithm
  data : List UInt8
  deriving DecidableEq

/-! ### What Qt does with digits and lines -/

def isHex (c : Char) : Bool := isDigit 16 c

/-- `QString::size`: a character outside the basic plane counts twice. -/
def qsize (s : Str) : Nat := (s.map fun c => if c.toNat < 2 ^ 16 then 1 else 2).sum

/-- `QString::toLatin1`. -/
def toLatin1 (s : Str) : Str := s.map fun c => if c.toNat < 2 ^ 8 then c else '?'

/-- `QString::toLower`; no other character becomes one of those that are looked for. -/
def toLower (s : Str) : Str := s.map Char.toLower

/-- `QByteArray::toHex`. -/
def toHex (data : List UInt8) : Str :=
  data.flatMap fun b => [Nat.digitChar (b.toNat / 16), Nat.digitChar (b.toNat % 16)]

/-- The bytes of digits that are given from the last one on, two digits a byte; the first digit may be alone. -/
def bytesFromEnd : List Nat → List UInt8
  | [] => []
  | [lo] => [UInt8.ofNat lo]
  | lo :: hi :: digits => bytesFromEnd digits ++ [UInt8.ofNat (lo + 16 * hi)]

/-- `QByteArray::fromHex` skips what is no digit. -/
def fromHex (s : Str) : List UInt8 := bytesFromEnd ((s.filter isHex).map digitValue).reverse

/-- What `readLine` of a `QTextStream` gives until the end. -/
def streamLines (text : Str) : List Str :=
  let pieces := text.splitOn '\n'
  (if pieces.getLast? = some [] then pieces.dropLast else pieces).map fun line =>
    if line.getLast? = some '\r' then line.dropLast else line

namespace Fingerprint

def isValid (f : Fingerprint) : Bool :=
  match f.type with
  | .sha1 => f.data.length = 20
  | .sha256 => f.data.length = 32
  | _ => false

def typeToString : HashAlgorithm → Str
  | .sha1 => "sha1".toList
  | .sha256 => "sha256".toList
  | _ => "invalid".toList

def typeFromString (type : Str) : HashAlgorithm :=
  let t := toLower type
  if t = "sha1".toList then .sha1 else if t = "sha256".toList then .sha256 else .md4

def toDbLine (f : Fingerprint) : Str :=
  if f.isValid then "v2:".toList ++ typeToString f.type ++ ':' :: toLower (toHex f.data) else []

def fromDbLine (line : Str) : Fingerprint :=
  if line.isEmpty then ⟨.md4, []⟩
  else if "v2:".toList.isPrefixOf line then
    match line.splitOn ':' with
    | [_, type, digits] => ⟨typeFromString type, fromHex (toLatin1 (toLower digits))⟩
    | _ => ⟨.md4, []⟩
  else if qsize line ≠ 59 || line.count ':' ≠ 19 then ⟨.md4, []⟩
  else ⟨.sha1, fromHex (toLatin1 (line.filter (· ≠ ':')))⟩

end Fingerprint

/-- `m_fingerprints` of a database. -/
abbrev Fingerprints := List Fingerprint

namespace Fingerprints
open Fingerprint

/-- What a line adds. -/
def entry (line : Str) : Option Fingerprint :=
  if line.isEmpty then none else if (fromDbLine line).isValid then some (fromDbLine line) else none

def readStream (fingerprints : Fingerprints) (text : Str) : Fingerprints :=
  if text.isEmpty then fingerprints else fingerprints ++ (streamLines text).filterMap entry

def writeStream (fingerprints : Fingerprints) : Str := fingerprints.flatMap fun f => f.toDbLine ++ ['\n']

def isTrusted (fingerprints : Fingerprints) (f : Fingerprint) : Bool := fingerprints.contains f

def addTrusted (fingerprints : Fingerprints) (f : Fingerprint) : Fingerprints :=
  if isTrusted fingerprints f then fingerprints else fingerprints ++ [f]

end Fingerprints

/-! ### What lines denote -/

/-- The digest that pairs of digits denote. -/
def digest : Str → List UInt8
  | hi :: lo :: digits => UInt8.ofNat (16 * digitValue hi + digitValue lo) :: digest digits
  | _ => []

/-- The digits that a digest of a type has. -/
def digestDigits : HashAlgorithm → Option Nat
  | .sha1 => some 40
  | .sha256 => some 64
  | _ => none

/-- The lines that denote a fingerprint: the digits of a digest behind its type, or twenty groups of two digits. -/
inductive Denotes : Str → Fingerprint → Prop
  | digits (type digits : Str) (algorithm : HashAlgorithm) (hdigits : ∀ c ∈ digits, isHex c = true)
      (htype : digestDigits algorithm = some digits.length)
      (hname : toLower type = Fingerprint.typeToString algorithm) :
      Denotes ("v2:".toList ++ type ++ ':' :: digits) ⟨algorithm, digest digits⟩
  | groups (groups : List Str) (hlength : groups.length = 20)
      (hgroups : ∀ g ∈ groups, g.length = 2 ∧ ∀ c ∈ g, isHex c = true) :
      Denotes ([':'].intercalate groups) ⟨.sha1, digest groups.flatten⟩

/-- The entries of lines: those of the lines that denote one. -/
inductive LinesRead : List Str → List Fingerprint → Prop
  | nil : LinesRead [] []
  | entry {line : Str} {f : Fingerprint} {lines : List Str} {fs : List Fingerprint} (hline : Denotes line f)
      (hlines : LinesRead lines fs) : LinesRead (line :: lines) (f :: fs)
  | ignored {line : Str} {lines : List Str} {fs : List Fingerprint} (hline : ∀ f, ¬ Denotes line f)
      (hlines : LinesRead lines fs) : LinesRead (line :: lines) fs

/-- A line that denotes no fingerprint but has the digits of one: behind its type there are as many as its digest has, or
one less, and something else may stand among them; or there are so many in a line with the size and the colons of the
groups. -/
def Sloppy (line : Str) : Prop :=
  (∃ type text n, line.splitOn ':' = ["v2".toList, type, text] ∧
    digestDigits (Fingerprint.typeFromString type) = some n ∧
    (text.countP isHex = n ∨ text.countP isHex + 1 = n) ∧ ¬ (text.length = n ∧ ∀ c ∈ text, isHex c = true)) ∨
  ((line.splitOn ':').head? ≠ some "v2".toList ∧ qsize line = 59 ∧ line.count ':' = 19 ∧ 39 ≤ line.countP isHex ∧
    ¬ ∀ g ∈ line.splitOn ':', g.length = 2 ∧ ∀ c ∈ g, isHex c = true)

end Synergy
