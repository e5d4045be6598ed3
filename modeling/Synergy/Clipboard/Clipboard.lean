import Mathlib.Logic.Function.Basic
import Synergy.Io.StreamBuffer
import Synergy.Lib.ByteOrder

/-! The clipboard object and its marshalled form. -/
namespace Synergy
open Lib

inductive ClipboardFormat
  | text
  | html
  | bitmap
  deriving DecidableEq, Repr

namespace ClipboardFormat

/-- The formats in the order of their numbers. -/
def all : List ClipboardFormat := [text, html, bitmap]

def toNat : ClipboardFormat → Nat
  | text => 0
  | html => 1
  | bitmap => 2

def ofInt (n : Int) : Option ClipboardFormat :=
  if n = 0 then some text else if n = 1 then some html else if n = 2 then some bitmap else none

end ClipboardFormat

structure Clipboard where
  isOpen : Bool := false
  owner : Bool := false
  time : Nat := 0
  timeOwned : Nat := 0
  data : ClipboardFormat → Option Bytes := fun _ => none

namespace Clipboard

def opened (c : Clipboard) (time : Nat) : Clipboard :=
  if c.isOpen then c else { c with isOpen := true, time := time }

def close (c : Clipboard) : Clipboard := { c with isOpen := false }

def empty (c : Clipboard) : Clipboard :=
  if !c.isOpen then c else { c with data := fun _ => none, timeOwned := c.time, owner := true }

/-- Stores data under a format number; nothing when the number indexes outside the table. -/
def add (c : Clipboard) (format : Int) (data : Bytes) : Option Clipboard :=
  if !c.isOpen || !c.owner then some c
  else (ClipboardFormat.ofInt format).map fun f => { c with data := Function.update c.data f (some data) }

def has (c : Clipboard) (format : ClipboardFormat) : Bool := c.isOpen && (c.data format).isSome

def get (c : Clipboard) (format : ClipboardFormat) : Bytes :=
  if !c.isOpen then [] else (c.data format).getD []

def writeUInt32 (v : Nat) : Bytes := bigEndian 4 v

@[simp] theorem length_writeUInt32 (v : Nat) : (writeUInt32 v).length = 4 := length_bigEndian 4 v

def readUInt32 (bytes : Bytes) : Nat := ofBigEndian (bytes.take 4)

/-- An enumeration value made from 32 unsigned bits. -/
def formatOf (v : Nat) : Int := if v < 2 ^ 31 then v else v - 2 ^ 32

/-- The number of formats, then each with its number, its size and its data. -/
def marshall (c : Clipboard) : Bytes :=
  let c := c.opened 0
  let formats := ClipboardFormat.all.filter c.has
  writeUInt32 formats.length ++
    formats.flatMap fun f => writeUInt32 f.toNat ++ (writeUInt32 (c.get f).length ++ c.get f)

/-- The formats and data added, from the bytes behind the count, until they are cut short. -/
def readFormats : Nat → Bytes → List (Int × Bytes)
  | 0, _ => []
  | n + 1, rest =>
    if rest.length < 8 then []
    else
      let format := formatOf (readUInt32 rest)
      let size := readUInt32 (rest.drop 4)
      let rest := rest.drop 8
      if rest.length % 2 ^ 32 < size then []
      else if format < 3 then (format, rest.take size) :: readFormats n (rest.drop size)
      else readFormats n (rest.drop size)

def unmarshall (c : Clipboard) (data : Bytes) (time : Nat) : Option Clipboard :=
  let c := (c.opened time).empty
  if data.length < 4 then some c.close
  else ((readFormats (readUInt32 data) (data.drop 4)).foldlM (fun (c : Clipboard) e => c.add e.1 e.2) c).map close

theorem marshall_open (c : Clipboard) (f : ClipboardFormat) :
    (c.opened 0).has f = (c.data f).isSome ∧ (c.opened 0).get f = (c.data f).getD [] := by
  cases h : c.isOpen <;> simp [opened, has, get, h]

private theorem readUInt32_append {v : Nat} (h : v < 2 ^ 32) (rest : Bytes) :
    readUInt32 (writeUInt32 v ++ rest) = v := by
  rw [readUInt32, writeUInt32, List.take_left' (length_bigEndian 4 v), ofBigEndian_bigEndian_of_lt h]

/-- One marshalled format in front of the rest is read as it was written. -/
private theorem readFormats_cons (n : Nat) (f : ClipboardFormat) (data rest : Bytes)
    (h : (data ++ rest).length < 2 ^ 32) :
    readFormats (n + 1) (writeUInt32 f.toNat ++ (writeUInt32 data.length ++ data) ++ rest) =
      ((f.toNat : Int), data) :: readFormats n rest := by
  have hf : f.toNat < 3 := by cases f <;> decide
  have hdata : data.length < 2 ^ 32 := by
    rw [List.length_append] at h
    omega
  have hsplit : writeUInt32 f.toNat ++ (writeUInt32 data.length ++ data) ++ rest =
      writeUInt32 f.toNat ++ (writeUInt32 data.length ++ (data ++ rest)) := by simp
  have hsize : (writeUInt32 f.toNat ++ (writeUInt32 data.length ++ (data ++ rest))).drop 4 =
      writeUInt32 data.length ++ (data ++ rest) := List.drop_left' (length_writeUInt32 _)
  have htail : (writeUInt32 f.toNat ++ (writeUInt32 data.length ++ (data ++ rest))).drop 8 = data ++ rest := by
    rw [show 8 = 4 + 4 from rfl, ← List.drop_drop, hsize]
    exact List.drop_left' (length_writeUInt32 _)
  have hformat : formatOf f.toNat = f.toNat := by
    rw [formatOf, if_pos (by omega)]
  rw [hsplit, readFormats, hsize, htail, readUInt32_append (by omega), readUInt32_append hdata, hformat,
    if_neg (by simp; omega)]
  simp only [Nat.mod_eq_of_lt h]
  rw [if_neg (by simp), if_pos (by omega), List.take_left, List.drop_left]

private theorem readFormats_entries (entries : List (ClipboardFormat × Bytes))
    (h : (entries.flatMap fun e => writeUInt32 e.1.toNat ++ (writeUInt32 e.2.length ++ e.2)).length < 2 ^ 32) :
    readFormats entries.length (entries.flatMap fun e => writeUInt32 e.1.toNat ++ (writeUInt32 e.2.length ++ e.2)) =
      entries.map fun e => ((e.1.toNat : Int), e.2) := by
  induction entries with
  | nil => rfl
  | cons e entries ih =>
    rw [List.flatMap_cons, List.length_append] at h
    rw [List.flatMap_cons, List.length_cons, readFormats_cons _ _ _ _ (by simp at h ⊢; omega), ih (by omega)]
    rfl

/-- What a clipboard marshals: its formats in order, each with its data. -/
def entries (c : Clipboard) : List (ClipboardFormat × Bytes) :=
  (ClipboardFormat.all.filter fun f => (c.data f).isSome).map fun f => (f, (c.data f).getD [])

theorem marshall_entries (c : Clipboard) :
    c.marshall = writeUInt32 c.entries.length ++
      c.entries.flatMap fun e => writeUInt32 e.1.toNat ++ (writeUInt32 e.2.length ++ e.2) := by
  have hhas : (c.opened 0).has = fun f => (c.data f).isSome := funext fun f => (marshall_open c f).1
  have hget : (c.opened 0).get = fun f => (c.data f).getD [] := funext fun f => (marshall_open c f).2
  simp only [marshall, hhas, hget, entries, List.length_map, List.flatMap_map]

/-- Adding all entries of a clipboard to an empty one gives its contents. -/
private theorem add_entries (c dst : Clipboard) (hopen : dst.isOpen) (howner : dst.owner)
    (hempty : dst.data = fun _ => none) :
    ∃ t : Clipboard, (c.entries.map fun e => ((e.1.toNat : Int), e.2)).foldlM
      (fun (c : Clipboard) e => c.add e.1 e.2) dst = some t ∧ t.data = c.data := by
  obtain ⟨_, _, time, timeOwned, _⟩ := dst
  simp only at hopen howner hempty
  subst hopen howner hempty
  cases ht : c.data .text <;> cases hh : c.data .html <;> cases hb : c.data .bitmap <;>
    simp [entries, ClipboardFormat.all, ClipboardFormat.toNat, ClipboardFormat.ofInt, add, ht, hh, hb] <;>
    funext f <;> cases f <;> simp [Function.update, ht, hh, hb]

/-- Unmarshalling what a clipboard below 2^32 bytes marshals gives its formats and data,
whatever the receiving clipboard held. -/
theorem unmarshall_marshall (c dst : Clipboard) (time : Nat) (h : c.marshall.length < 2 ^ 32) :
    ∃ t, dst.unmarshall c.marshall time = some t ∧ t.data = c.data := by
  have hlen : c.entries.length ≤ 3 := by
    rw [entries, List.length_map]
    exact List.length_filter_le _ _
  rw [marshall_entries] at h ⊢
  have hopen : (dst.opened time).isOpen = true := by
    unfold opened
    split
    next h => exact h
    next h => rfl
  have hempty : (dst.opened time).empty =
      { dst.opened time with data := fun _ => none, timeOwned := (dst.opened time).time, owner := true } := by
    simp [empty, hopen]
  rw [List.length_append] at h
  obtain ⟨t, hadd, ht⟩ := add_entries c (dst.opened time).empty (by rw [hempty]; exact hopen) (by rw [hempty])
    (by rw [hempty])
  refine ⟨t.close, ?_, ht⟩
  simp only [unmarshall]
  rw [if_neg (by simp), readUInt32_append (by omega), List.drop_left' (length_writeUInt32 _),
    readFormats_entries _ (by omega), hadd]
  rfl

end Clipboard
end Synergy
