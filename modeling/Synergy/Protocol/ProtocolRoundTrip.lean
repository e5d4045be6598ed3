import Mathlib.Algebra.Order.BigOperators.Group.List
import Synergy.Protocol.ProtocolUtil

/-! Messages described field by field: the format they have, the arguments they take and
the bytes they are, and that the interpreters of the format agree on all three. -/
namespace Synergy
open Lib ProtocolUtil

inductive Field
  | literal (c : UInt8)
  | int (width value : Nat)
  | vector (width : Nat) (values : List Nat)
  | string (value : Bytes)
  deriving DecidableEq, Repr

namespace Field

def ValidWidth (width : Nat) : Prop := width = 1 ∨ width = 2 ∨ width = 4

/-- Integers in range of their width, lists and strings within the limits. -/
def Valid : Field → Prop
  | literal c => c ≠ 0 ∧ c ≠ byte '%'
  | int width value => ValidWidth width ∧ value < 256 ^ width
  | vector width values =>
    ValidWidth width ∧ values.length ≤ protocolMaxListLength ∧ ∀ v ∈ values, v < 256 ^ width
  | string value => value.length ≤ protocolMaxStringLength

instance : DecidablePred Valid
  | literal _ => inferInstanceAs (Decidable (_ ∧ _))
  | int width _ => inferInstanceAs (Decidable ((width = 1 ∨ width = 2 ∨ width = 4) ∧ _))
  | vector width _ => inferInstanceAs (Decidable ((width = 1 ∨ width = 2 ∨ width = 4) ∧ _ ∧ _))
  | string _ => inferInstanceAs (Decidable (_ ≤ _))

/-- What can be written: as `Valid`, with strings of any length that its four bytes hold. -/
def Encodable : Field → Prop
  | string value => value.length < 2 ^ 32
  | f => f.Valid

theorem Valid.encodable {f : Field} (h : f.Valid) : f.Encodable := by
  cases f with
  | string value =>
    have hlimit : protocolMaxStringLength < 2 ^ 32 := by decide
    exact lt_of_le_of_lt h hlimit
  | literal c => exact h
  | int width value => exact h
  | vector width values => exact h

def digit (n : Nat) : UInt8 := UInt8.ofNat (48 + n)

/-- How the field is written in a format. -/
def text : Field → Bytes
  | literal c => [c]
  | int width _ => [byte '%', digit width, byte 'i']
  | vector width _ => [byte '%', digit width, byte 'I']
  | string _ => [byte '%', byte 's']

def item : Field → FormatItem
  | literal c => .regular c
  | int width _ => .spec width .int
  | vector width _ => .spec width .vector
  | string _ => .spec 0 .string

def args : Field → List Arg
  | literal _ => []
  | int _ value => [.int value]
  | vector width values => [.vector width values]
  | string value => [.string value]

/-- A zeroed integer, an empty vector or an empty string to read the field into. -/
def blank : Field → List Arg
  | literal _ => []
  | int _ _ => [.int 0]
  | vector width _ => [.vector width []]
  | string _ => [.string []]

def bytes : Field → Bytes
  | literal c => [c]
  | int width value => bigEndian width value
  | vector width values => bigEndian 4 values.length ++ values.flatMap (bigEndian width)
  | string value => bigEndian 4 value.length ++ value

end Field

def formatOf (fields : List Field) : Bytes := fields.flatMap Field.text
def argsOf (fields : List Field) : List Arg := fields.flatMap Field.args
def blanksOf (fields : List Field) : List Arg := fields.flatMap Field.blank
def bytesOf (fields : List Field) : Bytes := fields.flatMap Field.bytes

namespace Field

private theorem scan_text {f : Field} (hf : f.Encodable) (fmt : Bytes) :
    scanFormat none (f.text ++ fmt) = f.item :: scanFormat none fmt := by
  cases f with
  | literal c => simp [text, item, scanFormat, hf.2]
  | string value => rfl
  | int width value | vector width values =>
    obtain ⟨rfl | rfl | rfl, -⟩ := hf <;> rfl

theorem scanFormat_formatOf {fields : List Field} (h : ∀ f ∈ fields, f.Encodable) :
    scanFormat none (formatOf fields) = fields.map item := by
  induction fields with
  | nil => rfl
  | cons f fields ih =>
    rw [formatOf, List.flatMap_cons, scan_text (h f (by simp))]
    rw [List.map_cons, ← ih fun g hg => h g (by simp [hg])]
    rfl

private theorem validLength_of_validWidth {width : Nat} (h : ValidWidth width) : validLength width = true := by
  rcases h with rfl | rfl | rfl <;> rfl

private theorem length_flatMap_bigEndian (width : Nat) (values : List Nat) :
    (values.flatMap (bigEndian width)).length = width * values.length := by
  induction values with
  | nil => rfl
  | cons v values ih => simp [ih, Nat.mul_add, Nat.add_comm]

private theorem ok_bind {α β : Type} (a : α) (g : α → Except String β) : (Except.ok a >>= g) = g a := rfl

/-- The length counts the bytes of the message, modulo 2^32. -/
theorem getLength_fields {fields : List Field} (h : ∀ f ∈ fields, f.Encodable) :
    getLength (fields.map item) (argsOf fields) = .ok ((bytesOf fields).length % 2 ^ 32) := by
  induction fields with
  | nil => rfl
  | cons f fields ih =>
    have hf := h f (by simp)
    have ih' := ih fun g hg => h g (by simp [hg])
    have hlen : (bytesOf (f :: fields)).length = f.bytes.length + (bytesOf fields).length := by
      simp [bytesOf]
    rw [hlen]
    cases f with
    | literal c =>
      change (getLength (fields.map item) (argsOf fields) >>= fun n => .ok ((1 + n) % 2 ^ 32)) = _
      rw [ih', ok_bind, bytes, List.length_singleton, Nat.add_mod_mod]
    | int width value =>
      change (if !validLength width then _ else getLength (fields.map item) (argsOf fields) >>=
        fun n => .ok ((width + n) % 2 ^ 32)) = _
      rw [validLength_of_validWidth hf.1, ih', ok_bind, bytes, length_bigEndian, Nat.add_mod_mod]
      rfl
    | vector width values =>
      change (if !validLength width then _ else getLength (fields.map item) (argsOf fields) >>=
        fun n => .ok ((width * (values.length % 2 ^ 32) + 4 + n) % 2 ^ 32)) = _
      have hlt : values.length % 2 ^ 32 = values.length := by
        apply Nat.mod_eq_of_lt
        have := hf.2.1
        unfold protocolMaxListLength at this
        omega
      rw [validLength_of_validWidth hf.1, ih', ok_bind, bytes, List.length_append, length_bigEndian,
        length_flatMap_bigEndian, hlt, Nat.add_mod_mod, Nat.add_comm 4]
      rfl
    | string value =>
      change (getLength (fields.map item) (argsOf fields) >>=
        fun n => .ok ((value.length % 2 ^ 32 + 4 + n) % 2 ^ 32)) = _
      have hlt : value.length % 2 ^ 32 = value.length := Nat.mod_eq_of_lt hf
      rw [ih', ok_bind, bytes, List.length_append, length_bigEndian, hlt, Nat.add_mod_mod, Nat.add_comm 4]

private theorem writeInt_valid {width : Nat} (h : ValidWidth width) (value : Nat) :
    writeInt value width = .ok (bigEndian width value) := by
  rcases h with rfl | rfl | rfl <;> rfl

private theorem writeVectorInt_valid {width : Nat} (h : ValidWidth width) (values : List Nat) :
    writeVectorInt width values = .ok (bigEndian 4 values.length ++ values.flatMap (bigEndian width)) := by
  have helems : values.mapM (writeInt · width) = .ok (values.map (bigEndian width)) := by
    induction values with
    | nil => rfl
    | cons v values ih =>
      rw [List.mapM_cons, writeInt_valid h, ih]
      rfl
  rw [writeVectorInt, writeInt_valid (.inr (.inr rfl)), ok_bind, helems, ok_bind, List.flatMap_def]
  rfl

private theorem writeString_encodable {value : Bytes} (h : value.length < 2 ^ 32) :
    writeString value = .ok (bigEndian 4 value.length ++ value) := by
  have hlt : value.length % 2 ^ 32 = value.length := Nat.mod_eq_of_lt h
  simp only [writeString, hlt, writeInt_valid (.inr (.inr rfl)), ok_bind]
  cases value <;> rfl

/-- The buffer of a message holds its bytes, field after field. -/
theorem writeBuffer_fields {fields : List Field} (h : ∀ f ∈ fields, f.Encodable) :
    writeBuffer (fields.map item) (argsOf fields) = .ok (bytesOf fields) := by
  induction fields with
  | nil => rfl
  | cons f fields ih =>
    have hf := h f (by simp)
    have ih' := ih fun g hg => h g (by simp [hg])
    cases f with
    | literal c =>
      change (writeBuffer (fields.map item) (argsOf fields) >>= fun more => .ok (c :: more)) = _
      rw [ih', ok_bind]
      rfl
    | int width value =>
      change (writeInt value width >>= fun bytes => writeBuffer (fields.map item) (argsOf fields) >>=
        fun more => .ok (bytes ++ more)) = _
      rw [writeInt_valid hf.1, ok_bind, ih', ok_bind]
      rfl
    | vector width values =>
      change (if !validLength width then _ else writeVectorInt width values >>=
        fun bytes => writeBuffer (fields.map item) (argsOf fields) >>= fun more => .ok (bytes ++ more)) = _
      rw [validLength_of_validWidth hf.1, writeVectorInt_valid hf.1, ok_bind, ih', ok_bind]
      rfl
    | string value =>
      change (writeString value >>= fun bytes => writeBuffer (fields.map item) (argsOf fields) >>=
        fun more => .ok (bytes ++ more)) = _
      rw [writeString_encodable hf, ok_bind, ih', ok_bind]
      rfl

end Field
end Synergy

/-! Reading a written message back, from a stream that delivers it in any pieces. -/
namespace Synergy
open Lib ProtocolUtil
namespace ProtocolUtil

private theorem reads_readLoop (fuel : Nat) {bytes : Bytes} (h : bytes.length ≤ fuel) :
    Reads (readLoop fuel bytes.length) bytes bytes := by
  induction fuel generalizing bytes with
  | zero =>
    obtain rfl := List.eq_nil_of_length_eq_zero (Nat.le_zero.mp h)
    exact Reads.pure []
  | succ fuel ih =>
    by_cases hnil : bytes = []
    · subst hnil
      exact Reads.pure []
    have hpos := List.length_pos_iff.mpr hnil
    intro s suffix hs
    obtain ⟨out, rest, hout, hne, hlen, hbytes, hrest⟩ := hs.read hpos (by simp [hnil])
    have hcut : bytes = out ++ bytes.drop out.length ∧ rest = bytes.drop out.length ++ suffix := by
      have htake := congrArg (List.take out.length) hbytes
      have hdrop := congrArg (List.drop out.length) hbytes
      rw [List.take_append_of_le_length hlen, List.take_left] at htake
      rw [List.drop_append_of_le_length hlen, List.drop_left] at hdrop
      refine ⟨?_, hdrop.symm⟩
      nth_rewrite 1 [← List.take_append_drop out.length bytes]
      rw [htake]
    have hless : (bytes.drop out.length).length ≤ fuel := by
      have := List.length_pos_iff.mpr hne
      rw [List.length_drop]
      omega
    rw [hcut.2] at hrest
    obtain ⟨s', hrun, hs'⟩ := ih hless _ suffix hrest
    refine ⟨s', ?_, hs'⟩
    have hsome : ReadM.some bytes.length s = (.ok out, (s.read bytes.length).2) := by rw [ReadM.some, hout]
    rw [readLoop, if_neg (by omega), ReadM.bind_ok hsome, if_neg hne]
    rw [← List.length_drop, ReadM.bind_ok hrun]
    nth_rewrite 2 [hcut.1]
    rfl

theorem reads_read (bytes : Bytes) : Reads (ProtocolUtil.read bytes.length) bytes bytes :=
  reads_readLoop bytes.length le_rfl

theorem reads_readInt {width value : Nat} (h : value < 256 ^ width) :
    Reads (readInt width) (bigEndian width value) value := by
  have hr := (reads_read (bigEndian width value)).map ofBigEndian
  rwa [length_bigEndian, ofBigEndian_bigEndian_of_lt h] at hr

private theorem reads_readElements {width : Nat} {values : List Nat} (h : ∀ v ∈ values, v < 256 ^ width)
    (destination : List Nat) :
    Reads (readElements (readInt width) values.length destination) (values.flatMap (bigEndian width))
      (destination ++ values) := by
  induction values generalizing destination with
  | nil =>
    rw [List.append_nil]
    exact Reads.pure destination
  | cons v values ih =>
    have hrest := ih (fun x hx => h x (by simp [hx])) (destination ++ [v])
    rw [List.append_assoc, List.singleton_append] at hrest
    exact (reads_readInt (h v (by simp))).bind hrest

theorem reads_readVector {width : Nat} {values : List Nat} (hlen : values.length ≤ protocolMaxListLength)
    (h : ∀ v ∈ values, v < 256 ^ width) :
    Reads (readVector (readInt width) []) (bigEndian 4 values.length ++ values.flatMap (bigEndian width)) values := by
  have hlt : values.length < 256 ^ 4 := by
    unfold protocolMaxListLength at hlen
    omega
  have hsize : Reads readVectorSize (bigEndian 4 values.length) values.length :=
    (reads_readInt hlt).check (.badClient "Too long message received") (not_lt.mpr hlen)
  exact hsize.bind (reads_readElements h [])

theorem reads_readBytes {value : Bytes} (h : value.length ≤ protocolMaxStringLength) :
    Reads (readBytes 0) (bigEndian 4 value.length ++ value) value := by
  have hlt : value.length < 256 ^ 4 := by
    unfold protocolMaxStringLength at h
    omega
  have hsize : Reads (readBytesLength 0) (bigEndian 4 value.length) value.length :=
    (reads_readInt hlt).check (.badClient "Too long message received") (not_lt.mpr h)
  exact hsize.bind (reads_read value)

/-- Reading by the format of a message takes its bytes and fills the places with its arguments. -/
theorem reads_vreadf {fields : List Field} (h : ∀ f ∈ fields, f.Valid) :
    Reads (vreadf (fields.map Field.item) (blanksOf fields)) (bytesOf fields) (argsOf fields) := by
  induction fields with
  | nil => exact Reads.pure []
  | cons f fields ih =>
    have hf := h f (by simp)
    have ih' := ih fun g hg => h g (by simp [hg])
    cases f with
    | literal c =>
      refine (reads_read [c]).bind (f := fun buffer => if buffer ≠ [c] then ReadM.fail .mismatch else
        vreadf (fields.map Field.item) (blanksOf fields)) ?_
      rw [if_neg (by simp)]
      exact ih'
    | int width value =>
      obtain ⟨hw, hv⟩ := hf
      have hread : Reads (readIntOfLength width) (bigEndian width value) value := by
        rcases hw with rfl | rfl | rfl <;> exact reads_readInt hv
      have hstore : storeInt width 0 value = value := by simp [storeInt]
      have hrest := ih'.map (fun rest => Arg.int (storeInt width 0 value) :: rest)
      have hall := hread.bind (f := fun v => (fun rest => Arg.int (storeInt width 0 v) :: rest) <$> _) hrest
      rw [hstore] at hall
      exact hall
    | vector width values =>
      obtain ⟨hw, hlen, hv⟩ := hf
      have hread : Reads (readVectorOfLength width [])
          (bigEndian 4 values.length ++ values.flatMap (bigEndian width)) values := by
        rcases hw with rfl | rfl | rfl <;> exact reads_readVector hlen hv
      exact hread.bind (f := fun values => (fun rest => Arg.vector width values :: rest) <$> _)
        (ih'.map (fun rest => Arg.vector width values :: rest))
    | string value =>
      exact (reads_readBytes hf).bind (f := fun value => (fun rest => Arg.string value :: rest) <$> _) (ih'.map (fun rest => Arg.string value :: rest))

theorem reads_readf {fields : List Field} (h : ∀ f ∈ fields, f.Valid) :
    Reads (readf (formatOf fields) (blanksOf fields)) (bytesOf fields) (some (argsOf fields)) := by
  intro s suffix hs
  obtain ⟨rest, hrun, hrest⟩ := reads_vreadf h s suffix hs
  refine ⟨rest, ?_, hrest⟩
  rw [readf, Field.scanFormat_formatOf fun f hf => (h f hf).encodable, hrun]

/-- What reaches the stream is the message cut to its length modulo 2^32. -/
theorem writef_fields {fields : List Field} (h : ∀ f ∈ fields, f.Encodable) :
    writef (formatOf fields) (argsOf fields) = .ok ((bytesOf fields).take ((bytesOf fields).length % 2 ^ 32)) := by
  rw [writef, Field.scanFormat_formatOf h, Field.getLength_fields h, Field.writeBuffer_fields h]
  by_cases h0 : (bytesOf fields).length % 2 ^ 32 = 0
  · rw [h0, List.take_zero]
    rfl
  · change (if (bytesOf fields).length % 2 ^ 32 = 0 then _ else _) = _
    rw [if_neg h0]
    rfl

/-- A message is written as its code and then its fields. -/
theorem writef_code {code : Bytes} {fields : List Field} (hcode : ∀ c ∈ code, c ≠ 0 ∧ c ≠ byte '%')
    (h : ∀ f ∈ fields, f.Encodable) (hlen : code.length + (bytesOf fields).length < 2 ^ 32) :
    writef (code ++ formatOf fields) (argsOf fields) = .ok (code ++ bytesOf fields) := by
  have htext : formatOf (code.map Field.literal ++ fields) = code ++ formatOf fields := by
    simp [formatOf, List.flatMap_map, Field.text]
  have hargs : argsOf (code.map Field.literal ++ fields) = argsOf fields := by
    simp [argsOf, List.flatMap_map, Field.args]
  have hbytes : bytesOf (code.map Field.literal ++ fields) = code ++ bytesOf fields := by
    simp [bytesOf, List.flatMap_map, Field.bytes]
  have hall : ∀ f ∈ code.map Field.literal ++ fields, f.Encodable := by
    intro f hf
    rcases List.mem_append.mp hf with hf | hf
    · obtain ⟨c, hc, rfl⟩ := List.mem_map.mp hf
      exact hcode c hc
    · exact h f hf
  have hwrite := writef_fields hall
  rw [htext, hargs, hbytes] at hwrite
  rw [hwrite, Nat.mod_eq_of_lt (by rwa [List.length_append]), List.take_length]

/-- A message shorter than 2^32 bytes is written whole, in as many bytes as its length
says, and reading it back gives its arguments and leaves what follows. -/
theorem message_round_trip (fields : List Field) (h : ∀ f ∈ fields, f.Valid)
    (hlen : (bytesOf fields).length < 2 ^ 32) :
    ∃ bytes, writef (formatOf fields) (argsOf fields) = .ok bytes ∧
      getLength (scanFormat none (formatOf fields)) (argsOf fields) = .ok bytes.length ∧
      Reads (readf (formatOf fields) (blanksOf fields)) bytes (some (argsOf fields)) := by
  have hwrite : ∀ f ∈ fields, f.Encodable := fun f hf => (h f hf).encodable
  refine ⟨bytesOf fields, ?_, ?_, reads_readf h⟩
  · rw [writef_fields hwrite, Nat.mod_eq_of_lt hlen, List.take_length]
  · rw [Field.scanFormat_formatOf hwrite, Field.getLength_fields hwrite, Nat.mod_eq_of_lt hlen]

theorem message_round_trip_key :
    let fields : List Field := [.literal 68, .int 2 300, .string [1, 2], .vector 1 [7, 8]]
    ∃ bytes, writef (formatOf fields) (argsOf fields) = .ok bytes ∧
      getLength (scanFormat none (formatOf fields)) (argsOf fields) = .ok bytes.length ∧
      Reads (readf (formatOf fields) (blanksOf fields)) bytes (some (argsOf fields)) :=
  message_round_trip [.literal 68, .int 2 300, .string [1, 2], .vector 1 [7, 8]] (by decide) (by decide)

private theorem bytesOf_replicate (n : Nat) (f : Field) :
    (bytesOf (List.replicate n f)).length = n * f.bytes.length := by
  induction n with
  | zero => simp [bytesOf]
  | succ n ih =>
    rw [List.replicate_succ, bytesOf, List.flatMap_cons, List.length_append, ← bytesOf, ih, Nat.succ_mul, Nat.add_comm]

private theorem vreadf_strings_empty (n : Nat) (value : Bytes) :
    vreadf ((List.replicate (n + 1) (Field.string value)).map Field.item)
      (blanksOf (List.replicate (n + 1) (Field.string value))) [] = (.error .endOfStream, []) := rfl

/-- 65536 strings of 65532 bytes are 2^32 bytes on the wire: the length wraps to zero,
nothing is written and nothing can be read back. -/
theorem long_message_not_written :
    ¬ ∀ fields : List Field, (∀ f ∈ fields, f.Valid) →
      ∃ bytes, writef (formatOf fields) (argsOf fields) = .ok bytes ∧
        getLength (scanFormat none (formatOf fields)) (argsOf fields) = .ok bytes.length ∧
        Reads (readf (formatOf fields) (blanksOf fields)) bytes (some (argsOf fields)) := by
  intro hall
  obtain ⟨n, hn⟩ : ∃ n, n + 1 = 65536 := ⟨65535, rfl⟩
  obtain ⟨value, hvalue⟩ : ∃ value : Bytes, value.length = 65532 := ⟨List.replicate 65532 0, List.length_replicate⟩
  have hvalid : ∀ f ∈ List.replicate (n + 1) (Field.string value), f.Valid := by
    intro f hf
    rw [List.eq_of_mem_replicate hf]
    change value.length ≤ protocolMaxStringLength
    rw [hvalue]
    decide
  have hlen : (bytesOf (List.replicate (n + 1) (Field.string value))).length = 2 ^ 32 := by
    rw [bytesOf_replicate, Field.bytes, List.length_append, length_bigEndian, hvalue, hn]
    decide
  obtain ⟨bytes, hwrite, -, hread⟩ := hall _ hvalid
  have hencodable : ∀ f ∈ List.replicate (n + 1) (Field.string value), f.Encodable :=
    fun f hf => (hvalid f hf).encodable
  rw [writef_fields hencodable, hlen, Nat.mod_self, List.take_zero] at hwrite
  obtain rfl : [] = bytes := Except.ok.inj hwrite
  obtain ⟨rest, hrun, -⟩ := hread [] [] ⟨by simp, rfl⟩
  rw [readf, Field.scanFormat_formatOf hencodable, vreadf_strings_empty] at hrun
  simp at hrun

end ProtocolUtil
end Synergy
