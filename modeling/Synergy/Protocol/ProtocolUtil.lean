import Synergy.Io.IStream
import Synergy.Lib.ByteOrder

/-! Limits of the protocol. -/
namespace Synergy

def protocolMaxMessageLength : Nat := 4 * 1024 * 1024
def protocolMaxListLength : Nat := 4096
def protocolMaxStringLength : Nat := 65536

end Synergy

/-! The formatted messages of the protocol. The three interpreters of a format (its
length, its writing, its reading) walk the same scanned format. -/
namespace Synergy
open Lib

def byte (c : Char) : UInt8 := UInt8.ofNat c.toNat

/-- The ASCII bytes of a literal. -/
def ascii (s : String) : Bytes := s.toList.map byte

/-- The letter after `%` and its length. -/
inductive Conversion
  | int
  | vector
  | string
  | rawString
  | percent
  | invalid
  deriving DecidableEq, Repr

def Conversion.ofByte (c : UInt8) : Conversion :=
  if c = byte 'i' then .int
  else if c = byte 'I' then .vector
  else if c = byte 's' then .string
  else if c = byte 'S' then .rawString
  else if c = byte '%' then .percent
  else .invalid

inductive FormatItem
  | regular (c : UInt8)
  | spec (len : Nat) (conversion : Conversion)
  deriving DecidableEq, Repr

def digit? (c : UInt8) : Option Nat :=
  if byte '0' ≤ c ∧ c ≤ byte '9' then some (c.toNat - 48) else none

/-- Splits a format into regular characters and specifiers; `len` is the length eaten so
far after a `%`. A format that ends inside a specifier has an invalid one at its end. -/
def scanFormat : Option Nat → Bytes → List FormatItem
  | none, [] => []
  | some len, [] => [.spec len .invalid]
  | none, c :: fmt =>
    if c = byte '%' then scanFormat (some 0) fmt else .regular c :: scanFormat none fmt
  | some len, c :: fmt =>
    match digit? c with
    | some d => scanFormat (some ((10 * len + d) % 2 ^ 32)) fmt
    | none => .spec len (Conversion.ofByte c) :: scanFormat none fmt

/-- What a caller passes after the format, to be written or as the place to read into. -/
inductive Arg
  | int (value : Nat)
  | vector (width : Nat) (values : List Nat)
  | string (value : Bytes)
  | rawData (value : Bytes)
  deriving DecidableEq, Repr

namespace ProtocolUtil

def validLength (len : Nat) : Bool := len == 1 || len == 2 || len == 4

def getLength : List FormatItem → List Arg → Except String Nat
  | [], _ => .ok 0
  | .regular _ :: fmt, args => do return (1 + (← getLength fmt args)) % 2 ^ 32
  | .spec len .int :: fmt, .int _ :: args =>
    if !validLength len then throw "Invalid protocol integer format length"
    else do return (len + (← getLength fmt args)) % 2 ^ 32
  | .spec len .vector :: fmt, .vector _ values :: args =>
    if !validLength len then throw "Invalid protocol integer vector format length"
    else do return (len * (values.length % 2 ^ 32) + 4 + (← getLength fmt args)) % 2 ^ 32
  | .spec len .string :: fmt, .string value :: args =>
    if len ≠ 0 then throw "Invalid protocol string format length"
    else do return (value.length % 2 ^ 32 + 4 + (← getLength fmt args)) % 2 ^ 32
  | .spec len .rawString :: fmt, .int count :: args =>
    if len ≠ 0 then throw "Invalid protocol raw string format length"
    else do return (count + 4 + (← getLength fmt args)) % 2 ^ 32
  | .spec len .percent :: fmt, args =>
    if len ≠ 0 then throw "Invalid protocol %% format specifier length"
    else do return (1 + (← getLength fmt args)) % 2 ^ 32
  | .spec _ _ :: _, _ => throw "Invalid protocol format specifier"

def writeInt (value length : Nat) : Except String Bytes :=
  match length with
  | 1 | 2 | 4 => .ok (bigEndian length value)
  | _ => throw "Invalid integer format length"

def writeVectorInt (width : Nat) (values : List Nat) : Except String Bytes := do
  let size ← writeInt values.length 4
  let elements ← values.mapM (writeInt · width)
  return size ++ elements.flatten

def writeString (value : Bytes) : Except String Bytes := do
  let len := value.length % 2 ^ 32
  return (← writeInt len 4) ++ (if len ≠ 0 then value else [])

/-- Fills the buffer of a message. -/
def writeBuffer : List FormatItem → List Arg → Except String Bytes
  | [], _ => .ok []
  | .regular c :: fmt, args => do return c :: (← writeBuffer fmt args)
  | .spec len .int :: fmt, .int value :: args => do
    return (← writeInt value len) ++ (← writeBuffer fmt args)
  | .spec len .vector :: fmt, .vector _ values :: args =>
    if !validLength len then throw "Invalid protocol integer vector format length"
    else do return (← writeVectorInt len values) ++ (← writeBuffer fmt args)
  | .spec len .string :: fmt, .string value :: args =>
    if len ≠ 0 then throw "Invalid protocol string format length"
    else do return (← writeString value) ++ (← writeBuffer fmt args)
  | .spec len .rawString :: fmt, .int count :: .rawData data :: args =>
    if len ≠ 0 then throw "Invalid protocol raw string format length"
    else do return (← writeInt count 4) ++ data.take count ++ (← writeBuffer fmt args)
  | .spec len .percent :: fmt, args =>
    if len ≠ 0 then throw "Invalid protocol %% format specifier length"
    else do return byte '%' :: (← writeBuffer fmt args)
  | .spec _ _ :: _, _ => throw "Invalid protocol format specifier"

/-- What `writef` hands to the stream: as many bytes of the buffer as `getLength` counts. -/
def writef (fmt : Bytes) (args : List Arg) : Except String Bytes := do
  let items := scanFormat none fmt
  let size ← getLength items args
  if size = 0 then return []
  return (← writeBuffer items args).take size

/-- Reads until `count` bytes are there; `fuel` bounds the reads, each of which gets a byte. -/
def readLoop : Nat → Nat → ReadM Bytes
  | 0, _ => pure []
  | fuel + 1, count =>
    if count = 0 then pure [] else do
      let bytes ← ReadM.some count
      if bytes = [] then ReadM.fail .endOfStream
      else
        let more ← readLoop fuel (count - bytes.length)
        return bytes ++ more

def read (count : Nat) : ReadM Bytes := readLoop count count

def readInt (width : Nat) : ReadM Nat := ofBigEndian <$> read width

def read1ByteInt : ReadM Nat := readInt 1
def read2BytesInt : ReadM Nat := readInt 2
def read4BytesInt : ReadM Nat := readInt 4

def readVectorSize : ReadM Nat := do
  let size ← read4BytesInt
  if protocolMaxListLength < size then ReadM.fail (.badClient "Too long message received")
  else return size

def readElements (element : ReadM Nat) : Nat → List Nat → ReadM (List Nat)
  | 0, destination => pure destination
  | n + 1, destination => do
    let x ← element
    readElements element n (destination ++ [x])

def readVector (element : ReadM Nat) (destination : List Nat) : ReadM (List Nat) := do
  let size ← readVectorSize
  readElements element size destination

def readVector1ByteInt (destination : List Nat) : ReadM (List Nat) := readVector read1ByteInt destination
def readVector2BytesInt (destination : List Nat) : ReadM (List Nat) := readVector read2BytesInt destination
def readVector4BytesInt (destination : List Nat) : ReadM (List Nat) := readVector read4BytesInt destination

def readBytesLength (len : Nat) : ReadM Nat :=
  if len = 0 then do
    let len ← read4BytesInt
    if protocolMaxStringLength < len then ReadM.fail (.badClient "Too long message received")
    else return len
  else return len

/-- A string whose length is `len`, or comes first in the stream when `len` is 0. -/
def readBytes (len : Nat) : ReadM Bytes := do
  let len ← readBytesLength len
  read len

/-- Stores `width` bytes into the low end of an integer. -/
def storeInt (width old value : Nat) : Nat := old / 256 ^ width * 256 ^ width + value

def readIntOfLength : Nat → ReadM Nat
  | 1 => read1ByteInt
  | 2 => read2BytesInt
  | 4 => read4BytesInt
  | _ => ReadM.fail (.badClient "Invalid protocol integer format length")

def readVectorOfLength (len : Nat) (destination : List Nat) : ReadM (List Nat) :=
  match len with
  | 1 => readVector1ByteInt destination
  | 2 => readVector2BytesInt destination
  | 4 => readVector4BytesInt destination
  | _ => ReadM.fail (.badClient "Invalid protocol integer vector format length")

/-- Reads by a format into the places given and returns them filled. -/
def vreadf : List FormatItem → List Arg → ReadM (List Arg)
  | [], args => pure args
  | .regular c :: fmt, args => do
    let buffer ← read 1
    if buffer ≠ [c] then ReadM.fail .mismatch
    else vreadf fmt args
  | .spec len .int :: fmt, .int old :: args => do
    let value ← readIntOfLength len
    let rest ← vreadf fmt args
    return .int (storeInt len old value) :: rest
  | .spec len .vector :: fmt, .vector width old :: args => do
    let values ← readVectorOfLength len old
    let rest ← vreadf fmt args
    return .vector width values :: rest
  | .spec len .string :: fmt, .string _ :: args => do
    if protocolMaxStringLength < len then ReadM.fail (.badClient "Too long message received")
    else
      let value ← readBytes len
      let rest ← vreadf fmt args
      return .string value :: rest
  | .spec len .percent :: fmt, args =>
    if len ≠ 0 then ReadM.fail (.badClient "Invalid %% format specifier length")
    else vreadf fmt args
  | .spec _ _ :: _, _ => ReadM.fail (.badClient "Invalid protocol format specifier")

/-- The result of `readf`: the places filled, `none` for false; a bad client is thrown on. -/
def readf (fmt : Bytes) (args : List Arg) : ReadM (Option (List Arg)) := fun s =>
  match vreadf (scanFormat none fmt) args s with
  | (.ok args, s) => (.ok (some args), s)
  | (.error (.badClient what), s) => (.error (.badClient what), s)
  | (.error _, s) => (.ok none, s)

end ProtocolUtil
end Synergy

/-! The messages of the protocol and the sizes of the variables they are read into. -/
namespace Synergy

def kMsgCNoop : Bytes := ascii "CNOP"
def kMsgCClose : Bytes := ascii "CBYE"
def kMsgCEnter : Bytes := ascii "CINN%2i%2i%4i%2i"
def kMsgCLeave : Bytes := ascii "COUT"
def kMsgCClipboard : Bytes := ascii "CCLP%1i%4i"
def kMsgCScreenSaver : Bytes := ascii "CSEC%1i"
def kMsgCResetOptions : Bytes := ascii "CROP"
def kMsgCInfoAck : Bytes := ascii "CIAK"
def kMsgCKeepAlive : Bytes := ascii "CALV"
def kMsgDKeyDownLang : Bytes := ascii "DKDL%2i%2i%2i%s"
def kMsgDKeyDown : Bytes := ascii "DKDN%2i%2i%2i"
def kMsgDKeyRepeat : Bytes := ascii "DKRP%2i%2i%2i%2i%s"
def kMsgDKeyUp : Bytes := ascii "DKUP%2i%2i%2i"
def kMsgDMouseDown : Bytes := ascii "DMDN%1i"
def kMsgDMouseUp : Bytes := ascii "DMUP%1i"
def kMsgDMouseMove : Bytes := ascii "DMMV%2i%2i"
def kMsgDMouseRelMove : Bytes := ascii "DMRM%2i%2i"
def kMsgDMouseWheel : Bytes := ascii "DMWM%2i%2i"
def kMsgDClipboard : Bytes := ascii "DCLP%1i%4i%1i%s"
def kMsgDInfo : Bytes := ascii "DINF%2i%2i%2i%2i%2i%2i%2i"
def kMsgDSetOptions : Bytes := ascii "DSOP%4I"
def kMsgDFileTransfer : Bytes := ascii "DFTR%1i%s"
def kMsgDDragInfo : Bytes := ascii "DDRG%2i%s"
def kMsgDSecureInputNotification : Bytes := ascii "SECN%s"
def kMsgDLanguageSynchronisation : Bytes := ascii "LSYN%s"
def kMsgQInfo : Bytes := ascii "QINF"
def kMsgEIncompatible : Bytes := ascii "EICV%2i%2i"
def kMsgEBusy : Bytes := ascii "EBSY"
def kMsgEUnknown : Bytes := ascii "EUNK"
def kMsgEBad : Bytes := ascii "EBAD"

/-- The code in front of a message. -/
def codeOf (message : Bytes) : Bytes := message.take 4

/-- The value of a 16-bit signed variable that the number is stored in. -/
def int16 (v : Int) : Int := (BitVec.ofInt 16 v).toInt

/-- The same of a 32-bit signed one. -/
def int32 (v : Int) : Int := (BitVec.ofInt 32 v).toInt

end Synergy
