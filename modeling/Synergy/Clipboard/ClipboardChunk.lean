import Synergy.Base.Numerals
import Synergy.Protocol.ProtocolUtil

/-! The chunks of a clipboard transfer: how they are laid out, sent and assembled again. -/
namespace Synergy
open Lib ProtocolUtil

def kClipboardEnd : Nat := 2

structure Chunk where
  chunk : Bytes
  dataSize : Nat
  deriving DecidableEq, Repr

namespace ChunkType

def dataStart : UInt8 := 1
def dataChunk : UInt8 := 2
def dataEnd : UInt8 := 3

end ChunkType

inductive TransferState
  | started
  | inProgress
  | finished
  | error
  deriving DecidableEq, Repr

/-- The bytes that `memcpy` copies from a 32-bit integer, and the integer it copies them into. -/
def nativeBytes (v : Nat) : Bytes := (bigEndian 4 v).reverse

def ofNativeBytes (bytes : Bytes) : Nat := ofBigEndian bytes.reverse

structure ClipboardChunkAssemblyState where
  expectedSize : Nat := 0
  active : Bool := false
  deriving DecidableEq, Repr

namespace ClipboardChunk

/-- A chunk of the given kind: the id, the sequence number, the mark, the data and a NUL. -/
def make (id sequence : Nat) (mark : UInt8) (data : Bytes) : Chunk where
  chunk := UInt8.ofNat id :: (nativeBytes sequence ++ mark :: (data ++ [0]))
  dataSize := data.length

def start (id sequence : Nat) (size : Bytes) : Chunk := make id sequence ChunkType.dataStart size
def data (id sequence : Nat) (data : Bytes) : Chunk := make id sequence ChunkType.dataChunk data
def endChunk (id sequence : Nat) : Chunk := make id sequence ChunkType.dataEnd []

def send (clipboardData : Chunk) : Except String Bytes :=
  let chunk := clipboardData.chunk
  let id := chunk.headD 0
  let sequence := ofNativeBytes ((chunk.drop 1).take 4)
  let mark := (chunk.drop 5).headD 0
  let dataChunk := (chunk.drop 6).take clipboardData.dataSize
  writef kMsgDClipboard [.int id.toNat, .int sequence, .int mark.toNat, .string dataChunk]

/-- The outcome of one chunk: what the caller is told and what is kept for the next. -/
structure Assembled where
  transfer : TransferState
  id : Nat
  sequence : Nat
  dataCached : Bytes
  state : ClipboardChunkAssemblyState
  deriving DecidableEq, Repr

def wouldExceed (currentSize extraSize limit : Nat) : Bool :=
  limit < currentSize || limit - currentSize < extraSize

/-- Takes in a chunk that has been read. -/
def accept (dataCached : Bytes) (state : ClipboardChunkAssemblyState) (maxDataSize id sequence mark : Nat)
    (data : Bytes) : Assembled :=
  let error : Assembled := ⟨.error, id, sequence, [], {}⟩
  if kClipboardEnd ≤ id then error
  else if mark = ChunkType.dataStart.toNat then
    match toULongLong (data.map fun b => Char.ofNat b.toNat) with
    | none => error
    | some expected =>
      if maxDataSize < expected then error
      else ⟨.started, id, sequence, [], { expectedSize := expected, active := true }⟩
  else if mark = ChunkType.dataChunk.toNat then
    if !state.active then error
    else if wouldExceed dataCached.length data.length state.expectedSize then error
    else ⟨.inProgress, id, sequence, dataCached ++ data, state⟩
  else if mark = ChunkType.dataEnd.toNat then
    if !state.active then error
    else if state.expectedSize ≠ dataCached.length then error
    else ⟨.finished, id, sequence, dataCached, { state with active := false }⟩
  else error

/-- Reads the body of a chunk message and takes it in. The id and the sequence number of
a message that cannot be read are of no meaning. -/
def assemble (dataCached : Bytes) (state : ClipboardChunkAssemblyState) (maxDataSize : Nat) : ReadM Assembled := do
  match ← readf (kMsgDClipboard.drop 4) [.int 0, .int 0, .int 0, .string []] with
  | some [.int id, .int sequence, .int mark, .string data] =>
    return accept dataCached state maxDataSize id sequence mark data
  | _ => return ⟨.error, 0, 0, [], {}⟩

end ClipboardChunk

namespace StreamChunker

def chunkSize : Nat := 64 * 1024

/-- The loop that cuts the data; `fuel` bounds the chunks. -/
def sendLoop (data : Bytes) (size : Nat) : Nat → Nat → Nat → List Bytes
  | 0, _, _ => []
  | fuel + 1, sentLength, chunkSize =>
    let chunkSize := if size < sentLength + chunkSize then size - sentLength else chunkSize
    let chunk := (data.drop sentLength).take chunkSize
    let sentLength := sentLength + chunkSize
    chunk :: (if sentLength = size then [] else sendLoop data size fuel sentLength chunkSize)

/-- The chunks queued for a clipboard: its size, its data in pieces, its end. -/
def sendClipboard (data : Bytes) (size id sequence : Nat) : List Chunk :=
  ClipboardChunk.start id sequence ((Nat.toDigits 10 size).map byte) ::
    ((sendLoop data size (size + 1) 0 chunkSize).map (ClipboardChunk.data id sequence) ++
      [ClipboardChunk.endChunk id sequence])

end StreamChunker

theorem length_digits {n : Nat} (h : n < 2 ^ 64) : ((Nat.toDigits 10 n).map byte).length ≤ protocolMaxStringLength := by
  have hl : (Nat.toDigits 10 n).length ≤ 20 := (Nat.length_toDigits_le_iff (by decide) (by decide)).mpr (by omega)
  rw [List.length_map]
  exact hl.trans (by decide)

theorem chars_of_digits (n : Nat) :
    ((Nat.toDigits 10 n).map byte).map (fun b => Char.ofNat b.toNat) = Nat.toDigits 10 n := by
  rw [List.map_map]
  refine (List.map_congr_left fun c hc => ?_).trans (List.map_id _)
  have hd := isDigit_of_mem_toDigits (b := 10) (by decide) (by decide) n c hc
  have hlt : c.toNat < 256 := by
    simp only [isDigit, Bool.and_eq_true, Bool.or_eq_true, decide_eq_true_eq] at hd
    omega
  rw [Function.comp_apply, byte, UInt8.toNat_ofNat', Nat.mod_eq_of_lt hlt, Char.ofNat_toNat]
  rfl

end Synergy
