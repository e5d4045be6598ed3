import Synergy.FileTransfer.FileTransferContainment

/-! The sending end of dragged files, and its messages as they reach a receiver. -/
namespace Synergy
open Lib ProtocolUtil

/-- What opens at a path; the size of an open file is a signed 64-bit integer. -/
structure SourceFile where
  content : Bytes
  size_lt : content.length < 2 ^ 63

abbrev SourceFiles := Bytes → Option SourceFile

structure FileTransferEntry where
  path : Bytes
  name : Bytes
  size : Nat := 0
  deriving DecidableEq, Repr

inductive Emission
  | dragInfo (fileCount : Nat) (names : Bytes)
  | chunk (mark : UInt8) (payload : Bytes)
  deriving DecidableEq, Repr

namespace FileTransferSource

def dragInfoPayload (entries : List FileTransferEntry) : Bytes :=
  FileTransferPath.joinNames (entries.map FileTransferEntry.name)

/-- Reads pieces until one is empty; `fuel` bounds their number. -/
def readChunks : Nat → Bytes → List Bytes
  | 0, _ => []
  | fuel + 1, rest =>
    let piece := rest.take FileChunk.chunkSize
    if piece = [] then [] else piece :: readChunks fuel (rest.drop FileChunk.chunkSize)

theorem readChunks_spec {fuel : Nat} {rest : Bytes} (h : rest.length < fuel) :
    (readChunks fuel rest).flatten = rest ∧ ∀ piece ∈ readChunks fuel rest, piece.length ≤ FileChunk.chunkSize := by
  induction fuel generalizing rest with
  | zero => omega
  | succ fuel ih =>
    have hpos : 0 < FileChunk.chunkSize := by decide
    rw [readChunks]
    split
    next hnil =>
      rcases List.take_eq_nil_iff.mp hnil with h0 | hrest
      · omega
      · simp [hrest]
    next hne =>
      have hlen : 0 < rest.length := by
        apply List.length_pos_iff.mpr
        rintro rfl
        exact hne List.take_nil
      have hdrop : (rest.drop FileChunk.chunkSize).length < fuel := by
        rw [List.length_drop]
        omega
      obtain ⟨hflat, hsize⟩ := ih hdrop
      refine ⟨by rw [List.flatten_cons, hflat, List.take_append_drop], ?_⟩
      intro piece hpiece
      rcases List.mem_cons.mp hpiece with rfl | hpiece
      · exact List.length_take_le _ _
      · exact hsize piece hpiece

end FileTransferSource

namespace FileTransferSender
open FileTransferReceiver FileTransferSource

/-- An open file: its size, its pieces, its end. -/
def fileEmissions (content : Bytes) : List Emission :=
  .chunk ChunkType.dataStart (decimal content.length) ::
    ((readChunks (content.length + 1) content).map (.chunk ChunkType.dataChunk) ++ [.chunk ChunkType.dataEnd []])

/-- What is emitted for an entry and how many bytes of content; nothing if it does not open. -/
def sendEntry (files : SourceFiles) (entry : FileTransferEntry) : Nat × List Emission :=
  match files entry.path with
  | none => (0, [])
  | some file => (((readChunks (file.content.length + 1) file.content).map List.length).sum, fileEmissions file.content)

/-- The number of bytes sent, and everything handed to the emitter in order. -/
def send (files : SourceFiles) (entries : List FileTransferEntry) : Nat × List Emission :=
  if entries.isEmpty then (0, [])
  else if 0xFFFF < entries.length then (0, [])
  else
    let sent := entries.map (sendEntry files)
    ((sent.map Prod.fst).sum % 2 ^ 64,
      .dragInfo entries.length (dragInfoPayload entries) :: sent.flatMap Prod.snd)

end FileTransferSender

namespace Emission
open Drop

def fields : Emission → List Field
  | dragInfo fileCount names => [.int 2 fileCount, .string names]
  | chunk mark payload => [.int 1 mark.toNat, .string payload]

/-- The message reaches the receiver: its stream holds the bytes of the emission's body, in
any pieces. A string of 2^32 bytes or more has no encoding and is never delivered; the
count of files may be corrected on the way. -/
inductive Delivers : Emission → DropMessage → Prop
  | dragInfo (fileCount actual : Nat) (names : Bytes) (body : IStream) (hactual : actual < 2 ^ 16)
      (hnames : names.length < 2 ^ 32) (h : body.Holds (bytesOf (Emission.dragInfo actual names).fields)) :
      Delivers (.dragInfo fileCount names) (.dragInfo body)
  | chunk (mark : UInt8) (payload : Bytes) (disk : Disk) (body : IStream)
      (h : body.Holds (bytesOf (Emission.chunk mark payload).fields)) :
      Delivers (.chunk mark payload) (.fileChunk disk body)

end Emission
end Synergy
