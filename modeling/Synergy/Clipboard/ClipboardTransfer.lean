import Synergy.Clipboard.Clipboard
import Synergy.Clipboard.ClipboardChunk
import Synergy.Protocol.ProtocolRoundTrip

/-! A clipboard from one end of a connection to the other: marshalled, cut into chunks,
sent, assembled and unmarshalled. -/
namespace Synergy
open Lib ProtocolUtil ClipboardChunk StreamChunker
namespace ClipboardTransfer

/-- The receiving end of a number of chunk messages: the code of each is read and its
body assembled; the calls' outcomes in order, and what is cached at the end. -/
def receiveAll (maxDataSize : Nat) : Nat → Bytes → ClipboardChunkAssemblyState →
    ReadM (List (TransferState × Nat × Nat) × Bytes)
  | 0, dataCached, _ => pure ([], dataCached)
  | n + 1, dataCached, state => do
    let _ ← read 4
    let r ← assemble dataCached state maxDataSize
    let (more, dataCached) ← receiveAll maxDataSize n r.dataCached r.state
    return ((r.transfer, r.id, r.sequence) :: more, dataCached)

def bodyFields (id sequence mark : Nat) (data : Bytes) : List Field :=
  [.int 1 id, .int 4 sequence, .int 1 mark, .string data]

def messageFields (id sequence mark : Nat) (data : Bytes) : List Field :=
  (ascii "DCLP").map Field.literal ++ bodyFields id sequence mark data

/-- The message of a chunk as it is sent. -/
def chunkMessage (id sequence mark : Nat) (data : Bytes) : Bytes :=
  ascii "DCLP" ++ bytesOf (bodyFields id sequence mark data)

private theorem bytesOf_messageFields (id sequence mark : Nat) (data : Bytes) :
    bytesOf (messageFields id sequence mark data) = chunkMessage id sequence mark data := by
  rw [messageFields, bytesOf, List.flatMap_append, List.flatMap_map]
  rfl

private theorem valid_messageFields {id sequence mark : Nat} {data : Bytes} (hid : id < 256) (hseq : sequence < 2 ^ 32)
    (hmark : mark < 256) (hdata : data.length ≤ protocolMaxStringLength) :
    ∀ f ∈ messageFields id sequence mark data, f.Valid := by
  intro f hf
  rcases List.mem_append.mp hf with hf | hf
  · have hall : ∀ f ∈ (ascii "DCLP").map Field.literal, f.Valid := by decide
    exact hall f hf
  · simp only [bodyFields, List.mem_cons, List.not_mem_nil, or_false] at hf
    rcases hf with rfl | rfl | rfl | rfl
    · exact ⟨.inl rfl, hid⟩
    · exact ⟨.inr (.inr rfl), hseq⟩
    · exact ⟨.inl rfl, hmark⟩
    · exact hdata

/-- `send` reads back the parts that a chunk was made of. -/
private theorem send_args {id sequence : Nat} (mark : UInt8) (data : Bytes) (hid : id < 256)
    (hseq : sequence < 2 ^ 32) :
    send (make id sequence mark data) = writef (formatOf (messageFields id sequence mark.toNat data))
      (argsOf (messageFields id sequence mark.toNat data)) := by
  have hnative : (nativeBytes sequence).length = 4 := by simp [nativeBytes]
  have hid' : (UInt8.ofNat id).toNat = id := by
    rw [UInt8.toNat_ofNat', Nat.mod_eq_of_lt hid]
  have hseq' : ofNativeBytes (nativeBytes sequence) = sequence := by
    rw [ofNativeBytes, nativeBytes, List.reverse_reverse, ofBigEndian_bigEndian_of_lt (by omega)]
  have hfive : (nativeBytes sequence ++ mark :: (data ++ [0])).drop 4 = mark :: (data ++ [0]) :=
    List.drop_left' hnative
  have hsix : (nativeBytes sequence ++ mark :: (data ++ [0])).drop 5 = data ++ [0] := by
    rw [show 5 = 4 + 1 from rfl, ← List.drop_drop, hfive]
    rfl
  simp only [send, make, List.headD_cons, List.drop_succ_cons, List.drop_zero, List.take_left' hnative, hid', hseq',
    hfive, hsix, List.take_left]
  rfl

/-- What `send` writes for a chunk: its code and its fields. -/
theorem send_make {id sequence : Nat} {mark : UInt8} {data : Bytes} (hid : id < 256) (hseq : sequence < 2 ^ 32)
    (hdata : data.length ≤ protocolMaxStringLength) :
    send (make id sequence mark data) = .ok (chunkMessage id sequence mark.toNat data) := by
  have hvalid := valid_messageFields hid hseq mark.toNat_lt hdata
  have hlen : (bytesOf (messageFields id sequence mark.toNat data)).length < 2 ^ 32 := by
    unfold protocolMaxStringLength at hdata
    rw [bytesOf_messageFields]
    simp [chunkMessage, bytesOf, bodyFields, Field.bytes, ascii]
    omega
  rw [send_args mark data hid hseq, writef_fields fun f hf => (hvalid f hf).encodable, Nat.mod_eq_of_lt hlen, List.take_length,
    bytesOf_messageFields]

/-- Receiving one sent chunk takes its bytes and hands its fields to `accept`. -/
theorem reads_assemble {id sequence mark : Nat} {data : Bytes} (hid : id < 256) (hseq : sequence < 2 ^ 32)
    (hmark : mark < 256) (hdata : data.length ≤ protocolMaxStringLength) (dataCached : Bytes)
    (state : ClipboardChunkAssemblyState) (maxDataSize : Nat) :
    Reads (assemble dataCached state maxDataSize) (bytesOf (bodyFields id sequence mark data))
      (accept dataCached state maxDataSize id sequence mark data) := by
  have hvalid : ∀ f ∈ bodyFields id sequence mark data, f.Valid := fun f hf =>
    valid_messageFields hid hseq hmark hdata f (List.mem_append_right _ hf)
  unfold assemble
  exact (reads_readf hvalid).last (Reads.pure _)

/-- One chunk received, then the rest from where it leaves the assembly. -/
theorem reads_receive_cons {id sequence mark n maxDataSize : Nat} {data more dataCached cached : Bytes}
    {state : ClipboardChunkAssemblyState} {results : List (TransferState × Nat × Nat)} {r : Assembled}
    (hid : id < 256) (hseq : sequence < 2 ^ 32) (hmark : mark < 256) (hdata : data.length ≤ protocolMaxStringLength)
    (hacc : accept dataCached state maxDataSize id sequence mark data = r)
    (hrest : Reads (receiveAll maxDataSize n r.dataCached r.state) more (results, cached)) :
    Reads (receiveAll maxDataSize (n + 1) dataCached state)
      (chunkMessage id sequence mark data ++ more)
      ((r.transfer, r.id, r.sequence) :: results, cached) := by
  have hcode : Reads (read 4) (ascii "DCLP") (ascii "DCLP") := reads_read (ascii "DCLP")
  have hbody := reads_assemble hid hseq hmark hdata dataCached state maxDataSize
  rw [hacc] at hbody
  have hlast := hrest.map fun x => ((r.transfer, r.id, r.sequence) :: x.1, x.2)
  rw [chunkMessage, List.append_assoc]
  exact hcode.bind (hbody.bind hlast)

/-- The loop cuts all that is left of the data into chunks of the given size at most. -/
theorem sendLoop_spec (data : Bytes) (fuel : Nat) {sentLength chunkSize : Nat} (hc : 0 < chunkSize)
    (hs : sentLength ≤ data.length) (hf : data.length - sentLength < fuel) :
    (sendLoop data data.length fuel sentLength chunkSize).flatten = data.drop sentLength ∧
      ∀ chunk ∈ sendLoop data data.length fuel sentLength chunkSize, chunk.length ≤ chunkSize := by
  induction fuel generalizing sentLength with
  | zero => omega
  | succ fuel ih =>
    rw [sendLoop]
    by_cases hlast : data.length < sentLength + chunkSize
    · have hend : sentLength + (data.length - sentLength) = data.length := by omega
      simp only [if_pos hlast, hend, if_true, List.flatten_cons, List.flatten_nil, List.append_nil,
        List.mem_singleton, forall_eq]
      rw [List.take_of_length_le (by simp)]
      exact ⟨rfl, by rw [List.length_drop]; omega⟩
    · simp only [if_neg hlast]
      by_cases hend : sentLength + chunkSize = data.length
      · simp only [if_pos hend, List.flatten_cons, List.flatten_nil, List.append_nil, List.mem_singleton, forall_eq]
        rw [List.take_of_length_le (by rw [List.length_drop]; omega)]
        exact ⟨rfl, by rw [List.length_drop]; omega⟩
      · have hnext : sentLength + chunkSize ≤ data.length := not_lt.mp hlast
        obtain ⟨hflat, hsize⟩ := ih hnext (by omega)
        rw [if_neg hend, List.flatten_cons, hflat, ← List.drop_drop, List.take_append_drop]
        refine ⟨rfl, fun chunk hchunk => ?_⟩
        rcases List.mem_cons.mp hchunk with rfl | hchunk
        · exact List.length_take_le _ _
        · exact hsize chunk hchunk

/-- Data chunks that fit the announced size are all taken in, and then the end. -/
theorem reads_receive_data {id sequence : Nat} (hid : id < kClipboardEnd) (hseq : sequence < 2 ^ 32)
    (maxDataSize expectedSize : Nat) (pieces : List Bytes) (hp : ∀ p ∈ pieces, p.length ≤ protocolMaxStringLength)
    (dataCached : Bytes) (htotal : (dataCached ++ pieces.flatten).length = expectedSize) :
    Reads (receiveAll maxDataSize (pieces.length + 1) dataCached ⟨expectedSize, true⟩)
      ((pieces.map (chunkMessage id sequence ChunkType.dataChunk.toNat)).flatten ++
        chunkMessage id sequence ChunkType.dataEnd.toNat [])
      (List.replicate pieces.length (.inProgress, id, sequence) ++ [(.finished, id, sequence)],
        dataCached ++ pieces.flatten) := by
  have hid' : id < 256 := by
    unfold kClipboardEnd at hid
    omega
  induction pieces generalizing dataCached with
  | nil =>
    rw [List.flatten_nil, List.append_nil] at htotal
    have hacc : accept dataCached ⟨expectedSize, true⟩ maxDataSize id sequence ChunkType.dataEnd.toNat [] =
        ⟨.finished, id, sequence, dataCached, ⟨expectedSize, false⟩⟩ := by
      simp [accept, ChunkType.dataStart, ChunkType.dataChunk, ChunkType.dataEnd, htotal, not_le.mpr hid]
    have hlast : Reads (receiveAll maxDataSize 0 dataCached ⟨expectedSize, false⟩) [] ([], dataCached) := Reads.pure _
    simpa using reads_receive_cons hid' hseq (by decide) (by simp) hacc hlast
  | cons p pieces ih =>
    rw [List.flatten_cons, ← List.append_assoc] at htotal
    have hfits : wouldExceed dataCached.length p.length expectedSize = false := by
      simp only [List.length_append] at htotal
      simp only [wouldExceed, Bool.or_eq_false_iff, decide_eq_false_iff_not]
      omega
    have hacc : accept dataCached ⟨expectedSize, true⟩ maxDataSize id sequence ChunkType.dataChunk.toNat p =
        ⟨.inProgress, id, sequence, dataCached ++ p, ⟨expectedSize, true⟩⟩ := by
      simp [accept, ChunkType.dataStart, ChunkType.dataChunk, hfits, not_le.mpr hid]
    have hrest := ih (fun q hq => hp q (by simp [hq])) (dataCached ++ p) htotal
    have hall := reads_receive_cons hid' hseq (by decide) (hp p (by simp)) hacc hrest
    rw [List.map_cons, List.flatten_cons, List.flatten_cons, List.append_assoc, ← List.append_assoc dataCached]
    exact hall

/-- What the receiver of a clipboard should see: every chunk within the string limit, a
start, pieces in progress and a finish under the sender's id and sequence number, the
marshalled bytes in the cache, and in them the clipboard's formats and data. -/
def Arrives (c : Clipboard) (id sequence maxDataSize : Nat) (dataCached : Bytes)
    (state : ClipboardChunkAssemblyState) (receiver : Clipboard) (time : Nat) : Prop :=
  ∃ messages n cached received,
    (sendClipboard c.marshall c.marshall.length id sequence).mapM send = .ok messages ∧
    (∀ chunk ∈ sendClipboard c.marshall c.marshall.length id sequence, chunk.dataSize ≤ protocolMaxStringLength) ∧
    Reads (receiveAll maxDataSize messages.length dataCached state) messages.flatten
      ((.started, id, sequence) :: (List.replicate n (.inProgress, id, sequence) ++ [(.finished, id, sequence)]),
        cached) ∧
    cached = c.marshall ∧ receiver.unmarshall cached time = some received ∧ received.data = c.data

private theorem mapM_send {id sequence : Nat} (hid : id < 256) (hseq : sequence < 2 ^ 32) (mark : UInt8)
    {pieces : List Bytes} (hp : ∀ p ∈ pieces, p.length ≤ protocolMaxStringLength) :
    (pieces.map (make id sequence mark)).mapM send =
      .ok (pieces.map (chunkMessage id sequence mark.toNat)) := by
  induction pieces with
  | nil => rfl
  | cons p pieces ih =>
    rw [List.map_cons, List.mapM_cons, send_make hid hseq (hp p (by simp)), ih fun q hq => hp q (by simp [hq])]
    rfl

/-- A clipboard whose marshalled size is within the receiver's limit and below 2^32 arrives. -/
theorem clipboard_arrives (c : Clipboard) {id sequence maxDataSize : Nat} (hid : id < kClipboardEnd)
    (hseq : sequence < 2 ^ 32) (hlimit : c.marshall.length ≤ maxDataSize) (hsize : c.marshall.length < 2 ^ 32)
    (dataCached : Bytes) (state : ClipboardChunkAssemblyState) (receiver : Clipboard) (time : Nat) :
    Arrives c id sequence maxDataSize dataCached state receiver time := by
  have hid' : id < 256 := by
    unfold kClipboardEnd at hid
    omega
  obtain ⟨pieces, hpieces⟩ : ∃ pieces, pieces = sendLoop c.marshall c.marshall.length (c.marshall.length + 1) 0
    StreamChunker.chunkSize := ⟨_, rfl⟩
  obtain ⟨hflat, hp⟩ := sendLoop_spec c.marshall (c.marshall.length + 1) (by decide : 0 < StreamChunker.chunkSize)
    (Nat.zero_le c.marshall.length) (by omega)
  rw [← hpieces] at hflat hp
  rw [List.drop_zero] at hflat
  have hdecimal := length_digits (hsize.trans (by decide))
  have hstart : accept dataCached state maxDataSize id sequence ChunkType.dataStart.toNat
      ((Nat.toDigits 10 c.marshall.length).map byte) =
      ⟨.started, id, sequence, [], ⟨c.marshall.length, true⟩⟩ := by
    have hnum := toULongLong_toDigits (hsize.trans (by decide))
    rw [accept, if_neg (not_le.mpr hid), if_pos rfl, chars_of_digits, hnum]
    simp [not_lt.mpr hlimit]
  have hdata := reads_receive_data hid hseq maxDataSize c.marshall.length pieces hp [] (by rw [List.nil_append, hflat])
  have hall := reads_receive_cons hid' hseq (by decide) hdecimal hstart hdata
  rw [List.nil_append, hflat] at hall
  obtain ⟨received, hun, hreceived⟩ := Clipboard.unmarshall_marshall c receiver time hsize
  refine ⟨chunkMessage id sequence ChunkType.dataStart.toNat ((Nat.toDigits 10 c.marshall.length).map byte) ::
    (pieces.map (chunkMessage id sequence ChunkType.dataChunk.toNat) ++
      [chunkMessage id sequence ChunkType.dataEnd.toNat []]), pieces.length, c.marshall, received, ?_, ?_, ?_, rfl,
    hun, hreceived⟩
  · have hend : send (make id sequence ChunkType.dataEnd []) =
        .ok (chunkMessage id sequence ChunkType.dataEnd.toNat []) := send_make hid' hseq (Nat.zero_le _)
    rw [sendClipboard, ← hpieces, List.mapM_cons, start, send_make hid' hseq hdecimal, List.mapM_append,
      show ClipboardChunk.data id sequence = make id sequence ChunkType.dataChunk from rfl,
      mapM_send hid' hseq ChunkType.dataChunk hp, List.mapM_cons, endChunk, hend]
    rfl
  · intro chunk hchunk
    rw [sendClipboard, ← hpieces] at hchunk
    rcases List.mem_cons.mp hchunk with rfl | hchunk
    · exact hdecimal
    rcases List.mem_append.mp hchunk with hchunk | hchunk
    · obtain ⟨p, hpmem, rfl⟩ := List.mem_map.mp hchunk
      exact hp p hpmem
    · obtain rfl := List.mem_singleton.mp hchunk
      exact Nat.zero_le _
  · simpa using hall

theorem clipboard_arrives_text :
    let c : Clipboard := { data := Function.update (fun _ => none) .text (some [104, 105]) }
    Arrives c 1 7 100 [1, 2, 3] ⟨3, true⟩ {} 0 :=
  clipboard_arrives _ (by decide) (by decide) (by decide) (by decide) [1, 2, 3] ⟨3, true⟩ {} 0

/-- A text whose size was written as 0 comes out empty. -/
private theorem unmarshall_size_zero (value : Bytes) :
    ∃ t, ({} : Clipboard).unmarshall ([0, 0, 0, 1, 0, 0, 0, 0, 0, 0, 0, 0] ++ value) 0 = some t ∧
      t.data .text = some [] := by
  have hcount : Clipboard.readUInt32 ([0, 0, 0, 1, 0, 0, 0, 0, 0, 0, 0, 0] ++ value) = 1 := rfl
  have hread : Clipboard.readFormats 1 ([0, 0, 0, 0, 0, 0, 0, 0] ++ value) = [(0, [])] := by
    have hformat : Clipboard.readUInt32 ([0, 0, 0, 0, 0, 0, 0, 0] ++ value) = 0 := rfl
    have hsize : Clipboard.readUInt32 (([0, 0, 0, 0, 0, 0, 0, 0] ++ value).drop 4) = 0 := rfl
    rw [Clipboard.readFormats, hformat, hsize, if_neg (by simp)]
    simp [Clipboard.formatOf, Clipboard.readFormats]
  have hdrop : ([0, 0, 0, 1, 0, 0, 0, 0, 0, 0, 0, 0] ++ value).drop 4 = [0, 0, 0, 0, 0, 0, 0, 0] ++ value := rfl
  rw [Clipboard.unmarshall, if_neg (by simp), hcount, hdrop, hread]
  exact ⟨_, rfl, rfl⟩

/-- A text of 2^32 bytes, within a receiver's limit of 2^33, does not arrive: its size
is written modulo 2^32. -/
theorem long_text_does_not_arrive :
    ¬ ∀ (c : Clipboard) (id sequence maxDataSize : Nat), id < kClipboardEnd → sequence < 2 ^ 32 →
      c.marshall.length ≤ maxDataSize →
      ∀ dataCached state receiver time, Arrives c id sequence maxDataSize dataCached state receiver time := by
  intro hall
  obtain ⟨value, hvalue⟩ : ∃ value : Bytes, value.length = 2 ^ 32 :=
    ⟨List.replicate (2 ^ 32) 0, List.length_replicate⟩
  let c : Clipboard := { data := Function.update (fun _ => none) .text (some value) }
  have hmarshall : c.marshall = [0, 0, 0, 1, 0, 0, 0, 0, 0, 0, 0, 0] ++ value := by
    have hentries : c.entries = [(.text, value)] := by
      simp [c, Clipboard.entries, ClipboardFormat.all, Function.update]
    have hsize : Clipboard.writeUInt32 value.length = [0, 0, 0, 0] := by
      rw [hvalue]
      decide
    have hone : Clipboard.writeUInt32 1 = [0, 0, 0, 1] := by decide
    have hzero : Clipboard.writeUInt32 0 = [0, 0, 0, 0] := by decide
    rw [Clipboard.marshall_entries, hentries, List.flatMap_cons, List.flatMap_nil, hsize, List.append_nil]
    simp [ClipboardFormat.toNat, hone, hzero]
  have hlimit : c.marshall.length ≤ 2 ^ 33 := by
    rw [hmarshall, List.length_append, hvalue]
    decide
  obtain ⟨_, _, cached, received, -, -, -, rfl, hun, hdata⟩ :=
    hall c 0 0 (2 ^ 33) (by decide) (by decide) hlimit [] {} {} 0
  obtain ⟨t, ht, htext⟩ := unmarshall_size_zero value
  rw [hmarshall, ht] at hun
  obtain rfl := Option.some.inj hun
  rw [hdata] at htext
  have hnil : value = [] := by simpa [c] using htext
  rw [hnil] at hvalue
  simp at hvalue

end ClipboardTransfer
end Synergy
