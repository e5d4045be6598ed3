import Synergy.Clipboard.AssembledClipboards
import Synergy.FileTransfer.ReadableTransfer

/-! Which messages make up the file that is assembled, and that every file within the limit is. -/
namespace Synergy
open Lib ProtocolUtil
namespace FileChunk
variable {maxFileSize : Nat} {dataCached : Bytes} {state : FileTransferAssemblyState}

/-- The fields of a chunk message. -/
structure Message where
  mark : Nat
  data : Bytes
  deriving DecidableEq, Repr

def Message.ofArgs : Option (List Arg) → Option Message
  | some [.int mark, .string data] => some ⟨mark, data⟩
  | _ => none

/-- The message that a call of `assemble` reads, `none` for one that is not all there. -/
def readMessage : ReadM (Option Message) :=
  Message.ofArgs <$> readf (kMsgDFileTransfer.drop 4) [.int 0, .string []]

/-- The number that the data of a start chunk says. -/
def Message.size (m : Message) : Option Nat := toULongLong (m.data.map fun b => Char.ofNat b.toNat)

/-- The calls of `assemble` from a new state on, each with its message and what it returned. The caller
takes the data, and clears it, only when no transfer is active. -/
inductive Fed (maxFileSize : Nat) : List (Option Message × TransferState) → Bytes → FileTransferAssemblyState → Prop
  | fresh : Fed maxFileSize [] [] {}
  | message {h : List (Option Message × TransferState)} {dataCached : Bytes} {state : FileTransferAssemblyState}
      {s s' : IStream} {m : Option Message} {r : Assembled} : Fed maxFileSize h dataCached state →
      readMessage s = (.ok m, s') → assemble dataCached state maxFileSize s = (.ok r, s') →
      Fed maxFileSize (h ++ [(m, r.transfer)]) r.dataCached r.state
  | taken {h : List (Option Message × TransferState)} {dataCached : Bytes} {state : FileTransferAssemblyState} :
      Fed maxFileSize h dataCached state → state.active = false → Fed maxFileSize h [] state

/-- The messages since the last error or finish. -/
def sinceReset (h : List (Option Message × TransferState)) : List (Option Message) :=
  (h.rtakeWhile fun x => decide (x.2 = .started ∨ x.2 = .inProgress)).map Prod.fst

/-- The part of a transfer that a message is. -/
def part : Option Message → Assembly.Part UInt8
  | none => .invalid
  | some m =>
    if m.mark = ChunkType.dataStart.toNat then
      match m.size with
      | none => .invalid
      | some declared => .start declared
    else if m.mark = ChunkType.dataChunk.toNat then .data m.data
    else if m.mark = ChunkType.dataEnd.toNat then .finish
    else .invalid

/-- The transfer that is open. -/
def opened (dataCached : Bytes) (state : FileTransferAssemblyState) : Option (Assembly.Opened UInt8) :=
  if state.active then some ⟨state.expectedSize, dataCached⟩ else none

/-- What is left by a call: the cached data is within the declared size, that within the limit, and an error
leaves nothing. -/
structure Accepted (maxFileSize : Nat) (dataCached : Bytes) (state : FileTransferAssemblyState) (m : Option Message)
    (r : Assembled) : Prop where
  simulates : Assembly.take maxFileSize false (opened dataCached state) (part m) =
    (r.transfer.reply, opened r.dataCached r.state)
  within : dataCached.length ≤ state.expectedSize → r.dataCached.length ≤ r.state.expectedSize
  limited : state.expectedSize ≤ maxFileSize → r.state.expectedSize ≤ maxFileSize
  reset : r.transfer = .error → r.dataCached = [] ∧ r.state = {}
  done : r.transfer = .finished → r.dataCached = dataCached

private theorem Accepted.failed {m : Option Message}
    (h : Assembly.take maxFileSize false (opened dataCached state) (part m) = (.error, none)) :
    Accepted maxFileSize dataCached state m ⟨.error, [], {}⟩ where
  simulates := h
  within _ := Nat.le_refl 0
  limited _ := Nat.zero_le _
  reset _ := ⟨rfl, rfl⟩
  done hf := by cases hf

private theorem wouldExceed_iff {currentSize extraSize limit : Nat} :
    wouldExceed currentSize extraSize limit = true ↔ limit < currentSize + extraSize := by
  simp only [wouldExceed, Bool.or_eq_true, decide_eq_true_eq]
  omega

private theorem opened_inactive (h : state.active = false) : opened dataCached state = none := by simp [opened, h]

private theorem opened_active (h : state.active = true) :
    opened dataCached state = some ⟨state.expectedSize, dataCached⟩ := by simp [opened, h]

private theorem accept_start {m : Message} (hmark : m.mark = ChunkType.dataStart.toNat) :
    Accepted maxFileSize dataCached state (some m) (accept dataCached state maxFileSize m.mark m.data) := by
  have hpart : part (some m) = .invalid ∨ ∃ declared, part (some m) = .start declared := by
    rw [part, if_pos hmark]
    cases m.size with
    | none => exact .inl rfl
    | some declared => exact .inr ⟨declared, rfl⟩
  rw [accept, if_pos hmark]
  cases hactive : state.active with
  | true =>
    refine .failed ?_
    rw [opened_active hactive]
    rcases hpart with hpart | ⟨declared, hpart⟩ <;> rw [hpart]
    · rfl
    · simp [Assembly.take]
  | false =>
    cases hsize : m.size with
    | none =>
      have hinvalid : part (some m) = .invalid := by simp [part, hmark, hsize]
      simp only [Bool.false_eq_true, if_false, show toULongLong _ = none from hsize]
      exact .failed (by rw [hinvalid]; rfl)
    | some declared =>
      have hdeclared : part (some m) = .start declared := by simp [part, hmark, hsize]
      simp only [Bool.false_eq_true, if_false, show toULongLong _ = some declared from hsize]
      by_cases hlimit : maxFileSize < declared
      · rw [if_pos hlimit]
        exact .failed (by simp [hdeclared, Assembly.take, hlimit])
      · rw [if_neg hlimit]
        refine ⟨?_, fun _ => Nat.zero_le _, fun _ => not_lt.mp hlimit, fun hf => (by cases hf), fun hf => (by cases hf)⟩
        simp [hdeclared, Assembly.take, hlimit, TransferState.reply, opened, hactive]

private theorem accept_data {m : Message} (hmark : m.mark = ChunkType.dataChunk.toNat) :
    Accepted maxFileSize dataCached state (some m) (accept dataCached state maxFileSize m.mark m.data) := by
  have hstart : m.mark ≠ ChunkType.dataStart.toNat := by rw [hmark]; decide
  have hpart : part (some m) = .data m.data := by rw [part, if_neg hstart, if_pos hmark]
  rw [accept, if_neg hstart, if_pos hmark]
  cases hactive : state.active with
  | false => exact .failed (by rw [hpart, opened_inactive hactive]; rfl)
  | true =>
    by_cases hlong : wouldExceed dataCached.length m.data.length state.expectedSize = true
    · rw [if_neg (by decide), if_pos hlong]
      refine .failed ?_
      rw [wouldExceed_iff, ← List.length_append] at hlong
      rw [hpart, opened_active hactive, Assembly.take, if_pos hlong]
    · rw [if_neg (by decide), if_neg hlong]
      rw [wouldExceed_iff, ← List.length_append] at hlong
      refine ⟨?_, fun _ => not_lt.mp hlong, id, fun hf => (by cases hf), fun hf => (by cases hf)⟩
      rw [hpart, opened_active hactive, opened_active hactive, Assembly.take, if_neg hlong, TransferState.reply]

private theorem accept_end {m : Message} (hmark : m.mark = ChunkType.dataEnd.toNat) :
    Accepted maxFileSize dataCached state (some m) (accept dataCached state maxFileSize m.mark m.data) := by
  have hstart : m.mark ≠ ChunkType.dataStart.toNat := by rw [hmark]; decide
  have hdata : m.mark ≠ ChunkType.dataChunk.toNat := by rw [hmark]; decide
  have hpart : part (some m) = .finish := by rw [part, if_neg hstart, if_neg hdata, if_pos hmark]
  rw [accept, if_neg hstart, if_neg hdata, if_pos hmark]
  cases hactive : state.active with
  | false => exact .failed (by rw [hpart, opened_inactive hactive]; rfl)
  | true =>
    by_cases hall : dataCached.length = state.expectedSize
    · rw [if_neg (by decide), if_neg (not_not.mpr hall.symm)]
      refine ⟨?_, id, id, fun hf => (by cases hf), fun _ => rfl⟩
      rw [hpart, opened_active hactive, opened_inactive rfl, Assembly.take, if_pos hall, TransferState.reply]
    · rw [if_neg (by decide), if_pos (Ne.symm hall)]
      exact .failed (by rw [hpart, opened_active hactive, Assembly.take, if_neg hall])

theorem accept_accepted (m : Message) :
    Accepted maxFileSize dataCached state (some m) (accept dataCached state maxFileSize m.mark m.data) := by
  by_cases hstart : m.mark = ChunkType.dataStart.toNat
  · exact accept_start hstart
  by_cases hdata : m.mark = ChunkType.dataChunk.toNat
  · exact accept_data hdata
  by_cases hend : m.mark = ChunkType.dataEnd.toNat
  · exact accept_end hend
  · rw [accept, if_neg hstart, if_neg hdata, if_neg hend]
    exact .failed (by simp [part, hstart, hdata, hend, Assembly.take])

theorem assemble_accepted {s s' : IStream} {r : Assembled}
    (h : assemble dataCached state maxFileSize s = (.ok r, s')) :
    ∃ m, readMessage s = (.ok m, s') ∧ Accepted maxFileSize dataCached state m r := by
  have hinvalid : Accepted maxFileSize dataCached state none ⟨.error, [], {}⟩ := .failed rfl
  obtain ⟨args, s₁, hread, hrest⟩ := ReadM.bind_eq_ok h
  have hmessage : readMessage s = (.ok (Message.ofArgs args), s₁) := ReadM.bind_ok hread _
  split at hrest
  next mark data =>
    obtain ⟨heq, rfl⟩ := Prod.mk.inj hrest
    rw [← Except.ok.inj heq]
    exact ⟨_, hmessage, accept_accepted ⟨mark, data⟩⟩
  next hother =>
    obtain ⟨heq, rfl⟩ := Prod.mk.inj hrest
    rw [← Except.ok.inj heq]
    have hnone : Message.ofArgs args = none := by
      unfold Message.ofArgs
      split
      next => exact absurd rfl (hother _ _)
      next => rfl
    exact ⟨_, hnone ▸ hmessage, hinvalid⟩

/-- The calls take in the parts of the messages, one after the other. -/
theorem Fed.run {h : List (Option Message × TransferState)} (hfed : Fed maxFileSize h dataCached state) :
    Assembly.Run maxFileSize false (h.map fun x => (part x.1, x.2.reply)) (opened dataCached state) := by
  induction hfed with
  | fresh => exact .nil
  | @message h dataCached state s s' m r hfed hread hcall ih =>
    obtain ⟨m', hread', hacc⟩ := assemble_accepted hcall
    obtain rfl : m = m' := by simpa [hread] using hread'
    have hsnoc := ih.snoc (part m)
    rw [hacc.simulates] at hsnoc
    rwa [List.map_append, List.map_singleton]
  | @taken h dataCached state hfed hidle ih =>
    rw [opened_inactive hidle] at ih ⊢
    exact ih

theorem Fed.bounded {h : List (Option Message × TransferState)} (hfed : Fed maxFileSize h dataCached state) :
    dataCached.length ≤ state.expectedSize ∧ state.expectedSize ≤ maxFileSize := by
  induction hfed with
  | fresh => exact ⟨Nat.le_refl 0, Nat.zero_le _⟩
  | message hfed hread hcall ih =>
    obtain ⟨m, -, hacc⟩ := assemble_accepted hcall
    exact ⟨hacc.within ih.1, hacc.limited ih.2⟩
  | taken hfed hidle ih => exact ⟨Nat.zero_le _, ih.2⟩

private theorem part_start_iff {m : Option Message} {n : Nat} :
    part m = .start n ↔ ∃ x, m = some x ∧ x.mark = ChunkType.dataStart.toNat ∧ x.size = some n := by
  constructor
  · intro h
    unfold part at h
    split at h
    next => cases h
    next x =>
      split_ifs at h with hstart hdata hend
      · split at h
        next => cases h
        next declared hsize => exact ⟨x, rfl, hstart, by rw [hsize, Assembly.Part.start.inj h]⟩
  · rintro ⟨x, rfl, hmark, hsize⟩
    simp [part, hmark, hsize]

private theorem part_data_iff {m : Option Message} {xs : Bytes} :
    part m = .data xs ↔ ∃ x, m = some x ∧ x.mark = ChunkType.dataChunk.toNat ∧ x.data = xs := by
  constructor
  · intro h
    unfold part at h
    split at h
    next => cases h
    next x =>
      split_ifs at h with hstart hdata hend
      · split at h <;> cases h
      · exact ⟨x, rfl, hdata, Assembly.Part.data.inj h⟩
  · rintro ⟨x, rfl, hmark, rfl⟩
    simp [part, hmark, ChunkType.dataStart, ChunkType.dataChunk]

private theorem part_finish_iff {m : Option Message} :
    part m = .finish ↔ ∃ x, m = some x ∧ x.mark = ChunkType.dataEnd.toNat := by
  constructor
  · intro h
    unfold part at h
    split at h
    next => cases h
    next x =>
      split_ifs at h with hstart hdata hend
      · split at h <;> cases h
      · exact ⟨x, rfl, hend⟩
  · rintro ⟨x, rfl, hmark⟩
    simp [part, hmark, ChunkType.dataStart, ChunkType.dataChunk, ChunkType.dataEnd]

private theorem parts_data_iff {ms : List (Option Message)} {pieces : List Bytes} :
    ms.map part = pieces.map .data ↔ ∃ chunks : List Message, ms = chunks.map some ∧
      chunks.map Message.data = pieces ∧ ∀ c ∈ chunks, c.mark = ChunkType.dataChunk.toNat := by
  constructor
  · intro h
    induction ms generalizing pieces with
    | nil =>
      obtain rfl := List.map_eq_nil_iff.mp h.symm
      exact ⟨[], rfl, rfl, by simp⟩
    | cons m ms ih =>
      cases pieces with
      | nil => cases h
      | cons xs pieces =>
        rw [List.map_cons, List.map_cons, List.cons.injEq] at h
        obtain ⟨x, rfl, hmark, rfl⟩ := part_data_iff.mp h.1
        obtain ⟨chunks, rfl, rfl, hall⟩ := ih h.2
        exact ⟨x :: chunks, rfl, rfl, List.forall_mem_cons.mpr ⟨hmark, hall⟩⟩
  · rintro ⟨chunks, rfl, rfl, hall⟩
    rw [List.map_map, List.map_map]
    exact List.map_congr_left fun c hc => part_data_iff.mpr ⟨c, rfl, hall c hc, rfl⟩

/-- The messages of a whole file: a start, chunks of as much data as it says, within the limit, and an end. -/
structure Transfer (maxFileSize : Nat) (messages : List (Option Message)) (chunks : List Message) : Prop where
  limited : (chunks.map Message.data).flatten.length ≤ maxFileSize
  marks : ∀ c ∈ chunks, c.mark = ChunkType.dataChunk.toNat
  messages : ∃ start last : Message, messages = some start :: (chunks.map some ++ [some last]) ∧
    start.mark = ChunkType.dataStart.toNat ∧ start.size = some (chunks.map Message.data).flatten.length ∧
    last.mark = ChunkType.dataEnd.toNat

private theorem Transfer.parts {ms : List (Option Message)} {chunks : List Message}
    (h : Transfer maxFileSize ms chunks) :
    ms.map part = .start (chunks.map Message.data).flatten.length ::
      ((chunks.map Message.data).map .data ++ [.finish]) := by
  obtain ⟨-, hchunks, start, last, rfl, hstart, hsize, hlast⟩ := h
  rw [List.map_cons, List.map_append, List.map_singleton, part_start_iff.mpr ⟨start, rfl, hstart, hsize⟩,
    parts_data_iff.mpr ⟨chunks, rfl, rfl, hchunks⟩, part_finish_iff.mpr ⟨last, rfl, hlast⟩]

private theorem transfer_of_parts {ms : List (Option Message)} {pieces : List Bytes}
    (hlimit : pieces.flatten.length ≤ maxFileSize)
    (hparts : ms.map part = .start pieces.flatten.length :: (pieces.map .data ++ [.finish])) :
    ∃ chunks, Transfer maxFileSize ms chunks := by
  obtain ⟨start, rest, rfl, hstart, hrest⟩ := List.map_eq_cons_iff.mp hparts
  obtain ⟨data, ends, rfl, hdata, hends⟩ := List.map_eq_append_iff.mp hrest
  obtain ⟨last, rfl, hlast⟩ := List.map_eq_singleton_iff.mp hends
  obtain ⟨start, rfl, hstartmark, hsize⟩ := part_start_iff.mp hstart
  obtain ⟨chunks, rfl, rfl, hchunks⟩ := parts_data_iff.mp hdata
  obtain ⟨last, rfl, hlastmark⟩ := part_finish_iff.mp hlast
  exact ⟨chunks, hlimit, hchunks, start, last, rfl, hstartmark, hsize, hlastmark⟩

private theorem since_parts (h : List (Option Message × TransferState)) :
    Assembly.since (h.map fun x => (part x.1, x.2.reply)) = (sinceReset h).map part := by
  have hgoes : (fun x : Option Message × TransferState => x.2.reply.goesOn) =
      fun x => decide (x.2 = .started ∨ x.2 = .inProgress) := by
    funext x
    cases x.2 <;> rfl
  rw [Assembly.since, sinceReset, List.rtakeWhile, List.rtakeWhile, ← List.map_reverse, List.takeWhile_map,
    ← List.map_reverse, List.map_map, List.map_map, ← hgoes]
  rfl

private theorem Fed.finished_iff {h : List (Option Message × TransferState)} (hfed : Fed maxFileSize h dataCached state)
    {m : Option Message} {r : Assembled} (hacc : Accepted maxFileSize dataCached state m r) :
    r.transfer = .finished ↔ ∃ chunks, Transfer maxFileSize (sinceReset h ++ [m]) chunks := by
  have hreply : r.transfer = .finished ↔ r.transfer.reply = .finished := by cases r.transfer <;> decide
  have hiff := hfed.run.finished_iff (part m)
  rw [hacc.simulates, since_parts, ← List.map_singleton (f := part), ← List.map_append] at hiff
  rw [hreply, hiff]
  exact ⟨fun ⟨pieces, hlimit, hparts⟩ => transfer_of_parts hlimit hparts,
    fun ⟨chunks, htransfer⟩ => ⟨_, htransfer.limited, htransfer.parts⟩⟩

private theorem Fed.transferred {h : List (Option Message × TransferState)} (hfed : Fed maxFileSize h dataCached state)
    {m : Option Message} {r : Assembled} (hacc : Accepted maxFileSize dataCached state m r) {chunks : List Message}
    (htransfer : Transfer maxFileSize (sinceReset h ++ [m]) chunks) :
    r.dataCached = (chunks.map Message.data).flatten := by
  rw [hacc.done ((hfed.finished_iff hacc).mpr ⟨chunks, htransfer⟩)]
  have hparts := htransfer.parts
  rw [List.map_append, List.map_singleton, ← since_parts] at hparts
  obtain ⟨hopened, -⟩ := hfed.run.opened_of_since hparts
  unfold opened at hopened
  split_ifs at hopened
  exact congrArg Assembly.Opened.received (Option.some.inj hopened)

/-- The pieces of a file from an offset on. -/
def splitFrom (bytes : Bytes) (offset : Nat) : List Bytes :=
  if offset < bytes.length then (bytes.drop offset).take chunkSize :: splitFrom bytes (offset + chunkSize) else []
termination_by bytes.length - offset
decreasing_by
  have : 0 < chunkSize := by decide
  omega

def splitIntoFileChunks (bytes : Bytes) : List Bytes := splitFrom bytes 0

theorem splitFrom_spec (bytes : Bytes) (offset : Nat) :
    (splitFrom bytes offset).flatten = bytes.drop offset ∧ ∀ p ∈ splitFrom bytes offset, p.length ≤ chunkSize := by
  induction offset using splitFrom.induct bytes with
  | case1 offset hlt ih =>
    rw [splitFrom, if_pos hlt, List.flatten_cons, ih.1, ← List.drop_drop, List.take_append_drop]
    exact ⟨rfl, List.forall_mem_cons.mpr ⟨List.length_take_le _ _, ih.2⟩⟩
  | case2 offset hge =>
    rw [splitFrom, if_neg hge, List.drop_of_length_le (not_lt.mp hge)]
    exact ⟨rfl, fun p hp => absurd hp List.not_mem_nil⟩

/-- The receiving end of a number of chunk messages: the code of each is read and its body assembled. -/
def receiveAll (maxFileSize : Nat) : Nat → Bytes → FileTransferAssemblyState → ReadM (List TransferState × Bytes)
  | 0, dataCached, _ => pure ([], dataCached)
  | n + 1, dataCached, state => do
    let _ ← read 4
    let r ← assemble dataCached state maxFileSize
    let (more, dataCached) ← receiveAll maxFileSize n r.dataCached r.state
    return (r.transfer :: more, dataCached)

/-- What is written for a chunk. -/
def chunkMessage (chunk : UInt8 × Bytes) : Bytes :=
  kMsgDFileTransfer.take 4 ++ bytesOf (Emission.chunk chunk.1 chunk.2).fields

private theorem send_ok {chunk : UInt8 × Bytes} (h : chunk.2.length ≤ chunkSize) :
    send chunk = some (.ok (chunkMessage chunk)) := by
  rw [send, if_neg (not_lt.mpr h), writef_chunk h, chunkMessage]

private theorem reads_receive_cons {n : Nat} {chunk : UInt8 × Bytes} {more cached : Bytes}
    {results : List TransferState} {r : Assembled} (hlen : chunk.2.length ≤ chunkSize)
    (hacc : accept dataCached state maxFileSize chunk.1.toNat chunk.2 = r)
    (hrest : Reads (receiveAll maxFileSize n r.dataCached r.state) more (results, cached)) :
    Reads (receiveAll maxFileSize (n + 1) dataCached state) (chunkMessage chunk ++ more)
      (r.transfer :: results, cached) := by
  have hvalid : ∀ f ∈ (Emission.chunk chunk.1 chunk.2).fields, f.Valid := by
    intro f hf
    rcases List.mem_pair.mp hf with rfl | rfl
    · exact ⟨.inl rfl, chunk.1.toNat_lt⟩
    · exact hlen
  have hcode : Reads (read 4) (kMsgDFileTransfer.take 4) (kMsgDFileTransfer.take 4) :=
    reads_read (kMsgDFileTransfer.take 4)
  have hbody : Reads (assemble dataCached state maxFileSize) (bytesOf (Emission.chunk chunk.1 chunk.2).fields) r := by
    rw [← hacc]
    unfold assemble
    exact (reads_readf hvalid).last (Reads.pure _)
  rw [chunkMessage, List.append_assoc]
  exact hcode.bind (hbody.bind (hrest.map fun x => (r.transfer :: x.1, x.2)))

private theorem reads_receive_data {expectedSize : Nat} {pieces : List Bytes} (hp : ∀ p ∈ pieces, p.length ≤ chunkSize)
    (htotal : (dataCached ++ pieces.flatten).length = expectedSize) :
    Reads (receiveAll maxFileSize (pieces.length + 1) dataCached ⟨expectedSize, true⟩)
      ((pieces.map fun p => chunkMessage (data p)).flatten ++ chunkMessage finish)
      (List.replicate pieces.length .inProgress ++ [.finished], dataCached ++ pieces.flatten) := by
  induction pieces generalizing dataCached with
  | nil =>
    rw [List.flatten_nil, List.append_nil] at htotal
    have hacc : accept dataCached ⟨expectedSize, true⟩ maxFileSize finish.1.toNat finish.2 =
        ⟨.finished, dataCached, ⟨expectedSize, false⟩⟩ := by
      simp [accept, finish, ChunkType.dataStart, ChunkType.dataChunk, ChunkType.dataEnd, htotal]
    have hlast : Reads (receiveAll maxFileSize 0 dataCached ⟨expectedSize, false⟩) [] ([], dataCached) := Reads.pure _
    simpa using reads_receive_cons (Nat.zero_le _) hacc hlast
  | cons p pieces ih =>
    rw [List.flatten_cons, ← List.append_assoc] at htotal
    have hfits : wouldExceed dataCached.length p.length expectedSize = false := by
      simp only [List.length_append] at htotal
      simp only [wouldExceed, Bool.or_eq_false_iff, decide_eq_false_iff_not]
      omega
    have hacc : accept dataCached ⟨expectedSize, true⟩ maxFileSize (data p).1.toNat (data p).2 =
        ⟨.inProgress, dataCached ++ p, ⟨expectedSize, true⟩⟩ := by
      simp [accept, data, ChunkType.dataStart, ChunkType.dataChunk, hfits]
    have hrest := ih (fun q hq => hp q (by simp [hq])) htotal
    have hall := reads_receive_cons (hp p (by simp)) hacc hrest
    rw [List.map_cons, List.flatten_cons, List.flatten_cons, List.append_assoc, ← List.append_assoc dataCached]
    exact hall

/-- The chunks of a file are all sent, and a receiver without an active transfer takes in the file. -/
def Reassembles (maxFileSize : Nat) (b : Bytes) : Prop :=
  ∃ messages : List Bytes,
    (start b.length :: ((splitIntoFileChunks b).map data ++ [finish])).map send = messages.map (fun m => some (.ok m)) ∧
    ∀ dataCached state, state.active = false →
      Reads (receiveAll maxFileSize messages.length dataCached state) messages.flatten
        (.started :: (List.replicate (splitIntoFileChunks b).length .inProgress ++ [.finished]), b)

theorem reassembles {b : Bytes} (hmax : maxFileSize < 2 ^ 64) (hb : b.length ≤ maxFileSize) :
    Reassembles maxFileSize b := by
  have hlt : b.length < 2 ^ 64 := by omega
  obtain ⟨hflat, hpieces⟩ := splitFrom_spec b 0
  rw [List.drop_zero] at hflat
  change (splitIntoFileChunks b).flatten = b at hflat
  change ∀ p ∈ splitIntoFileChunks b, p.length ≤ chunkSize at hpieces
  refine ⟨chunkMessage (start b.length) :: ((splitIntoFileChunks b).map (fun p => chunkMessage (data p)) ++
    [chunkMessage finish]), ?_, fun dataCached state hidle => ?_⟩
  · have hdata : ((splitIntoFileChunks b).map data).map send =
        ((splitIntoFileChunks b).map fun p => chunkMessage (data p)).map fun m => some (.ok m) := by
      rw [List.map_map, List.map_map]
      exact List.map_congr_left fun p hp => send_ok (hpieces p hp)
    rw [List.map_cons, List.map_append, List.map_singleton, hdata, send_ok (length_digits hlt), send_ok (Nat.zero_le _),
      List.map_cons, List.map_append, List.map_singleton]
  · have hnum : toULongLong ((decimal b.length).map fun x => Char.ofNat x.toNat) = some b.length := by
      rw [decimal, chars_of_digits, toULongLong_toDigits hlt]
    have hacc : accept dataCached state maxFileSize (start b.length).1.toNat (start b.length).2 =
        ⟨.started, [], ⟨b.length, true⟩⟩ := by
      simp [accept, start, hidle, hnum, not_lt.mpr hb]
    have hdata : Reads (receiveAll maxFileSize _ [] ⟨b.length, true⟩) _ _ :=
      reads_receive_data hpieces (by rw [List.nil_append, hflat])
    rw [List.nil_append, hflat] at hdata
    have hall := reads_receive_cons (length_digits hlt) hacc hdata
    simpa using hall

/-- After any calls the cached data is within the declared size, and that within the limit. An error resets;
data is finished exactly by the end of one whole file, and is that file. Every file within the limit comes
through when it is split and sent. -/
theorem files_assembled_exactly (maxFileSize : UInt64) :
    (∀ h dataCached state, Fed maxFileSize.toNat h dataCached state →
      (dataCached.length ≤ state.expectedSize ∧ state.expectedSize ≤ maxFileSize.toNat) ∧
      ∀ s r s', assemble dataCached state maxFileSize.toNat s = (.ok r, s') →
        ∃ m, readMessage s = (.ok m, s') ∧
          (r.transfer = .error → r.dataCached = [] ∧ r.state = {}) ∧
          (r.transfer = .finished ↔ ∃ chunks, Transfer maxFileSize.toNat (sinceReset h ++ [m]) chunks) ∧
          ∀ chunks, Transfer maxFileSize.toNat (sinceReset h ++ [m]) chunks →
            r.dataCached = (chunks.map Message.data).flatten) ∧
    ∀ b : Bytes, b.length ≤ maxFileSize.toNat → Reassembles maxFileSize.toNat b := by
  refine ⟨fun h dataCached state hfed => ⟨hfed.bounded, fun s r s' hcall => ?_⟩,
    fun b hb => reassembles maxFileSize.toNat_lt hb⟩
  obtain ⟨m, hread, hacc⟩ := assemble_accepted hcall
  exact ⟨m, hread, hacc.reset, hfed.finished_iff hacc, fun chunks => hfed.transferred hacc⟩

theorem files_assembled_exactly_hi :
    (∃ chunks, Transfer 4 [some ⟨1, [50]⟩, some ⟨2, [104, 105]⟩, some ⟨3, []⟩] chunks ∧
      (chunks.map Message.data).flatten = [104, 105]) ∧ Reassembles 4 [104, 105] := by
  have hstart : assemble [] {} 4 [[1, 0, 0, 0, 1, 50]] = (.ok ⟨.started, [], ⟨2, true⟩⟩, []) := rfl
  have hdata : assemble [] ⟨2, true⟩ 4 [[2, 0, 0, 0, 2, 104, 105]] =
    (.ok ⟨.inProgress, [104, 105], ⟨2, true⟩⟩, []) := rfl
  have hend : assemble [104, 105] ⟨2, true⟩ 4 [[3, 0, 0, 0, 0]] =
    (.ok ⟨.finished, [104, 105], ⟨2, false⟩⟩, []) := rfl
  have hfed : Fed 4 _ [104, 105] ⟨2, true⟩ := .message (.message .fresh rfl hstart) rfl hdata
  obtain ⟨hfiles, hround⟩ := files_assembled_exactly 4
  obtain ⟨m, hread, -, hfinished, hcached⟩ := (hfiles _ _ _ hfed).2 _ _ _ hend
  obtain rfl : some ⟨3, []⟩ = m := by
    have hread' : readMessage [[3, 0, 0, 0, 0]] = (.ok (some ⟨3, []⟩), []) := rfl
    simpa [hread'] using hread
  obtain ⟨chunks, htransfer⟩ := hfinished.mp rfl
  exact ⟨⟨chunks, htransfer, (hcached chunks htransfer).symm⟩, hround [104, 105] (by decide)⟩

end FileChunk
end Synergy
