import Synergy.Clipboard.ClipboardChunk
import Synergy.Lib.Assembly

/-! Which messages make up the clipboard data that is assembled. -/
namespace Synergy
open Lib ProtocolUtil

def TransferState.reply : TransferState → Assembly.Reply
  | .started => .started
  | .inProgress => .more
  | .finished => .finished
  | .error => .error

namespace ClipboardChunk
variable {maxDataSize : Nat} {dataCached : Bytes} {state : ClipboardChunkAssemblyState}

/-- The fields of a chunk message. -/
structure Message where
  id : Nat
  sequence : Nat
  mark : Nat
  data : Bytes
  deriving DecidableEq, Repr

def Message.ofArgs : Option (List Arg) → Option Message
  | some [.int id, .int sequence, .int mark, .string data] => some ⟨id, sequence, mark, data⟩
  | _ => none

/-- The message that a call of `assemble` reads, `none` for one that is not all there. -/
def readMessage : ReadM (Option Message) :=
  Message.ofArgs <$> readf (kMsgDClipboard.drop 4) [.int 0, .int 0, .int 0, .string []]

/-- The number that the data of a start chunk says. -/
def Message.size (m : Message) : Option Nat := toULongLong (m.data.map fun b => Char.ofNat b.toNat)

/-- The calls of `assemble` from a new state on, each with its message and what it returned. The caller
takes the data, and clears it, only when no transfer is active. -/
inductive Fed (maxDataSize : Nat) :
    List (Option Message × TransferState) → Bytes → ClipboardChunkAssemblyState → Prop
  | fresh : Fed maxDataSize [] [] {}
  | message {h : List (Option Message × TransferState)} {dataCached : Bytes} {state : ClipboardChunkAssemblyState}
      {s s' : IStream} {m : Option Message} {r : Assembled} : Fed maxDataSize h dataCached state →
      readMessage s = (.ok m, s') → assemble dataCached state maxDataSize s = (.ok r, s') →
      Fed maxDataSize (h ++ [(m, r.transfer)]) r.dataCached r.state
  | taken {h : List (Option Message × TransferState)} {dataCached : Bytes} {state : ClipboardChunkAssemblyState} :
      Fed maxDataSize h dataCached state → state.active = false → Fed maxDataSize h [] state

/-- The part of a transfer that a message is. -/
def part : Option Message → Assembly.Part UInt8
  | none => .invalid
  | some m =>
    if kClipboardEnd ≤ m.id then .invalid
    else if m.mark = ChunkType.dataStart.toNat then
      match m.size with
      | none => .invalid
      | some expected => .start expected
    else if m.mark = ChunkType.dataChunk.toNat then .data m.data
    else if m.mark = ChunkType.dataEnd.toNat then .finish
    else .invalid

/-- The transfer that is open. -/
def opened (dataCached : Bytes) (state : ClipboardChunkAssemblyState) : Option (Assembly.Opened UInt8) :=
  if state.active then some ⟨state.expectedSize, dataCached⟩ else none

/-- What is left by a call: of the two sizes, the declared one is never passed, and an error leaves nothing. -/
structure Accepted (maxDataSize : Nat) (dataCached : Bytes) (state : ClipboardChunkAssemblyState) (m : Option Message)
    (r : Assembled) : Prop where
  simulates : Assembly.take maxDataSize true (opened dataCached state) (part m) =
    (r.transfer.reply, opened r.dataCached r.state)
  within : dataCached.length ≤ state.expectedSize → r.dataCached.length ≤ r.state.expectedSize
  reset : r.transfer = .error → r.dataCached = [] ∧ r.state = {}
  done : r.transfer = .finished → r.dataCached = dataCached ∧ ∃ x, m = some x ∧ r.id = x.id ∧ r.sequence = x.sequence

private theorem Accepted.failed {m : Option Message} {id sequence : Nat}
    (h : Assembly.take maxDataSize true (opened dataCached state) (part m) = (.error, none)) :
    Accepted maxDataSize dataCached state m ⟨.error, id, sequence, [], {}⟩ where
  simulates := h
  within _ := Nat.le_refl 0
  reset _ := ⟨rfl, rfl⟩
  done hf := by cases hf

private theorem wouldExceed_iff {currentSize extraSize limit : Nat} :
    wouldExceed currentSize extraSize limit = true ↔ limit < currentSize + extraSize := by
  simp only [wouldExceed, Bool.or_eq_true, decide_eq_true_eq]
  omega

private theorem opened_inactive (h : state.active = false) : opened dataCached state = none := by simp [opened, h]

private theorem opened_active (h : state.active = true) :
    opened dataCached state = some ⟨state.expectedSize, dataCached⟩ := by simp [opened, h]

private theorem accept_start {m : Message} (hid : ¬ kClipboardEnd ≤ m.id) (hmark : m.mark = ChunkType.dataStart.toNat) :
    Accepted maxDataSize dataCached state (some m)
      (accept dataCached state maxDataSize m.id m.sequence m.mark m.data) := by
  cases hsize : m.size with
  | none =>
    have hpart : part (some m) = .invalid := by simp [part, hid, hmark, hsize]
    rw [accept, if_neg hid, if_pos hmark, show toULongLong _ = none from hsize]
    exact .failed (by rw [hpart]; rfl)
  | some expected =>
    have hpart : part (some m) = .start expected := by simp [part, hid, hmark, hsize]
    rw [accept, if_neg hid, if_pos hmark, show toULongLong _ = some expected from hsize]
    by_cases hlimit : maxDataSize < expected
    · simp only [hlimit, if_true]
      exact .failed (by simp [hpart, Assembly.take, hlimit])
    · simp only [hlimit, if_false]
      exact ⟨by simp [hpart, Assembly.take, hlimit, TransferState.reply, opened], fun _ => Nat.zero_le _, fun hf => (by cases hf),
        fun hf => (by cases hf)⟩

private theorem accept_data {m : Message} (hid : ¬ kClipboardEnd ≤ m.id) (hmark : m.mark = ChunkType.dataChunk.toNat) :
    Accepted maxDataSize dataCached state (some m)
      (accept dataCached state maxDataSize m.id m.sequence m.mark m.data) := by
  have hstart : m.mark ≠ ChunkType.dataStart.toNat := by rw [hmark]; decide
  have hpart : part (some m) = .data m.data := by
    rw [part, if_neg hid, if_neg hstart, if_pos hmark]
  rw [accept, if_neg hid, if_neg hstart, if_pos hmark]
  cases hactive : state.active with
  | false => exact .failed (by rw [hpart, opened_inactive hactive]; rfl)
  | true =>
    by_cases hlong : wouldExceed dataCached.length m.data.length state.expectedSize = true
    · rw [if_neg (by decide), if_pos hlong]
      refine .failed ?_
      rw [wouldExceed_iff, ← List.length_append] at hlong
      rw [hpart, opened_active hactive, Assembly.take, if_pos hlong]
    · rw [if_neg (by decide), if_neg hlong]
      rw [wouldExceed_iff, ← List.length_append] at hlong
      refine ⟨?_, fun _ => not_lt.mp hlong, fun hf => (by cases hf), fun hf => (by cases hf)⟩
      rw [hpart, opened_active hactive, opened_active hactive, Assembly.take, if_neg hlong, TransferState.reply]

private theorem accept_end {m : Message} (hid : ¬ kClipboardEnd ≤ m.id) (hmark : m.mark = ChunkType.dataEnd.toNat) :
    Accepted maxDataSize dataCached state (some m)
      (accept dataCached state maxDataSize m.id m.sequence m.mark m.data) := by
  have hstart : m.mark ≠ ChunkType.dataStart.toNat := by rw [hmark]; decide
  have hdata : m.mark ≠ ChunkType.dataChunk.toNat := by rw [hmark]; decide
  have hpart : part (some m) = .finish := by
    rw [part, if_neg hid, if_neg hstart, if_neg hdata, if_pos hmark]
  rw [accept, if_neg hid, if_neg hstart, if_neg hdata, if_pos hmark]
  cases hactive : state.active with
  | false => exact .failed (by rw [hpart, opened_inactive hactive]; rfl)
  | true =>
    by_cases hall : dataCached.length = state.expectedSize
    · rw [if_neg (by decide), if_neg (not_not.mpr hall.symm)]
      refine ⟨?_, id, fun hf => (by cases hf), fun _ => ⟨rfl, m, rfl, rfl, rfl⟩⟩
      rw [hpart, opened_active hactive, opened_inactive rfl, Assembly.take, if_pos hall, TransferState.reply]
    · rw [if_neg (by decide), if_pos (Ne.symm hall)]
      exact .failed (by rw [hpart, opened_active hactive, Assembly.take, if_neg hall])

theorem accept_accepted (m : Message) : Accepted maxDataSize dataCached state (some m)
    (accept dataCached state maxDataSize m.id m.sequence m.mark m.data) := by
  by_cases hid : kClipboardEnd ≤ m.id
  · rw [accept, if_pos hid]
    exact .failed (by simp [part, hid, Assembly.take])
  by_cases hstart : m.mark = ChunkType.dataStart.toNat
  · exact accept_start hid hstart
  by_cases hdata : m.mark = ChunkType.dataChunk.toNat
  · exact accept_data hid hdata
  by_cases hend : m.mark = ChunkType.dataEnd.toNat
  · exact accept_end hid hend
  · rw [accept, if_neg hid, if_neg hstart, if_neg hdata, if_neg hend]
    exact .failed (by simp [part, hid, hstart, hdata, hend, Assembly.take])

theorem assemble_accepted {s s' : IStream} {r : Assembled}
    (h : assemble dataCached state maxDataSize s = (.ok r, s')) :
    ∃ m, readMessage s = (.ok m, s') ∧ Accepted maxDataSize dataCached state m r := by
  have hinvalid : Accepted maxDataSize dataCached state none ⟨.error, 0, 0, [], {}⟩ := .failed rfl
  obtain ⟨args, s₁, hread, hrest⟩ := ReadM.bind_eq_ok h
  have hmessage : readMessage s = (.ok (Message.ofArgs args), s₁) := ReadM.bind_ok hread _
  split at hrest
  next id sequence mark data =>
    obtain ⟨heq, rfl⟩ := Prod.mk.inj hrest
    rw [← Except.ok.inj heq]
    exact ⟨_, hmessage, accept_accepted ⟨id, sequence, mark, data⟩⟩
  next hother =>
    obtain ⟨heq, rfl⟩ := Prod.mk.inj hrest
    rw [← Except.ok.inj heq]
    have hnone : Message.ofArgs args = none := by
      unfold Message.ofArgs
      split
      next => exact absurd rfl (hother _ _ _ _)
      next => rfl
    exact ⟨_, hnone ▸ hmessage, hinvalid⟩

/-- The calls take in the parts of the messages, one after the other. -/
theorem Fed.run {h : List (Option Message × TransferState)} (hfed : Fed maxDataSize h dataCached state) :
    Assembly.Run maxDataSize true (h.map fun x => (part x.1, x.2.reply)) (opened dataCached state) := by
  induction hfed with
  | fresh => exact .nil
  | @message h dataCached state s s' m r hfed hread hcall ih =>
    obtain ⟨m', hread', hacc⟩ := assemble_accepted hcall
    obtain rfl : m = m' := by simpa [hread] using hread'
    have hsnoc := ih.snoc (part m)
    rw [hacc.simulates] at hsnoc
    rwa [List.map_append, List.map_singleton]
  | @taken h dataCached state hfed hidle ih =>
    rw [opened_inactive hidle] at ih ⊢
    exact ih

theorem Fed.within {h : List (Option Message × TransferState)} (hfed : Fed maxDataSize h dataCached state) :
    dataCached.length ≤ state.expectedSize := by
  induction hfed with
  | fresh => exact Nat.le_refl 0
  | message hfed hread hcall ih =>
    obtain ⟨m, -, hacc⟩ := assemble_accepted hcall
    exact hacc.within ih
  | taken => exact Nat.zero_le _

private theorem part_start {m : Option Message} {n : Nat} (h : part m = .start n) :
    ∃ x, m = some x ∧ x.id < kClipboardEnd ∧ x.mark = ChunkType.dataStart.toNat ∧ x.size = some n := by
  unfold part at h
  split at h
  next => cases h
  next x =>
    split_ifs at h with hid hstart hdata hend
    · split at h
      next => cases h
      next expected hsize => exact ⟨x, rfl, not_le.mp hid, hstart, by rw [hsize, Assembly.Part.start.inj h]⟩

private theorem part_data {m : Option Message} {xs : Bytes} (h : part m = .data xs) :
    ∃ x, m = some x ∧ x.id < kClipboardEnd ∧ x.mark = ChunkType.dataChunk.toNat ∧ x.data = xs := by
  unfold part at h
  split at h
  next => cases h
  next x =>
    split_ifs at h with hid hstart hdata hend
    · split at h <;> cases h
    · exact ⟨x, rfl, not_le.mp hid, hdata, Assembly.Part.data.inj h⟩

private theorem part_finish {m : Option Message} (h : part m = .finish) :
    ∃ x, m = some x ∧ x.id < kClipboardEnd ∧ x.mark = ChunkType.dataEnd.toNat := by
  unfold part at h
  split at h
  next => cases h
  next x =>
    split_ifs at h with hid hstart hdata hend
    · split at h <;> cases h
    · exact ⟨x, rfl, not_le.mp hid, hend⟩

private theorem parts_data {ms : List (Option Message)} {pieces : List Bytes} (h : ms.map part = pieces.map .data) :
    ∃ chunks : List Message, ms = chunks.map some ∧ chunks.map Message.data = pieces ∧
      ∀ c ∈ chunks, c.id < kClipboardEnd ∧ c.mark = ChunkType.dataChunk.toNat := by
  induction ms generalizing pieces with
  | nil =>
    obtain rfl := List.map_eq_nil_iff.mp h.symm
    exact ⟨[], rfl, rfl, by simp⟩
  | cons m ms ih =>
    cases pieces with
    | nil => cases h
    | cons xs pieces =>
      rw [List.map_cons, List.map_cons, List.cons.injEq] at h
      obtain ⟨x, rfl, hid, hmark, rfl⟩ := part_data h.1
      obtain ⟨chunks, rfl, rfl, hall⟩ := ih h.2
      exact ⟨x :: chunks, rfl, rfl, List.forall_mem_cons.mpr ⟨⟨hid, hmark⟩, hall⟩⟩

/-- The messages of a transfer: the last of all messages are one start, chunks of data and one end. -/
structure Transfer (messages : List (Option Message)) (before : List (Option Message)) (start : Message)
    (chunks : List Message) (last : Message) : Prop where
  messages : messages = before ++ some start :: (chunks.map some ++ [some last])
  ids : start.id < kClipboardEnd ∧ (∀ c ∈ chunks, c.id < kClipboardEnd) ∧ last.id < kClipboardEnd
  start : start.mark = ChunkType.dataStart.toNat
  chunks : ∀ c ∈ chunks, c.mark = ChunkType.dataChunk.toNat
  last : last.mark = ChunkType.dataEnd.toNat

private theorem Fed.finished {h : List (Option Message × TransferState)} (hfed : Fed maxDataSize h dataCached state)
    {m : Option Message} {r : Assembled} (hacc : Accepted maxDataSize dataCached state m r)
    (hfin : r.transfer = .finished) :
    ∃ before start chunks last, Transfer (h.map Prod.fst ++ [m]) before start chunks last ∧
      r.id = last.id ∧ r.sequence = last.sequence ∧ r.dataCached = (chunks.map Message.data).flatten ∧
      start.size = some r.dataCached.length := by
  obtain ⟨hdata, last, rfl, hid, hsequence⟩ := hacc.done hfin
  have htake : (Assembly.take maxDataSize true (opened dataCached state) (part (some last))).1 = .finished := by
    rw [hacc.simulates, hfin]
    rfl
  obtain ⟨x, before, pieces, hx, hlast, hparts, hreceived, -⟩ := hfed.run.finished htake
  have hmessages : (h.map Prod.fst).map part = before ++ .start pieces.flatten.length :: pieces.map .data := by
    rw [← hparts, List.map_map, List.map_map]
    rfl
  obtain ⟨before', rest, hsplit, -, hrest⟩ := List.map_eq_append_iff.mp hmessages
  obtain ⟨start, ms, rfl, hstart, hms⟩ := List.map_eq_cons_iff.mp hrest
  obtain ⟨start, rfl, hstartid, hstartmark, hsize⟩ := part_start hstart
  obtain ⟨chunks, rfl, rfl, hchunks⟩ := parts_data hms
  obtain ⟨y, hy, hlastid, hlastmark⟩ := part_finish hlast
  obtain rfl := Option.some.inj hy
  have hcached : dataCached = x.received := by
    unfold opened at hx
    split_ifs at hx
    rw [← Option.some.inj hx]
  refine ⟨before', start, chunks, last, ⟨?_, ⟨hstartid, fun c hc => (hchunks c hc).1, hlastid⟩, hstartmark,
    fun c hc => (hchunks c hc).2, hlastmark⟩, hid, hsequence, ?_, ?_⟩
  · rw [hsplit, List.append_assoc, List.cons_append]
  · rw [hdata, hcached, hreceived]
  · rw [hdata, hcached, hreceived, hsize]

/-- After any calls the cached data is within the declared size, and that within the limit. An error leaves
nothing; data that is finished is that of the chunks since a start, as much as it declared. -/
theorem assembled_since_start {h : List (Option Message × TransferState)}
    (hfed : Fed maxDataSize h dataCached state) :
    dataCached.length ≤ state.expectedSize ∧ (state.active = true → state.expectedSize ≤ maxDataSize) ∧
    ∀ s r s', assemble dataCached state maxDataSize s = (.ok r, s') →
      ∃ m, readMessage s = (.ok m, s') ∧
        (r.transfer = .error → r.state.active = false ∧ r.dataCached = []) ∧
        (r.transfer = .finished → ∃ before start chunks last,
          Transfer (h.map Prod.fst ++ [m]) before start chunks last ∧
          r.id = last.id ∧ r.sequence = last.sequence ∧ r.dataCached = (chunks.map Message.data).flatten ∧
          start.size = some r.dataCached.length) := by
  refine ⟨hfed.within, fun hactive => ?_, fun s r s' hcall => ?_⟩
  · have hrun := hfed.run
    rw [opened_active hactive] at hrun
    obtain ⟨before, parts, pieces, -, hopens⟩ := hrun.opens
    exact hopens.limited
  · obtain ⟨m, hread, hacc⟩ := assemble_accepted hcall
    refine ⟨m, hread, fun herror => ?_, hfed.finished hacc⟩
    obtain ⟨hcached, hstate⟩ := hacc.reset herror
    exact ⟨by rw [hstate], hcached⟩

private theorem fed_hi : Fed 4 [(some ⟨0, 1, 1, [50]⟩, .started), (some ⟨0, 1, 2, [104, 105]⟩, .inProgress)]
    [104, 105] ⟨2, true⟩ := by
  have hstart : assemble [] {} 4 [[0, 0, 0, 0, 1, 1, 0, 0, 0, 1, 50]] =
    (.ok ⟨.started, 0, 1, [], ⟨2, true⟩⟩, []) := rfl
  have hdata : assemble [] ⟨2, true⟩ 4 [[0, 0, 0, 0, 1, 2, 0, 0, 0, 2, 104, 105]] =
    (.ok ⟨.inProgress, 0, 1, [104, 105], ⟨2, true⟩⟩, []) := rfl
  exact .message (.message .fresh rfl hstart) rfl hdata

theorem assembled_since_start_hi : ∃ before start chunks last,
    Transfer [some ⟨0, 1, 1, [50]⟩, some ⟨0, 1, 2, [104, 105]⟩, some ⟨1, 5, 3, []⟩] before start chunks last ∧
      last.id = 1 ∧ last.sequence = 5 ∧ (chunks.map Message.data).flatten = [104, 105] ∧ start.size = some 2 := by
  obtain ⟨m, hread, -, hfin⟩ := (assembled_since_start fed_hi).2.2 [[1, 0, 0, 0, 5, 3, 0, 0, 0, 0]]
    ⟨.finished, 1, 5, [104, 105], ⟨2, false⟩⟩ [] rfl
  have hread' : readMessage [[1, 0, 0, 0, 5, 3, 0, 0, 0, 0]] = (.ok (some ⟨1, 5, 3, []⟩), []) := rfl
  obtain rfl : some ⟨1, 5, 3, []⟩ = m := by simpa [hread'] using hread
  obtain ⟨before, start, chunks, last, htransfer, hid, hsequence, hdata, hsize⟩ := hfin rfl
  exact ⟨before, start, chunks, last, htransfer, hid.symm, hsequence.symm, hdata.symm, hsize⟩

/-- A text that was sent as clipboard 0 is finished as clipboard 1, when the end chunk says so. -/
theorem end_of_another_transfer : ¬ ∀ maxDataSize h dataCached state, Fed maxDataSize h dataCached state →
    ∀ s r s', assemble dataCached state maxDataSize s = (.ok r, s') → r.transfer = .finished →
      ∃ m before start chunks last, readMessage s = (.ok m, s') ∧
        Transfer (h.map Prod.fst ++ [m]) before start chunks last ∧
        (start.id = r.id ∧ start.sequence = r.sequence) ∧
        (∀ c ∈ chunks, c.id = r.id ∧ c.sequence = r.sequence) ∧ last.id = r.id ∧ last.sequence = r.sequence := by
  intro hall
  obtain ⟨m, before, start, chunks, last, hread, htransfer, ⟨hid, -⟩, -⟩ := hall 4 _ _ _ fed_hi
    [[1, 0, 0, 0, 5, 3, 0, 0, 0, 0]] ⟨.finished, 1, 5, [104, 105], ⟨2, false⟩⟩ [] rfl rfl
  have hread' : readMessage [[1, 0, 0, 0, 5, 3, 0, 0, 0, 0]] = (.ok (some ⟨1, 5, 3, []⟩), []) := rfl
  obtain rfl : some ⟨1, 5, 3, []⟩ = m := by simpa [hread'] using hread
  have hmessages : [some ⟨0, 1, 1, [50]⟩, some ⟨0, 1, 2, [104, 105]⟩, some ⟨1, 5, 3, []⟩] =
    before ++ some start :: (chunks.map some ++ [some last]) := htransfer.messages
  have hstart : some start ∈ before ++ some start :: (chunks.map some ++ [some last]) := by simp
  rw [← hmessages] at hstart
  have hmark := htransfer.start
  simp only [List.mem_cons, Option.some.injEq, List.not_mem_nil, or_false] at hstart
  rcases hstart with rfl | rfl | rfl
  · cases hid
  · cases hmark
  · cases hmark

end ClipboardChunk
end Synergy
