import Mathlib.Algebra.Group.Nat.Defs
import Mathlib.Data.List.Basic
import Mathlib.Order.Basic
import Mathlib.Tactic.SplitIfs

/-! The FIFO of bytes under the stream filters. The chunks and the head offset of
the code are one list here; the size is the code's own 32-bit count of it. -/
namespace Synergy
abbrev Bytes := List UInt8

structure StreamBuffer where
  data : Bytes := []
  size : Nat := 0
  deriving DecidableEq, Repr

namespace StreamBuffer

def peek (b : StreamBuffer) (n : Nat) : Option Bytes :=
  if b.size < n ∨ n = 0 then none else some (b.data.take n)

def pop (b : StreamBuffer) (n : Nat) : StreamBuffer :=
  if b.size ≤ n then {} else { data := b.data.drop n, size := b.size - n }

def write (b : StreamBuffer) (data : Bytes) : StreamBuffer :=
  { data := b.data ++ data, size := (b.size + data.length) % 2 ^ 32 }

@[simp] theorem write_data (b : StreamBuffer) (data : Bytes) : (b.write data).data = b.data ++ data := rfl

def getSize (b : StreamBuffer) : Nat := b.size

/-- The count is the number of bytes held. It is no longer once 2^32 bytes are held. -/
def Counted (b : StreamBuffer) : Prop := b.size = b.data.length

theorem Counted.eq {b : StreamBuffer} (hb : b.Counted) : b.size = b.data.length := hb

theorem counted_empty : Counted {} := rfl

theorem Counted.pop {b : StreamBuffer} (hb : b.Counted) (n : Nat) :
    (b.pop n).Counted ∧ (b.pop n).data = b.data.drop n := by
  unfold Counted at hb
  unfold StreamBuffer.pop
  split
  next h => exact ⟨rfl, (List.drop_eq_nil_of_le (by omega)).symm⟩
  next h => exact ⟨by simp [Counted, hb], rfl⟩

theorem Counted.write {b : StreamBuffer} (hb : b.Counted) {data : Bytes}
    (h : b.data.length + data.length < 2 ^ 32) : (b.write data).Counted := by
  unfold Counted at hb
  simp only [Counted, StreamBuffer.write, hb, List.length_append, Nat.mod_eq_of_lt h]

theorem Counted.peek {b : StreamBuffer} (hb : b.Counted) {n : Nat} (h0 : 0 < n) (hn : n ≤ b.data.length) :
    b.peek n = some (b.data.take n) := by
  unfold Counted at hb
  unfold StreamBuffer.peek
  rw [if_neg (by omega)]

end StreamBuffer
end Synergy

/-! The FIFO of bytes as the code keeps it: chunks of bytes, of which the first is used up to
an offset. An operation gives nothing when it walks past the last chunk. -/
namespace Synergy

structure ChunkedBuffer where
  chunks : List Bytes := []
  size : Nat := 0
  headUsed : Nat := 0
  deriving DecidableEq, Repr

namespace ChunkedBuffer

def kChunkSize : Nat := 4096

def getSize (b : ChunkedBuffer) : Nat := b.size

/-- Merge chunks into the first one until it has `n` bytes. -/
def consolidate (headUsed n : Nat) : Bytes → List Bytes → List Bytes
  | head, [] => [head]
  | head, chunk :: more =>
    if head.length - headUsed < n then consolidate headUsed n (head ++ chunk) more else head :: chunk :: more

/-- The memory that is exposed, from the next byte to the end of the first chunk. -/
def peek (b : ChunkedBuffer) (n : Nat) : Option (Option Bytes × ChunkedBuffer) :=
  if b.size < n ∨ n = 0 then some (none, b)
  else
    match b.chunks with
    | [] => none
    | head :: more =>
      let chunks := consolidate b.headUsed n head more
      some (chunks.head?.map (·.drop b.headUsed), { b with chunks })

/-- Discard chunks until more than `n` bytes would be discarded: the bytes that are left to discard,
how far the first chunk is used, and the chunks. -/
def discard (n headUsed : Nat) : List Bytes → Option (Nat × Nat × List Bytes)
  | [] => none
  | chunk :: more =>
    if chunk.length - headUsed ≤ n then discard (n - (chunk.length - headUsed)) 0 more
    else some (n, headUsed, chunk :: more)

def pop (b : ChunkedBuffer) (n : Nat) : Option ChunkedBuffer :=
  if b.size ≤ n then some {}
  else
    (discard n b.headUsed b.chunks).map fun (left, headUsed, chunks) =>
      { chunks, size := b.size - n, headUsed := headUsed + left }

/-- A chunk and those behind it, once data is appended chunk by chunk. -/
def fill (chunk data : Bytes) : List Bytes :=
  let count := min (kChunkSize - chunk.length) data.length
  if data.length ≤ count then [chunk ++ data] else (chunk ++ data.take count) :: fill [] (data.drop count)
termination_by (data.length, chunk.length)
decreasing_by
  simp only [Prod.lex_def, List.length_drop, List.length_nil, kChunkSize] at *
  omega

def write (b : ChunkedBuffer) (data : Bytes) : ChunkedBuffer :=
  if data.isEmpty then b
  else
    { b with
      size := (b.size + data.length) % 2 ^ 32
      chunks :=
        match b.chunks.getLast? with
        | some last => if last.length < kChunkSize then b.chunks.dropLast ++ fill last data else b.chunks ++ fill [] data
        | none => fill [] data }

/-- All bytes in the chunks that are not used. -/
def bytes (b : ChunkedBuffer) : Bytes := b.chunks.flatten.drop b.headUsed

/-- The size counts the bytes that are left, and the offset is inside the first chunk. -/
structure Consistent (b : ChunkedBuffer) : Prop where
  total : b.size + b.headUsed = b.chunks.flatten.length
  used : ∀ head, b.chunks.head? = some head → b.headUsed < head.length
  empty : b.chunks = [] → b.headUsed = 0

theorem flatten_fill (chunk data : Bytes) : (fill chunk data).flatten = chunk ++ data := by
  fun_induction fill chunk data with
  | case1 chunk data count h => simp
  | case2 chunk data count h ih => rw [List.flatten_cons, ih, List.nil_append, List.append_assoc, List.take_append_drop]

theorem flatten_consolidate (headUsed n : Nat) (head : Bytes) (more : List Bytes) :
    (consolidate headUsed n head more).flatten = head ++ more.flatten := by
  induction more generalizing head with
  | nil => simp [consolidate]
  | cons chunk more ih =>
    unfold consolidate
    split_ifs
    · rw [ih, List.flatten_cons, List.append_assoc]
    · rw [List.flatten_cons, List.flatten_cons]

/-- The first chunk keeps its bytes and gets as many as are asked for, if there are so many. -/
theorem head_consolidate (headUsed n : Nat) (head : Bytes) (more : List Bytes) :
    ∃ gathered rest, consolidate headUsed n head more = (head ++ gathered) :: rest ∧
      (n ≤ (head ++ more.flatten).length - headUsed → n ≤ (head ++ gathered).length - headUsed) := by
  induction more generalizing head with
  | nil => exact ⟨[], [], by simp [consolidate], by simp⟩
  | cons chunk more ih =>
    unfold consolidate
    split_ifs with h
    · obtain ⟨gathered, rest, heq, hn⟩ := ih (head ++ chunk)
      refine ⟨chunk ++ gathered, rest, by rw [heq, List.append_assoc], fun hle => ?_⟩
      rw [← List.append_assoc]
      exact hn (by rwa [List.append_assoc])
    · exact ⟨[], chunk :: more, by simp, fun _ => by rw [List.append_nil]; exact Nat.not_lt.mp h⟩

/-- Fewer bytes than there are can be discarded without walking past the last chunk. -/
theorem discard_spec {n headUsed : Nat} {chunks : List Bytes} (hn : headUsed + n < chunks.flatten.length)
    (hused : ∀ head, chunks.head? = some head → headUsed ≤ head.length) :
    ∃ left headUsed' head more, discard n headUsed chunks = some (left, headUsed', head :: more) ∧
      headUsed' + left < head.length ∧
      (head :: more).flatten.drop (headUsed' + left) = chunks.flatten.drop (headUsed + n) := by
  induction chunks generalizing n headUsed with
  | nil => simp at hn
  | cons chunk more ih =>
    have hchunk := hused chunk rfl
    rw [List.flatten_cons, List.length_append] at hn
    unfold discard
    split_ifs with h
    · have hless : 0 + (n - (chunk.length - headUsed)) < more.flatten.length := by omega
      obtain ⟨left, headUsed', head, rest, heq, hlt, hdrop⟩ := ih hless fun _ _ => Nat.zero_le _
      refine ⟨left, headUsed', head, rest, heq, hlt, ?_⟩
      have hgone : chunk.length ≤ headUsed + n := by omega
      have hleft : 0 + (n - (chunk.length - headUsed)) = headUsed + n - chunk.length := by omega
      rw [hdrop, hleft, List.flatten_cons, List.drop_append, List.drop_eq_nil_of_le hgone, List.nil_append]
    · exact ⟨n, headUsed, chunk, more, rfl, by omega, rfl⟩

section Consistent
variable {b : ChunkedBuffer}

theorem consistent_empty : Consistent {} := ⟨rfl, by simp, fun _ => rfl⟩

theorem Consistent.length_bytes (h : b.Consistent) : b.bytes.length = b.size := by
  have ht := h.total
  rw [bytes, List.length_drop]
  omega

theorem Consistent.peek (h : b.Consistent) {n : Nat} (h0 : 0 < n) (hn : n ≤ b.size) :
    ∃ memory b', b.peek n = some (some memory, b') ∧ memory.take n = b.bytes.take n ∧ b'.Consistent ∧
      b'.bytes = b.bytes ∧ b'.size = b.size := by
  cases hchunks : b.chunks with
  | nil =>
    have ht := h.total
    rw [hchunks, h.empty hchunks] at ht
    simp only [List.flatten_nil, List.length_nil] at ht
    omega
  | cons head more =>
    have ht := h.total
    have hused := h.used head (by rw [hchunks]; rfl)
    rw [hchunks, List.flatten_cons] at ht
    obtain ⟨gathered, rest, heq, hn'⟩ := head_consolidate b.headUsed n head more
    have hflat := flatten_consolidate b.headUsed n head more
    have henough : n ≤ ((head ++ gathered).drop b.headUsed).length := by
      rw [List.length_drop]
      exact hn' (by omega)
    rw [heq, List.flatten_cons] at hflat
    refine ⟨(head ++ gathered).drop b.headUsed, { b with chunks := (head ++ gathered) :: rest }, ?_, ?_, ?_, ?_, rfl⟩
    · unfold ChunkedBuffer.peek
      rw [if_neg (by omega), hchunks]
      simp only [heq, List.head?_cons, Option.map_some]
    · have hle : b.headUsed ≤ (head ++ gathered).length := by rw [List.length_append]; omega
      rw [bytes, hchunks, List.flatten_cons, ← hflat, List.drop_append_of_le_length hle,
        List.take_append_of_le_length henough]
    · refine ⟨?_, ?_, fun hnil => by cases hnil⟩
      · rw [List.flatten_cons, hflat]
        exact ht
      · intro first hfirst
        obtain rfl : head ++ gathered = first := Option.some.inj hfirst
        rw [List.length_append]
        exact Nat.lt_add_right _ hused
    · rw [bytes, bytes, hchunks, List.flatten_cons, List.flatten_cons, hflat]

theorem Consistent.pop (h : b.Consistent) (n : Nat) :
    ∃ b', b.pop n = some b' ∧ b'.Consistent ∧ b'.bytes = b.bytes.drop n ∧ b'.size = b.size - n := by
  by_cases hn : b.size ≤ n
  · refine ⟨{}, by rw [ChunkedBuffer.pop, if_pos hn], consistent_empty, ?_, by simp [hn]⟩
    rw [List.drop_eq_nil_of_le (by rw [h.length_bytes]; exact hn)]
    rfl
  · have ht := h.total
    have hless : b.headUsed + n < b.chunks.flatten.length := by omega
    obtain ⟨left, headUsed', head, more, heq, hlt, hdrop⟩ :=
      discard_spec hless fun head hhead => Nat.le_of_lt (h.used head hhead)
    refine ⟨{ chunks := head :: more, size := b.size - n, headUsed := headUsed' + left }, ?_, ⟨?_, ?_, ?_⟩, ?_, rfl⟩
    · rw [ChunkedBuffer.pop, if_neg hn, heq]
      rfl
    · have hlen := congrArg List.length hdrop
      simp only [List.length_drop, List.flatten_cons, List.length_append] at hlen ⊢
      omega
    · intro first hfirst
      obtain rfl : head = first := Option.some.inj hfirst
      exact hlt
    · intro hnil
      cases hnil
    · rw [bytes, bytes, hdrop, List.drop_drop]

private theorem head_fill (chunk data : Bytes) :
    ∃ behind, (fill chunk data).head? = some (chunk ++ behind) ∧
      (chunk.length < kChunkSize → data ≠ [] → behind ≠ []) := by
  unfold fill
  dsimp only
  split_ifs with h
  · exact ⟨data, rfl, fun _ hdata => hdata⟩
  · refine ⟨_, rfl, fun hroom hdata hnil => ?_⟩
    have hlen := congrArg List.length hnil
    have hpos := List.length_pos_of_ne_nil hdata
    rw [List.length_take, List.length_nil] at hlen
    omega

/-- The data goes behind all bytes, so the first chunk keeps those that it has. -/
private theorem chunks_write (b : ChunkedBuffer) {data : Bytes} (hdata : data ≠ []) :
    (b.write data).chunks.flatten = b.chunks.flatten ++ data ∧
      ∃ behind, (b.write data).chunks.head? = some (b.chunks.head?.getD [] ++ behind) ∧
        (b.chunks = [] → behind ≠ []) := by
  have hne : data.isEmpty = false := by simpa using hdata
  obtain ⟨first, hfirst, hnonempty⟩ := head_fill [] data
  have hsmall : ([] : Bytes).length < kChunkSize := by decide
  unfold ChunkedBuffer.write
  rw [hne]
  rcases List.eq_nil_or_concat b.chunks with hchunks | ⟨front, last, hchunks⟩
  · rw [hchunks]
    exact ⟨flatten_fill [] data, first, hfirst, fun _ => hnonempty hsmall hdata⟩
  · rw [List.concat_eq_append] at hchunks
    simp only [hchunks, List.getLast?_append, List.getLast?_singleton, Option.some_or, Bool.false_eq_true, if_false]
    split_ifs with hroom
    · obtain ⟨behind, hhead, -⟩ := head_fill last data
      refine ⟨by simp [flatten_fill], ?_⟩
      cases front with
      | nil => exact ⟨behind, by simpa using hhead, by simp⟩
      | cons head front =>
        rw [List.cons_append, ← List.cons_append, List.dropLast_concat]
        exact ⟨[], by simp, by simp⟩
    · refine ⟨by simp [flatten_fill], [], ?_, by simp⟩
      cases front <;> simp

theorem Consistent.write (h : b.Consistent) {data : Bytes} (hroom : b.size + data.length < 2 ^ 32) :
    (b.write data).Consistent ∧ (b.write data).bytes = b.bytes ++ data ∧ (b.write data).size = b.size + data.length := by
  by_cases hdata : data = []
  · subst hdata
    exact ⟨h, by simp [ChunkedBuffer.write], rfl⟩
  · obtain ⟨hflat, behind, hhead, hnonempty⟩ := chunks_write b hdata
    have ht := h.total
    have hused : (b.write data).headUsed = b.headUsed := by
      unfold ChunkedBuffer.write
      split_ifs <;> rfl
    have hsize : (b.write data).size = b.size + data.length := by
      unfold ChunkedBuffer.write
      rw [if_neg (by simpa using hdata)]
      exact Nat.mod_eq_of_lt hroom
    refine ⟨⟨?_, ?_, ?_⟩, ?_, hsize⟩
    · rw [hsize, hused, hflat, List.length_append]
      omega
    · intro head heq
      obtain rfl : b.chunks.head?.getD [] ++ behind = head := Option.some.inj (hhead.symm.trans heq)
      rw [hused, List.length_append]
      cases hchunks : b.chunks with
      | nil =>
        rw [h.empty hchunks]
        exact Nat.add_pos_right _ (List.length_pos_of_ne_nil (hnonempty hchunks))
      | cons first more => exact Nat.lt_add_right _ (h.used first (by rw [hchunks]; rfl))
    · intro hnil
      rw [hnil] at hhead
      cases hhead
    · rw [bytes, bytes, hused, hflat, List.drop_append_of_le_length (by omega)]

end Consistent

/-- A request to the buffer. -/
inductive Request
  | write (data : Bytes)
  | peek (n : Nat)
  | pop (n : Nat)

/-- What a request exposes, and the buffer after it. -/
def serve (b : ChunkedBuffer) : Request → Option (Option Bytes × ChunkedBuffer)
  | .write data => some (none, b.write data)
  | .peek n => b.peek n
  | .pop n => (b.pop n).map fun b => (none, b)

namespace Request

/-- What the request does to a queue of bytes. -/
def after (queue : Bytes) : Request → Bytes
  | write data => queue ++ data
  | peek _ => queue
  | pop n => queue.drop n

/-- What a request exposes begins with the bytes that are asked for. -/
def Exposes (queue : Bytes) : Request → Option Bytes → Prop
  | peek n, some memory => memory.take n = queue.take n ∧ n ≤ memory.length
  | peek n, none => n = 0
  | _, memory => memory = none

end Request

/-- The buffer holds the queue. -/
structure Holds (b : ChunkedBuffer) (queue : Bytes) : Prop where
  consistent : b.Consistent
  bytes : b.bytes = queue
  size : b.getSize = queue.length

/-- The buffer serves the requests as the queue does, and holds it before and after each. -/
def Serves : ChunkedBuffer → Bytes → List Request → Prop
  | b, queue, [] => b.Holds queue
  | b, queue, r :: rs => b.Holds queue ∧ ∃ memory b', b.serve r = some (memory, b') ∧ r.Exposes queue memory ∧
      Serves b' (r.after queue) rs

/-- The buffer of the stream filters, which keeps the bytes in one list. -/
def toStreamBuffer (b : ChunkedBuffer) : StreamBuffer := ⟨b.bytes, b.size⟩

/-- The chunks make no difference to the stream filters. -/
theorem Consistent.toStreamBuffer_write {b : ChunkedBuffer} (h : b.Consistent) {data : Bytes}
    (hroom : b.size + data.length < 2 ^ 32) : (b.write data).toStreamBuffer = b.toStreamBuffer.write data := by
  obtain ⟨-, hb, hs⟩ := h.write hroom
  simp only [toStreamBuffer, hb, hs, StreamBuffer.write, Nat.mod_eq_of_lt hroom]

theorem Consistent.toStreamBuffer_pop {b : ChunkedBuffer} (h : b.Consistent) (n : Nat) :
    (b.pop n).map toStreamBuffer = some (b.toStreamBuffer.pop n) := by
  obtain ⟨b', heq, hc, hb, hs⟩ := h.pop n
  rw [heq, Option.map_some, toStreamBuffer, StreamBuffer.pop, hb, hs]
  split_ifs with hn
  · have hlen : b.bytes.length ≤ n := by rw [h.length_bytes]; exact hn
    have hzero : b.size - n = 0 := Nat.sub_eq_zero_of_le hn
    rw [List.drop_eq_nil_of_le hlen, hzero]
  · rfl

end ChunkedBuffer
end Synergy
