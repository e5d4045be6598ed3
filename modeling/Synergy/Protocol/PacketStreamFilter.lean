import Mathlib.Order.Basic
import Synergy.Io.StreamBuffer
import Synergy.Lib.ByteOrder
import Synergy.Lib.Trace
import Synergy.Protocol.ProtocolUtil

/-! The filter that turns a byte stream into packets: a 4-byte length in front of
each message on the way out, one message at a time on the way in. -/
namespace Synergy
open Lib

inductive StreamEvent
  | inputReady
  | inputShutdown
  | inputFormatError
  deriving DecidableEq, Repr

structure PacketStreamFilter where
  size : Nat := 0
  buffer : StreamBuffer := {}
  inputShutdown : Bool := false
  formatError : Bool := false
  deriving DecidableEq, Repr

namespace PacketStreamFilter

/-- What one `write` hands to the underlying stream. -/
def write (message : Bytes) : Bytes := bigEndian 4 message.length ++ message

def isReady (f : PacketStreamFilter) : Bool :=
  f.size != 0 && decide (f.size ≤ f.buffer.getSize)

def getSize (f : PacketStreamFilter) : Nat :=
  if f.isReady then f.size else 0

/-- Takes the length of the next packet off the buffer when none is pending.
A length over the limit drops everything and is reported once. -/
def readPacketSize (f : PacketStreamFilter) : PacketStreamFilter × Bool × List StreamEvent :=
  if f.size = 0 ∧ 4 ≤ f.buffer.getSize then
    let size := ofBigEndian (f.buffer.data.take 4)
    let buffer := f.buffer.pop 4
    if protocolMaxMessageLength < size then
      ({ f with size := 0, buffer := buffer.pop buffer.getSize, formatError := true }, false, [.inputFormatError])
    else
      ({ f with size := size, buffer := buffer }, true, [])
  else
    (f, true, [])

/-- Drops the first `n` bytes of the pending packet. -/
def popPacket (f : PacketStreamFilter) (n : Nat) : PacketStreamFilter :=
  { f with buffer := f.buffer.pop n, size := f.size - n }

/-- What a `read` does: the bytes popped, those of them copied out (none for a null
destination), and the events it queues. -/
structure ReadResult where
  filter : PacketStreamFilter
  popped : Bytes
  copied : Bytes
  events : List StreamEvent

def read (f : PacketStreamFilter) (null : Bool) (n : Nat) : ReadResult :=
  if n = 0 then
    ⟨f, [], [], []⟩
  else if !f.isReady then
    ⟨f, [], [], []⟩
  else
    let n := if f.size < n then f.size else n
    let bytes := f.buffer.data.take n
    let (f, _, events) := (f.popPacket n).readPacketSize
    ⟨f, bytes, if null then [] else bytes,
      events ++ (if f.inputShutdown && f.size == 0 then [.inputShutdown] else [])⟩

/-- The loop of `readMore` over the blocks that the underlying stream returns before
it runs dry; a bad length leaves the rest of them in the stream. -/
def readBlocks (f : PacketStreamFilter) : List Bytes → PacketStreamFilter × List StreamEvent
  | [] => (f, [])
  | block :: blocks =>
    let (f, ok, events) := { f with buffer := f.buffer.write block }.readPacketSize
    if !ok then (f, events) else
      let (f, more) := readBlocks f blocks
      (f, events ++ more)

def readMore (f : PacketStreamFilter) (blocks : List Bytes) : PacketStreamFilter × Bool × List StreamEvent :=
  if f.formatError then
    (f, false, [])
  else
    let wasReady := f.isReady
    let (f, events) := f.readBlocks blocks
    (f, wasReady != f.isReady, events)

/-- Handles an event of the underlying stream and passes on what its listeners see. -/
def filterEvent (f : PacketStreamFilter) (event : StreamEvent) (blocks : List Bytes) :
    PacketStreamFilter × List StreamEvent :=
  match event with
  | .inputReady =>
    let (f, changed, events) := f.readMore blocks
    (f, if changed then events ++ [.inputReady] else events)
  | .inputShutdown =>
    let f := { f with inputShutdown := true }
    if f.size = 0 then (f, [.inputShutdown])
    else if f.size ≤ f.buffer.getSize then (f, [])
    else ({ f with size := 0 }, [.inputFormatError, .inputShutdown])
  | event => (f, [event])

theorem readPacketSize_idle {f : PacketStreamFilter} (h : f.size ≠ 0 ∨ f.buffer.getSize < 4) :
    f.readPacketSize = (f, true, []) := by
  unfold readPacketSize
  rw [if_neg (by omega)]

/-- With no packet pending and a length in the buffer, that length becomes pending. -/
theorem readPacketSize_header {f : PacketStreamFilter} {n : Nat} {rest : Bytes} (hs : f.size = 0)
    (hc : f.buffer.Counted) (hd : f.buffer.data = bigEndian 4 n ++ rest) (hn : n ≤ protocolMaxMessageLength) :
    ∃ buffer, buffer.Counted ∧ buffer.data = rest ∧
      f.readPacketSize = ({ f with size := n, buffer := buffer }, true, []) := by
  have hlen : 4 ≤ f.buffer.getSize := by
    rw [StreamBuffer.getSize, hc, hd]
    simp
  have htake : f.buffer.data.take 4 = bigEndian 4 n := by
    rw [hd, List.take_left' (length_bigEndian 4 n)]
  have hsize : ofBigEndian (bigEndian 4 n) = n := by
    apply ofBigEndian_bigEndian_of_lt
    unfold protocolMaxMessageLength at hn
    omega
  obtain ⟨hpop, hdrop⟩ := hc.pop 4
  refine ⟨f.buffer.pop 4, hpop, ?_, ?_⟩
  · rw [hdrop, hd, List.drop_left' (length_bigEndian 4 n)]
  · unfold readPacketSize
    rw [if_pos ⟨hs, hlen⟩, htake, hsize, if_neg (by omega)]

theorem read_not_ready {f : PacketStreamFilter} (h : f.isReady = false) (null : Bool) (n : Nat) :
    f.read null n = ⟨f, [], [], []⟩ := by
  unfold read
  simp [h]

theorem read_ready {f g : PacketStreamFilter} {events : List StreamEvent} {ok : Bool} (h : f.isReady) (null : Bool)
    {n : Nat} (hn : 0 < n) (hg : (f.popPacket (min f.size n)).readPacketSize = (g, ok, events)) :
    (f.read null n).filter = g ∧ (f.read null n).popped = f.buffer.data.take (min f.size n) := by
  have hmin : (if f.size < n then f.size else n) = min f.size n := by
    split
    next hlt => exact (Nat.min_eq_left hlt.le).symm
    next hge => exact (Nat.min_eq_right (not_lt.mp hge)).symm
  unfold read
  rw [if_neg (by omega), if_neg (by simp [h])]
  simp only [hmin]
  rw [hg]
  simp

end PacketStreamFilter
end Synergy

/-! A list of messages written to one end of a byte stream, read through the filter at
the other: what the reader gets, however the bytes arrive and the reads are timed. -/
namespace Synergy
open Lib

/-- The receiving end: the filter, the bytes still under way and those read so far. -/
structure PacketLink where
  filter : PacketStreamFilter := {}
  wire : Bytes
  delivered : Bytes := []
  deriving DecidableEq, Repr

inductive LinkAct
  | inputReady (blocks : List Bytes)
  | read (null : Bool) (n : Nat)
  deriving DecidableEq, Repr

namespace PacketLink

def frames (messages : List Bytes) : Bytes := messages.flatMap PacketStreamFilter.write

def start (messages : List Bytes) : PacketLink := { wire := frames messages }

def read (s : PacketLink) (null : Bool) (n : Nat) : PacketLink :=
  let r := s.filter.read null n
  { s with filter := r.filter, delivered := s.delivered ++ r.popped }

def inputReady (s : PacketLink) (blocks : List Bytes) : PacketLink :=
  { s with
    filter := (s.filter.filterEvent .inputReady blocks).1
    wire := s.wire.drop blocks.flatten.length }

def act (s : PacketLink) : LinkAct → PacketLink
  | .inputReady blocks => s.inputReady blocks
  | .read null n => s.read null n

/-- The stream may hand over the next bytes in any blocks that its 4096-byte buffer
takes; a reader may ask for any positive number of bytes. -/
def Allows (s : PacketLink) : LinkAct → Prop
  | .inputReady blocks => (∀ b ∈ blocks, b ≠ [] ∧ b.length ≤ 4096) ∧ blocks.flatten <+: s.wire
  | .read _ n => 0 < n

instance (s : PacketLink) : (a : LinkAct) → Decidable (s.Allows a)
  | .inputReady _ => inferInstanceAs (Decidable (_ ∧ _))
  | .read _ n => inferInstanceAs (Decidable (0 < n))

def Moves (s : PacketLink) (a : LinkAct) (t : PacketLink) : Prop := t = s.act a ∧ s.Allows a

/-- The bytes held after the step can still be counted in 32 bits. -/
def Fits (s : PacketLink) (a : LinkAct) (_ : PacketLink) : Prop :=
  match a with
  | .inputReady blocks => s.filter.buffer.data.length + blocks.flatten.length < 2 ^ 32
  | .read _ _ => True

instance (s : PacketLink) (a : LinkAct) (t : PacketLink) : Decidable (Fits s a t) :=
  match a with
  | .inputReady _ => inferInstanceAs (Decidable (_ < _))
  | .read _ _ => inferInstanceAs (Decidable True)

end PacketLink

/-- The length that the next four bytes announce. -/
def header (data : Bytes) : Nat := ofBigEndian (data.take 4)

/-- A frame with a message in it lies complete in the bytes, behind empty frames at most. -/
def completeFrame : Bytes → Bool
  | b0 :: b1 :: b2 :: b3 :: rest =>
    let n := ofBigEndian [b0, b1, b2, b3]
    if n = 0 then completeFrame rest else decide (n ≤ rest.length)
  | _ => false

/-- The bytes start with an empty frame, and a complete one is behind it. -/
def behindEmpty (data : Bytes) : Bool :=
  decide (4 ≤ data.length ∧ header data = 0) && completeFrame (data.drop 4)

/-- Every block but the last brings in an empty frame, and the last leaves another one
with a complete frame behind it. -/
def lastBehindEmpty : Bytes → List Bytes → Bool
  | _, [] => false
  | data, [block] => behindEmpty (data ++ block)
  | data, block :: blocks =>
    let data := data ++ block
    if data.length < 4 then lastBehindEmpty data blocks
    else if header data = 0 then lastBehindEmpty (data.drop 4) blocks
    else false

namespace PacketStreamFilter

def holdsFrame (f : PacketStreamFilter) : Bool :=
  if f.size = 0 then completeFrame f.buffer.data else decide (f.size ≤ f.buffer.data.length)

end PacketStreamFilter
namespace PacketLink

/-- The step takes the length of an empty frame last, with a complete frame behind it. -/
def StopsAtEmpty (s : PacketLink) : LinkAct → Bool
  | .inputReady blocks => decide (s.filter.size = 0) && lastBehindEmpty s.filter.buffer.data blocks
  | .read _ n => s.filter.isReady && decide (s.filter.size ≤ n) &&
      behindEmpty (s.filter.buffer.data.drop s.filter.size)

/-- What the filter owes its reader at a step: the bytes read so far are a prefix of the
messages; a read stays within one message, all of whose unread bytes are buffered; a
complete frame in the buffer can be read; and when all of a list of non-empty messages
has arrived, enough reads of any sizes get the rest. -/
structure Delivers (messages : List Bytes) (s : PacketLink) (a : LinkAct) (t : PacketLink) : Prop where
  inOrder : t.delivered <+: messages.flatten
  wholeMessage : ∀ null n, a = .read null n → t.delivered = s.delivered ∨
    ∃ done taken out rest todo, messages = done ++ (taken ++ out ++ rest) :: todo ∧
      s.delivered = done.flatten ++ taken ∧ t.delivered = s.delivered ++ out ∧
      out ++ rest <+: s.filter.buffer.data
  readable : t.filter.holdsFrame → t.filter.isReady
  drains : (∀ m ∈ messages, m ≠ []) → t.wire = [] → ∀ reads : List (Bool × Nat), (∀ r ∈ reads, 0 < r.2) →
    messages.flatten.length ≤ t.delivered.length + reads.length →
    (reads.foldl (fun u r => u.read r.1 r.2) t).delivered = messages.flatten

end PacketLink
end Synergy
