import Synergy.Lib.Trace
import Synergy.Net.QtReceived

/-! The queues of a connected Qt transport, beside what its socket has taken and brought. -/
namespace Synergy
open Synergy.Lib

/-- The calls to a transport and the signals of its socket. A write says how many bytes the socket
takes of what it is offered, none when it fails. -/
inductive TransportCall
  | write (data : Bytes) (written : Nat)
  | bytesWritten (bytes : Nat)
  | readyRead (data : Bytes)
  | read (size : Nat)
  deriving DecidableEq

/-- A transport with the account of what has gone through it. -/
structure TransportRun where
  transport : QtNetworkTransport
  accepted : Bytes := []
  offers : List Bytes := []
  notified : Nat := 0
  admitted : Bytes := []
  received : Bytes := []
  returned : Bytes := []
  deriving DecidableEq

namespace TransportRun
open QtNetworkTransport

/-- A transport that has just been connected. -/
def start : TransportRun := { transport := { connected := true } }

/-- The data would overflow the queue. -/
def refuses (r : TransportRun) (data : Bytes) : Prop :=
  r.transport.writeQueueLimit < r.transport.writeBuffer.length + data.length

instance (r : TransportRun) (data : Bytes) : Decidable (r.refuses data) := inferInstanceAs (Decidable (_ < _))

/-- What the socket is offered by a write. -/
def queue (r : TransportRun) (data : Bytes) : Bytes := r.transport.writeBuffer ++ data

def step (r : TransportRun) : TransportCall → TransportRun
  | .write data written =>
    if r.refuses data then { r with transport := r.transport.write data written }
    else
      { r with
        transport := r.transport.write data written
        accepted := r.accepted ++ (r.queue data).take written
        offers := if r.queue data = [] then r.offers else r.offers ++ [r.queue data]
        admitted := r.admitted ++ data }
  | .bytesWritten bytes => { r with transport := r.transport.onBytesWritten bytes, notified := r.notified + bytes }
  | .readyRead data =>
    { r with
      transport := if data.isEmpty then r.transport else r.transport.append data
      received := r.received ++ data }
  | .read size =>
    { r with transport := (r.transport.read size).2, returned := r.returned ++ (r.transport.read size).1 }

/-- A socket takes no more than it is offered, and does not announce more than it has taken. -/
def Possible (r : TransportRun) : TransportCall → Prop
  | .write data written => written ≤ (r.queue data).length
  | .bytesWritten bytes => r.notified + bytes ≤ r.accepted.length
  | _ => True

instance (r : TransportRun) : ∀ call, Decidable (r.Possible call)
  | .write _ _ => inferInstanceAs (Decidable (_ ≤ _))
  | .bytesWritten _ => inferInstanceAs (Decidable (_ ≤ _))
  | .readyRead _ => .isTrue trivial
  | .read _ => .isTrue trivial

def Step (r : TransportRun) (call : TransportCall) (r' : TransportRun) : Prop := r.Possible call ∧ r' = r.step call

/-- What the socket took and what is queued are the data of the writes that were not refused. -/
def Accounted (r : TransportRun) : Prop := r.accepted ++ r.transport.writeBuffer = r.admitted

/-- What was returned and what is held are the data that came. -/
def Readable (r : TransportRun) : Prop := r.returned ++ r.transport.pending = r.received

/-- A step of a first-in first-out queue in each direction. -/
structure FifoStep (r : TransportRun) (call : TransportCall) (r' : TransportRun) : Prop where
  accounted : r'.Accounted
  refused : ∀ data written, call = .write data written → r.refuses data →
    r' = { r with transport := { r.transport with fatalError := true } }
  offered : ∀ bytes, call = .bytesWritten bytes → r'.transport.writeBuffer ≠ [] → r.offers.length < r'.offers.length
  readable : r'.Readable

/-- A notification comes when nothing is queued. -/
def NotifiedEmpty (r : TransportRun) (call : TransportCall) (_ : TransportRun) : Prop :=
  ∀ bytes, call = .bytesWritten bytes → r.transport.writeBuffer = []

/-- What the queues keep between steps. -/
structure Steady (r : TransportRun) : Prop where
  connected : r.transport.connected = true
  inside : r.transport.Inside
  accounted : r.Accounted
  readable : r.Readable

variable {r : TransportRun}

private theorem write_of_refuses (hconnected : r.transport.connected = true) {data : Bytes} (h : r.refuses data)
    (written : Nat) : r.transport.write data written = { r.transport with fatalError := true } :=
  (if_neg (by simp [hconnected])).trans (if_pos h)

private theorem write_of_admits (hconnected : r.transport.connected = true) {data : Bytes} (h : ¬r.refuses data)
    (written : Nat) :
    r.transport.write data written = { r.transport with writeBuffer := (r.queue data).drop written } :=
  (if_neg (by simp [hconnected])).trans (if_neg h)

theorem Steady.write (h : r.Steady) (data : Bytes) (written : Nat) :
    FifoStep r (.write data written) (r.step (.write data written)) ∧ (r.step (.write data written)).Steady := by
  by_cases hrefused : r.refuses data
  · have hstep : r.step (.write data written) = { r with transport := { r.transport with fatalError := true } } := by
      rw [step, if_pos hrefused, write_of_refuses h.connected hrefused]
    rw [hstep]
    exact ⟨⟨h.accounted, fun _ _ _ _ => rfl, nofun, h.readable⟩, h.connected, h.inside, h.accounted, h.readable⟩
  · have hstep : r.step (.write data written) = { r with
        transport := { r.transport with writeBuffer := (r.queue data).drop written }
        accepted := r.accepted ++ (r.queue data).take written
        offers := if r.queue data = [] then r.offers else r.offers ++ [r.queue data]
        admitted := r.admitted ++ data } := by
      rw [step, if_neg hrefused, write_of_admits h.connected hrefused]
    have haccounted : (r.step (.write data written)).Accounted := by
      rw [hstep]
      unfold Accounted
      dsimp only
      rw [List.append_assoc, List.take_append_drop, queue, ← List.append_assoc, h.accounted]
    refine ⟨⟨haccounted, fun other written' hcall hother => ?_, nofun, ?_⟩, ?_, ?_, haccounted, ?_⟩
    · cases hcall
      exact absurd hother hrefused
    all_goals rw [hstep]
    · exact h.readable
    · exact h.connected
    · exact h.inside
    · exact h.readable

theorem Steady.readyRead (h : r.Steady) (data : Bytes) :
    FifoStep r (.readyRead data) (r.step (.readyRead data)) ∧ (r.step (.readyRead data)).Steady := by
  by_cases hdata : data = []
  · subst hdata
    have hstep : r.step (.readyRead []) = r := by
      rw [step, List.append_nil]
      rfl
    rw [hstep]
    exact ⟨⟨h.accounted, nofun, nofun, h.readable⟩, h⟩
  · have hstep : r.step (.readyRead data) =
        { r with transport := r.transport.append data, received := r.received ++ data } := by
      rw [step, if_neg (by simpa using hdata)]
    have hreadable : (r.step (.readyRead data)).Readable := by
      rw [hstep]
      unfold Readable
      dsimp only
      rw [h.inside.pending_append, ← List.append_assoc, h.readable]
    refine ⟨⟨?_, nofun, nofun, hreadable⟩, ?_, ?_, ?_, hreadable⟩
    all_goals rw [hstep]
    · exact h.accounted
    · exact h.connected
    · exact h.inside.append hdata
    · exact h.accounted

private theorem read_writeBuffer (t : QtNetworkTransport) (size : Nat) : (t.read size).2.writeBuffer =
    t.writeBuffer := by
  unfold QtNetworkTransport.read
  split
  · rfl
  · dsimp only
    unfold consume
    dsimp only
    split_ifs <;> rfl

theorem Steady.read (h : r.Steady) (size : Nat) :
    FifoStep r (.read size) (r.step (.read size)) ∧ (r.step (.read size)).Steady := by
  obtain ⟨hdata, hinside, hpending, hconnected⟩ := h.inside.read (fun _ => h.connected) size
  have haccounted : (r.step (.read size)).Accounted := by
    change r.accepted ++ (r.transport.read size).2.writeBuffer = r.admitted
    rw [read_writeBuffer, h.accounted]
  have hreadable : (r.step (.read size)).Readable := by
    change (r.returned ++ (r.transport.read size).1) ++ (r.transport.read size).2.pending = r.received
    rw [hdata, hpending, List.append_assoc, List.take_append_drop, h.readable]
  exact ⟨⟨haccounted, nofun, nofun, hreadable⟩, hconnected.trans h.connected, hinside, haccounted, hreadable⟩

private theorem onBytesWritten_members (t : QtNetworkTransport) (bytes : Nat) :
    (t.onBytesWritten bytes).readBuffer = t.readBuffer ∧ (t.onBytesWritten bytes).readOffset = t.readOffset ∧
      (t.onBytesWritten bytes).connected = t.connected := by
  unfold onBytesWritten
  split_ifs <;> exact ⟨rfl, rfl, rfl⟩

private theorem onBytesWritten_empty {t : QtNetworkTransport} (h : t.writeBuffer = []) (bytes : Nat) :
    (t.onBytesWritten bytes).writeBuffer = [] := by
  unfold onBytesWritten
  split_ifs
  · simp [h]
  · exact h

/-- A notification only keeps the queue right when there is none: otherwise it drops bytes that were not
taken, or leaves the rest where it is. -/
theorem Steady.bytesWritten_iff (h : r.Steady) (bytes : Nat) :
    r.transport.writeBuffer = [] ↔ FifoStep r (.bytesWritten bytes) (r.step (.bytesWritten bytes)) := by
  obtain ⟨hbuffer, hoffset, -⟩ := onBytesWritten_members r.transport bytes
  constructor
  · intro hempty
    have hnone := onBytesWritten_empty hempty bytes
    refine ⟨?_, nofun, fun _ _ hsome => absurd hnone hsome, ?_⟩
    · change r.accepted ++ (r.transport.onBytesWritten bytes).writeBuffer = r.admitted
      rw [hnone, ← hempty, h.accounted]
    · change r.returned ++ (r.transport.onBytesWritten bytes).pending = r.received
      rw [QtNetworkTransport.pending, hbuffer, hoffset, ← h.readable, QtNetworkTransport.pending]
  · intro hstep
    have hnone : (r.transport.onBytesWritten bytes).writeBuffer = [] := by
      by_contra hsome
      exact absurd (hstep.offered bytes rfl hsome) (lt_irrefl _)
    have haccounted : r.accepted ++ (r.transport.onBytesWritten bytes).writeBuffer = r.admitted := hstep.accounted
    rw [hnone, ← h.accounted] at haccounted
    exact (List.append_cancel_left haccounted).symm

theorem Steady.bytesWritten (h : r.Steady) {bytes : Nat} (hempty : r.transport.writeBuffer = []) :
    (r.step (.bytesWritten bytes)).Steady := by
  have hfifo := (h.bytesWritten_iff bytes).mp hempty
  obtain ⟨hbuffer, hoffset, hconnected⟩ := onBytesWritten_members r.transport bytes
  refine ⟨hconnected.trans h.connected, ?_, hfifo.accounted, hfifo.readable⟩
  have hinside := h.inside
  unfold Inside at hinside ⊢
  change (r.transport.onBytesWritten bytes).readOffset < (r.transport.onBytesWritten bytes).readBuffer.length ∨
    (r.transport.onBytesWritten bytes).readBuffer = [] ∧ (r.transport.onBytesWritten bytes).readOffset = 0
  rwa [hbuffer, hoffset]

/-- Both queues are first-in first-out along a run exactly when nothing is queued at each notification
of written bytes. -/
theorem fifo_iff {tr : List (TransportCall × TransportRun)} (hr : Trace Step start tr) :
    EachStep NotifiedEmpty start tr ↔ EachStep FifoStep start tr := by
  have hsteady : start.Steady := ⟨rfl, .inr ⟨rfl, rfl⟩, rfl, rfl⟩
  refine Trace.eachStep_iff Steady (fun r call r' h hstep => ?_) (fun r call r' h hstep hguard => ?_) hr hsteady
  · obtain ⟨-, rfl⟩ := hstep
    cases call with
    | write data written => exact iff_of_true nofun (h.write data written).1
    | bytesWritten bytes =>
      rw [← h.bytesWritten_iff bytes]
      exact ⟨fun hguard => hguard bytes rfl, fun hempty _ _ => hempty⟩
    | readyRead data => exact iff_of_true nofun (h.readyRead data).1
    | read size => exact iff_of_true nofun (h.read size).1
  · obtain ⟨-, rfl⟩ := hstep
    cases call with
    | write data written => exact (h.write data written).2
    | bytesWritten bytes => exact h.bytesWritten (hguard bytes rfl)
    | readyRead data => exact (h.readyRead data).2
    | read size => exact (h.read size).2

/-- Three bytes are written, of which the socket takes one and announces it. -/
def partlyTaken : List TransportCall := [.write [1, 2, 3] 1, .bytesWritten 1]

private theorem trace_partlyTaken : Trace Step start (runTrace step start partlyTaken) :=
  .cons ⟨by decide, rfl⟩ (.cons ⟨by decide, rfl⟩ (.nil _))

/-- The announcement drops a byte that was not taken. -/
theorem byte_dropped_twice :
    Trace Step start (runTrace step start partlyTaken) ∧
      ¬EachStep FifoStep start (runTrace step start partlyTaken) := by
  refine ⟨trace_partlyTaken, ?_⟩
  rintro ⟨-, hlast, -⟩
  have haccounted : ([1, 3] : Bytes) = [1, 2, 3] := hlast.accounted
  exact absurd haccounted (by decide)

theorem fifo_iff_partlyTaken :
    EachStep NotifiedEmpty start (runTrace step start partlyTaken) ↔
      EachStep FifoStep start (runTrace step start partlyTaken) :=
  fifo_iff trace_partlyTaken

end TransportRun
end Synergy
