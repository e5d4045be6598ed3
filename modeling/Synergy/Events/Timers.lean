import Mathlib.Algebra.Order.Floor.Defs
import Mathlib.Data.Finset.Basic
import Mathlib.Data.Rat.Floor
import Synergy.Lib.Heap

/-! The timers of the event queue. The time that a timer has left is counted from the mark of one
clock, which all timers share. Time is exact, in seconds. -/
namespace Synergy
open Synergy.Lib

/-- Where an object lies in memory; zero is no object. -/
abbrev Address := Nat

/-- A clock that starts at its mark; when it is stopped, the mark is the time that it shows. -/
structure Stopwatch where
  m_mark : ℚ
  m_triggered : Bool
  m_stopped : Bool

namespace Stopwatch

/-- A clock that starts now. -/
def started (now : ℚ) : Stopwatch := ⟨now, false, false⟩

def start (w : Stopwatch) (now : ℚ) : Stopwatch :=
  if w.m_stopped then ⟨now - w.m_mark, false, false⟩ else { w with m_triggered := false }

def getTime (w : Stopwatch) (now : ℚ) : ℚ × Stopwatch :=
  if w.m_triggered then (w.m_mark, w.start now)
  else if w.m_stopped then (w.m_mark, w)
  else (now - w.m_mark, w)

def reset (w : Stopwatch) (now : ℚ) : ℚ × Stopwatch :=
  if w.m_stopped then (w.m_mark, { w with m_mark := 0 }) else (now - w.m_mark, { w with m_mark := now })

@[simp] theorem started_getTime (mark now : ℚ) : (started mark).getTime now = (now - mark, started mark) := rfl

@[simp] theorem started_reset (mark now : ℚ) : (started mark).reset now = (now - mark, started now) := rfl

end Stopwatch

/-- A vector that is kept a heap by the keys of its elements. -/
structure PriorityQueue {α β : Type} [LinearOrder β] (key : α → β) where
  c : List α
  heap : IsHeap key c

namespace PriorityQueue
variable {α β : Type} [LinearOrder β] {key : α → β} (H : StdHeap key)

def empty : PriorityQueue key := ⟨[], IsHeap.nil⟩

def top (q : PriorityQueue key) : Option α := q.c.head?

def push (q : PriorityQueue key) (v : α) : PriorityQueue key := ⟨H.pushHeap (q.c ++ [v]), H.push_isHeap v q.heap⟩

def pop (q : PriorityQueue key) : PriorityQueue key :=
  match hc : q.c with
  | [] => q
  | a :: l => ⟨(H.popHeap (a :: l)).dropLast, H.pop_isHeap (hc ▸ q.heap)⟩

def erase (q : PriorityQueue key) (i : Nat) : PriorityQueue key := ⟨H.makeHeap (q.c.eraseIdx i), H.make_isHeap _⟩

/-- Change the elements in place, by something that leaves their order as it is. -/
def update (q : PriorityQueue key) (f : α → α) (hf : ∀ a b, key a ≤ key b → key (f a) ≤ key (f b)) :
    PriorityQueue key :=
  ⟨q.c.map f, q.heap.map hf⟩

theorem push_perm (q : PriorityQueue key) (v : α) : (q.push H v).c.Perm (v :: q.c) :=
  (H.push_perm _).trans (List.perm_append_singleton v q.c)

theorem pop_perm {q : PriorityQueue key} {a : α} {l : List α} (h : q.c = a :: l) : (q.pop H).c.Perm l := by
  obtain ⟨c, heap⟩ := q
  subst h
  exact H.pop_perm heap

theorem erase_perm (q : PriorityQueue key) (i : Nat) : (q.erase H i).c.Perm (q.c.eraseIdx i) := H.make_perm _

/-- No element has a lower key than the head. -/
theorem top_le {q : PriorityQueue key} {a : α} (h : q.top = some a) : ∀ b ∈ q.c, key a ≤ key b := by
  obtain ⟨c, heap⟩ := q
  obtain ⟨l, rfl⟩ := List.head?_eq_some_iff.mp h
  exact heap.head_le

end PriorityQueue

/-- A timer in the queue: how long it runs, and how much of it is left, counted from the mark. -/
structure Timer where
  m_timer : Address
  m_timeout : ℚ
  m_target : Address
  m_oneShot : Bool
  m_time : ℚ

structure TimerEvent where
  m_timer : Address
  m_count : Nat
  deriving DecidableEq

namespace Timer

def reset (t : Timer) : Timer := { t with m_time := t.m_timeout }

/-- `operator-=`. -/
def countdown (dt : ℚ) (t : Timer) : Timer := { t with m_time := t.m_time - dt }

/-- How often the timer has run out. -/
def fillEvent (t : Timer) : TimerEvent :=
  ⟨t.m_timer, if t.m_time ≤ 0 then ⌊(t.m_timeout - t.m_time) / t.m_timeout⌋.toNat else 0⟩

theorem countdown_le (dt : ℚ) (a b : Timer) (h : a.m_time ≤ b.m_time) :
    (a.countdown dt).m_time ≤ (b.countdown dt).m_time := sub_le_sub_right h dt

end Timer

/-- The part of the event queue that keeps the timers. -/
structure EventTimers where
  m_time : Stopwatch
  m_timers : Finset Address
  m_timerQueue : PriorityQueue Timer.m_time

namespace EventTimers
variable (H : StdHeap Timer.m_time)

def init (now : ℚ) : EventTimers := ⟨Stopwatch.started now, ∅, PriorityQueue.empty⟩

/-- The initial time is the one asked for and what is on the clock, as that will be taken off. -/
def addTimer (s : EventTimers) (now : ℚ) (timer : Address) (duration : ℚ) (target : Address) (oneShot : Bool) :
    EventTimers :=
  let target := if target = 0 then timer else target
  let (time, watch) := s.m_time.getTime now
  ⟨watch, insert timer s.m_timers, s.m_timerQueue.push H ⟨timer, duration, target, oneShot, duration + time⟩⟩

def newTimer (s : EventTimers) (now : ℚ) (timer : Address) (duration : ℚ) (target : Address) : EventTimers :=
  s.addTimer H now timer duration target false

def newOneShotTimer (s : EventTimers) (now : ℚ) (timer : Address) (duration : ℚ) (target : Address) :
    EventTimers :=
  s.addTimer H now timer duration target true

def deleteTimer (s : EventTimers) (timer : Address) : EventTimers :=
  { s with
    m_timerQueue := match s.m_timerQueue.c.findIdx? (·.m_timer = timer) with
      | some index => s.m_timerQueue.erase H index
      | none => s.m_timerQueue
    m_timers := s.m_timers.erase timer }

/-- The target and the data of the event of a timer that has run out. The clock is read once for the
time gone by and once for its new mark. -/
def hasTimerExpired (s : EventTimers) (now mark : ℚ) : EventTimers × Option (Address × TimerEvent) :=
  if s.m_timerQueue.c = [] then (s, none)
  else
    let (time, watch) := s.m_time.getTime now
    let (_, watch) := watch.reset mark
    let queue := s.m_timerQueue.update (Timer.countdown time) (Timer.countdown_le time)
    match queue.top with
    | none => ({ s with m_time := watch, m_timerQueue := queue }, none)
    | some timer =>
      if 0 < timer.m_time then ({ s with m_time := watch, m_timerQueue := queue }, none)
      else
        let queue := queue.pop H
        let queue := if timer.m_oneShot then queue else queue.push H timer.reset
        ({ s with m_time := watch, m_timerQueue := queue }, some (timer.m_target, timer.fillEvent))

/-- How long to wait for a timer, or -1 without one. -/
def getNextTimerTimeout (s : EventTimers) : ℚ :=
  match s.m_timerQueue.top with
  | none => -1
  | some timer => if timer.m_time ≤ 0 then 0 else timer.m_time

end EventTimers
end Synergy
