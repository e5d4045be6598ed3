import Mathlib.Data.List.Nodup
import Mathlib.Logic.Function.Basic
import Mathlib.Order.Lattice
import Synergy.Events.Timers

/-! Timers over time. What is on the clock and what a timer has left add up to its deadline, whatever
is called in which order; so the deadlines tell which timers run out. -/
namespace Synergy.EventTimers
open Synergy.Lib

/-- When a timer runs out next, and how it goes on. -/
structure Alarm where
  deadline : ℚ
  timeout : ℚ
  oneShot : Bool

/-- What a call has come to. -/
inductive Occurrence
  | created (timer : Address) (duration : ℚ) (oneShot : Bool)
  | deleted (timer : Address)
  | fired (timer : Address)
  | quiet
  deriving DecidableEq

/-- The alarms that are set. -/
abbrev Alarms := Address → Option Alarm

/-- A timer that has run out is set again, unless it is to run out once. -/
def Alarm.again (now : ℚ) (a : Alarm) : Option Alarm :=
  if a.oneShot then none else some { a with deadline := now + a.timeout }

/-- The alarms that are set after the occurrences, the last of which comes first. -/
def alarms : List (ℚ × Occurrence) → Alarms
  | [] => fun _ => none
  | (now, .created timer duration oneShot) :: past =>
    Function.update (alarms past) timer (some ⟨now + duration, duration, oneShot⟩)
  | (_, .deleted timer) :: past => Function.update (alarms past) timer none
  | (now, .fired timer) :: past => Function.update (alarms past) timer ((alarms past timer).bind (Alarm.again now))
  | (_, .quiet) :: past => alarms past

inductive Call
  | newTimer (timer : Address) (duration : ℚ) (target : Address)
  | newOneShotTimer (timer : Address) (duration : ℚ) (target : Address)
  | deleteTimer (timer : Address)
  | hasTimerExpired

variable (H : StdHeap Timer.m_time)

/-- A call at a time, which both readings of the clock give. -/
def step (s : EventTimers) (now : ℚ) : Call → EventTimers × Occurrence
  | .newTimer timer duration target => (s.newTimer H now timer duration target, .created timer duration false)
  | .newOneShotTimer timer duration target =>
    (s.newOneShotTimer H now timer duration target, .created timer duration true)
  | .deleteTimer timer => (s.deleteTimer H timer, .deleted timer)
  | .hasTimerExpired =>
    match s.hasTimerExpired H now now with
    | (s, none) => (s, .quiet)
    | (s, some (_, event)) => (s, .fired event.m_timer)

/-- A new timer does not lie where another one does. -/
def Allocated (s : EventTimers) : Call → Prop
  | .newTimer timer _ _ | .newOneShotTimer timer _ _ => timer ∉ s.m_timers
  | .deleteTimer _ | .hasTimerExpired => True

/-- The time of the last occurrence. -/
def latest (start : ℚ) (past : List (ℚ × Occurrence)) : ℚ := (past.head?.map Prod.fst).getD start

/-- What has come of calls one after the other, the last one first, and the timers after them. -/
inductive Runs (start : ℚ) : List (ℚ × Occurrence) → EventTimers → Prop
  | init : Runs start [] (init start)
  | step {past : List (ℚ × Occurrence)} {s : EventTimers} {now : ℚ} (h : Runs start past s)
      (hnow : latest start past ≤ now) (call : Call) (hcall : s.Allocated call) :
      Runs start ((now, (s.step H now call).2) :: past) (s.step H now call).1

/-- Timers fire on time and once. -/
structure OnTime (past : List (ℚ × Occurrence)) : Prop where
  notBefore : ∀ later earlier now timer duration oneShot,
    past = later ++ (now, .created timer duration oneShot) :: earlier → (∀ e ∈ later, e.2 ≠ .deleted timer) →
      ∀ e ∈ later, e.2 = .fired timer → now + duration ≤ e.1
  once : ∀ later earlier now timer duration,
    past = later ++ (now, .created timer duration true) :: earlier → (∀ e ∈ later, e.2 ≠ .deleted timer) →
      (later.filter (·.2 = .fired timer)).length ≤ 1
  notDeleted : ∀ later earlier now timer,
    past = later ++ (now, .deleted timer) :: earlier →
      (∀ e ∈ later, ∀ duration oneShot, e.2 ≠ .created timer duration oneShot) →
      ∀ e ∈ later, e.2 ≠ .fired timer
  notAfter : ∀ later earlier now,
    past = later ++ (now, .quiet) :: earlier → ∀ timer a, alarms earlier timer = some a → now < a.deadline

/-! ### The timers of a list and their alarms -/

/-- The timers that wait are those with an alarm, and the alarm is what they have left from the mark on. -/
structure Holds (al : Alarms) (mark : ℚ) (l : List Timer) : Prop where
  exact : ∀ t ∈ l, al t.m_timer = some ⟨mark + t.m_time, t.m_timeout, t.m_oneShot⟩
  waits : ∀ timer a, al timer = some a → timer ∈ l.map Timer.m_timer
  nodup : (l.map Timer.m_timer).Nodup

namespace Holds
variable {al : Alarms} {mark : ℚ} {l l' : List Timer} {t : Timer}

theorem nil (mark : ℚ) : Holds (fun _ => none) mark [] :=
  ⟨fun _ ht => (List.not_mem_nil ht).elim, fun _ _ ha => (nomatch ha), List.nodup_nil⟩

theorem perm (h : Holds al mark l) (hp : l.Perm l') : Holds al mark l' where
  exact := fun t ht => h.exact t (hp.mem_iff.mpr ht)
  waits := fun timer a ha => (hp.map _).mem_iff.mp (h.waits timer a ha)
  nodup := (hp.map _).nodup_iff.mp h.nodup

theorem add (h : Holds al mark l) (ht : t.m_timer ∉ l.map Timer.m_timer) :
    Holds (Function.update al t.m_timer (some ⟨mark + t.m_time, t.m_timeout, t.m_oneShot⟩)) mark (t :: l) where
  exact := by
    intro t' ht'
    rcases List.mem_cons.mp ht' with rfl | ht'
    · exact Function.update_self ..
    · have hne : t'.m_timer ≠ t.m_timer := fun he => ht (he ▸ List.mem_map_of_mem ht')
      rw [Function.update_of_ne hne, h.exact t' ht']
  waits := by
    intro timer a ha
    rw [List.map_cons, List.mem_cons]
    by_cases he : timer = t.m_timer
    · exact Or.inl he
    · rw [Function.update_of_ne he] at ha
      exact Or.inr (h.waits timer a ha)
  nodup := List.nodup_cons.mpr ⟨ht, h.nodup⟩

/-- Without the timer, and without its alarm. -/
theorem delete (h : Holds al mark l) (timer : Address) :
    Holds (Function.update al timer none) mark (l.filter (·.m_timer ≠ timer)) where
  exact := by
    intro t ht
    obtain ⟨ht, hne⟩ := List.mem_filter.mp ht
    rw [Function.update_of_ne (of_decide_eq_true hne), h.exact t ht]
  waits := by
    intro timer' a ha
    have hne : timer' ≠ timer := by
      rintro rfl
      rw [Function.update_self] at ha
      cases ha
    rw [Function.update_of_ne hne] at ha
    obtain ⟨t, ht, rfl⟩ := List.mem_map.mp (h.waits timer' a ha)
    exact List.mem_map_of_mem (List.mem_filter.mpr ⟨ht, decide_eq_true hne⟩)
  nodup := h.nodup.sublist (List.filter_sublist.map _)

theorem tail (h : Holds al mark (t :: l)) : Holds (Function.update al t.m_timer none) mark l := by
  have hd := h.delete t.m_timer
  have hnot := (List.nodup_cons.mp h.nodup).1
  have hfilter : (t :: l).filter (·.m_timer ≠ t.m_timer) = l := by
    rw [List.filter_cons_of_neg (by simp), List.filter_eq_self]
    intro t' ht'
    exact decide_eq_true fun he => hnot (he ▸ List.mem_map_of_mem ht')
  rwa [hfilter] at hd

/-- The alarms stay as they are when all timers are counted down and the mark is set to the time. -/
theorem countdown (h : Holds al mark l) (now : ℚ) : Holds al now (l.map (Timer.countdown (now - mark))) where
  exact := by
    intro t' ht'
    obtain ⟨t, ht, rfl⟩ := List.mem_map.mp ht'
    have htime : now + (t.m_time - (now - mark)) = mark + t.m_time := by ring
    simp only [Timer.countdown, htime, h.exact t ht]
  waits := by
    rw [List.map_map]
    exact h.waits
  nodup := by
    rw [List.map_map]
    exact h.nodup

end Holds

/-! ### The calls -/

/-- The clock runs, and the timers that wait are the ones with an alarm. -/
structure Kept (al : Alarms) (s : EventTimers) : Prop where
  mark : ∃ mark, s.m_time = Stopwatch.started mark ∧ Holds al mark s.m_timerQueue.c
  live : ∀ timer a, al timer = some a → timer ∈ s.m_timers

theorem addTimer_kept {al : Alarms} {s : EventTimers} (h : Kept al s) {timer : Address} (hnew : timer ∉ s.m_timers)
    (now duration : ℚ) (target : Address) (oneShot : Bool) :
    Kept (Function.update al timer (some ⟨now + duration, duration, oneShot⟩))
      (s.addTimer H now timer duration target oneShot) := by
  obtain ⟨⟨mark, hmark, hholds⟩, hlive⟩ := h
  let t : Timer := ⟨timer, duration, if target = 0 then timer else target, oneShot, duration + (now - mark)⟩
  have hnot : timer ∉ s.m_timerQueue.c.map Timer.m_timer := by
    intro hmem
    obtain ⟨t', ht', rfl⟩ := List.mem_map.mp hmem
    exact hnew (hlive _ _ (hholds.exact t' ht'))
  have htime : mark + t.m_time = now + duration := by
    change mark + (duration + (now - mark)) = now + duration
    ring
  have hadd : s.addTimer H now timer duration target oneShot =
      ⟨Stopwatch.started mark, insert timer s.m_timers, s.m_timerQueue.push H t⟩ := by
    rw [addTimer, hmark, Stopwatch.started_getTime]
  have hperm := (s.m_timerQueue.push_perm H t).symm
  rw [hadd]
  refine ⟨⟨mark, rfl, ?_⟩, ?_⟩
  · have hnext := (hholds.add (t := t) hnot).perm hperm
    rwa [htime] at hnext
  · intro timer' a ha
    by_cases he : timer' = timer
    · exact Finset.mem_insert.mpr (Or.inl he)
    · rw [Function.update_of_ne he] at ha
      exact Finset.mem_insert_of_mem (hlive timer' a ha)

/-- The timer is taken out of the queue, wherever it stands. -/
theorem deleteTimer_perm {l : List Timer} (hl : (l.map Timer.m_timer).Nodup) (timer : Address) :
    l.eraseP (·.m_timer = timer) = l.filter (·.m_timer ≠ timer) := by
  induction l with
  | nil => rfl
  | cons t l ih =>
    obtain ⟨hnot, hl⟩ := List.nodup_cons.mp hl
    by_cases he : t.m_timer = timer
    · rw [List.eraseP_cons_of_pos (by simpa using he), List.filter_cons_of_neg (by simpa using he)]
      refine (List.filter_eq_self.mpr fun t' ht' => decide_eq_true ?_).symm
      rintro rfl
      exact hnot (he ▸ List.mem_map_of_mem ht')
    · rw [List.eraseP_cons_of_neg (by simpa using he), List.filter_cons_of_pos (by simpa using he), ih hl]

theorem deleteTimer_kept {al : Alarms} {s : EventTimers} (h : Kept al s) (timer : Address) :
    Kept (Function.update al timer none) (s.deleteTimer H timer) := by
  obtain ⟨⟨mark, hmark, hholds⟩, hlive⟩ := h
  have hperm : (s.m_timerQueue.c.filter (·.m_timer ≠ timer)).Perm (s.deleteTimer H timer).m_timerQueue.c := by
    rw [← deleteTimer_perm hholds.nodup, List.eraseP_eq_eraseIdx, deleteTimer]
    cases s.m_timerQueue.c.findIdx? (·.m_timer = timer) with
    | none => exact List.Perm.refl _
    | some index => exact (s.m_timerQueue.erase_perm H index).symm
  refine ⟨⟨mark, hmark, (hholds.delete timer).perm hperm⟩, fun timer' a ha => ?_⟩
  have hne : timer' ≠ timer := by
    rintro rfl
    rw [Function.update_self] at ha
    cases ha
  rw [Function.update_of_ne hne] at ha
  exact Finset.mem_erase.mpr ⟨hne, hlive timer' a ha⟩

/-- When the timers are looked at, none waits, or none has run out, or the head has: then it is out of
the queue, or set again. -/
theorem hasTimerExpired_cases {s : EventTimers} {mark : ℚ} (hmark : s.m_time = Stopwatch.started mark) (now : ℚ) :
    (s.m_timerQueue.c = [] ∧ s.hasTimerExpired H now now = (s, none)) ∨
      ∃ queue : PriorityQueue Timer.m_time,
        (s.hasTimerExpired H now now = (⟨Stopwatch.started now, s.m_timers, queue⟩, none) ∧
          queue.c = s.m_timerQueue.c.map (Timer.countdown (now - mark)) ∧ ∀ t ∈ queue.c, 0 < t.m_time) ∨
        ∃ t rest, s.m_timerQueue.c.map (Timer.countdown (now - mark)) = t :: rest ∧ t.m_time ≤ 0 ∧
          s.hasTimerExpired H now now =
            (⟨Stopwatch.started now, s.m_timers, queue⟩, some (t.m_target, t.fillEvent)) ∧
          queue.c.Perm (if t.m_oneShot then rest else t.reset :: rest) := by
  by_cases hempty : s.m_timerQueue.c = []
  · exact Or.inl ⟨hempty, by rw [hasTimerExpired, if_pos hempty]⟩
  right
  let counted := s.m_timerQueue.update (Timer.countdown (now - mark)) (Timer.countdown_le (now - mark))
  obtain ⟨t, rest, hcounted⟩ : ∃ t rest, counted.c = t :: rest :=
    List.exists_cons_of_ne_nil (mt List.map_eq_nil_iff.mp hempty)
  have htop : counted.top = some t := congrArg List.head? hcounted
  have hcall : s.hasTimerExpired H now now =
      if 0 < t.m_time then (⟨Stopwatch.started now, s.m_timers, counted⟩, none)
      else
        (⟨Stopwatch.started now, s.m_timers,
            if t.m_oneShot then counted.pop H else (counted.pop H).push H t.reset⟩,
          some (t.m_target, t.fillEvent)) := by
    simp only [counted] at htop
    simp only [hasTimerExpired, if_neg hempty, hmark, Stopwatch.started_getTime, Stopwatch.started_reset, htop, counted]
  by_cases hleft : 0 < t.m_time
  · rw [hcall, if_pos hleft]
    refine ⟨counted, Or.inl ⟨rfl, rfl, fun t' ht' => ?_⟩⟩
    exact hleft.trans_le (counted.top_le htop t' ht')
  · rw [hcall, if_neg hleft]
    refine ⟨_, Or.inr ⟨t, rest, hcounted, le_of_not_gt hleft, rfl, ?_⟩⟩
    have hpop := counted.pop_perm H hcounted
    cases t.m_oneShot with
    | true => exact hpop
    | false => exact ((counted.pop H).push_perm H t.reset).trans (hpop.cons _)

variable {start : ℚ} {past : List (ℚ × Occurrence)} {s : EventTimers}

/-- The timer that has run out first is out of the queue, or set again from the mark on. -/
theorem Holds.fire {al : Alarms} {mark : ℚ} {t : Timer} {rest : List Timer} (h : Holds al mark (t :: rest)) :
    Holds (Function.update al t.m_timer ((al t.m_timer).bind (Alarm.again mark))) mark
      (if t.m_oneShot then rest else t.reset :: rest) := by
  rw [h.exact t List.mem_cons_self, Option.bind_some]
  cases hshot : t.m_oneShot with
  | true => exact h.tail
  | false =>
    have hnot : t.reset.m_timer ∉ rest.map Timer.m_timer := (List.nodup_cons.mp h.nodup).1
    have hadd := h.tail.add hnot
    have hsame : t.reset.m_timer = t.m_timer := rfl
    rw [hsame, Function.update_idem] at hadd
    have hagain : Alarm.again mark ⟨mark + t.m_time, t.m_timeout, false⟩ =
        some ⟨mark + t.reset.m_time, t.reset.m_timeout, t.reset.m_oneShot⟩ := by
      simp [Alarm.again, Timer.reset, hshot]
    rw [hagain]
    exact hadd

/-- A look at the timers keeps them. What has run out was due, and if nothing has, nothing was. -/
theorem hasTimerExpired_step (h : Kept (alarms past) s) (now : ℚ) :
    Kept (alarms ((now, (s.step H now .hasTimerExpired).2) :: past)) (s.step H now .hasTimerExpired).1 ∧
      (((s.step H now .hasTimerExpired).2 = .quiet ∧ ∀ timer a, alarms past timer = some a → now < a.deadline) ∨
        ∃ timer a, (s.step H now .hasTimerExpired).2 = .fired timer ∧ alarms past timer = some a ∧
          a.deadline ≤ now) := by
  obtain ⟨⟨mark, hmark, hholds⟩, hlive⟩ := h
  have hcounted := hholds.countdown now
  rcases hasTimerExpired_cases H hmark now with
    ⟨hempty, hcall⟩ | ⟨queue, ⟨hcall, hqueue, hleft⟩ | ⟨t, rest, hlist, hout, hcall, hqueue⟩⟩
  · rw [step, hcall]
    refine ⟨⟨⟨mark, hmark, hholds⟩, hlive⟩, Or.inl ⟨rfl, fun timer a ha => ?_⟩⟩
    have hmem := hholds.waits timer a ha
    rw [hempty] at hmem
    cases hmem
  · rw [step, hcall]
    rw [← hqueue] at hcounted
    refine ⟨⟨⟨now, rfl, hcounted⟩, hlive⟩, Or.inl ⟨rfl, fun timer a ha => ?_⟩⟩
    obtain ⟨t, ht, rfl⟩ := List.mem_map.mp (hcounted.waits timer a ha)
    rw [hcounted.exact t ht] at ha
    obtain rfl := Option.some.inj ha
    exact lt_add_of_pos_right now (hleft t ht)
  · rw [step, hcall]
    rw [hlist] at hcounted
    have hdue := hcounted.exact t List.mem_cons_self
    refine ⟨⟨⟨now, rfl, hcounted.fire.perm hqueue.symm⟩, fun timer a ha => ?_⟩,
      Or.inr ⟨t.m_timer, _, rfl, hdue, ?_⟩⟩
    · by_cases he : timer = t.m_timer
      · exact he ▸ hlive t.m_timer _ hdue
      · exact hlive timer a ((Function.update_of_ne he ..).symm.trans ha)
    · exact add_le_of_nonpos_right hout

/-- Each call keeps the timers, with the alarms that what came of it leaves. -/
theorem step_kept (h : Kept (alarms past) s) (now : ℚ) (call : Call) (hcall : s.Allocated call) :
    Kept (alarms ((now, (s.step H now call).2) :: past)) (s.step H now call).1 := by
  cases call with
  | newTimer timer duration target => exact addTimer_kept H h hcall now duration target false
  | newOneShotTimer timer duration target => exact addTimer_kept H h hcall now duration target true
  | deleteTimer timer => exact deleteTimer_kept H h timer
  | hasTimerExpired => exact (hasTimerExpired_step H h now).1

theorem Runs.kept (h : Runs H start past s) : Kept (alarms past) s := by
  induction h with
  | init => exact ⟨⟨start, rfl, Holds.nil start⟩, fun _ _ ha => nomatch ha⟩
  | step _ _ call hcall ih => exact step_kept H ih _ call hcall

/-- Counted from the mark, the wait for the next timer ends at the first deadline. -/
theorem getNextTimerTimeout_reaches {al : Alarms} {s : EventTimers} {mark : ℚ}
    (h : Holds al mark s.m_timerQueue.c) :
    (s.getNextTimerTimeout = -1 ∧ ∀ timer, al timer = none) ∨
      ∃ timer a, al timer = some a ∧ s.getNextTimerTimeout = max 0 (a.deadline - mark) ∧
        ∀ timer' a', al timer' = some a' → a.deadline ≤ a'.deadline := by
  have hdue {timer : Address} {a : Alarm} (ha : al timer = some a) :
      ∃ t ∈ s.m_timerQueue.c, a.deadline = mark + t.m_time := by
    obtain ⟨t, ht, rfl⟩ := List.mem_map.mp (h.waits timer a ha)
    exact ⟨t, ht, congrArg Alarm.deadline (Option.some.inj (ha.symm.trans (h.exact t ht)))⟩
  rw [getNextTimerTimeout]
  cases htop : s.m_timerQueue.top with
  | none =>
    refine Or.inl ⟨rfl, fun timer => ?_⟩
    by_contra hne
    obtain ⟨a, ha⟩ := Option.ne_none_iff_exists'.mp hne
    obtain ⟨t, ht, _⟩ := hdue ha
    rw [List.head?_eq_none_iff.mp htop] at ht
    cases ht
  | some t =>
    have hmem : t ∈ s.m_timerQueue.c := List.mem_of_mem_head? htop
    have hleft : mark + t.m_time - mark = t.m_time := by ring
    refine Or.inr ⟨t.m_timer, _, h.exact t hmem, ?_, fun timer' a' ha' => ?_⟩
    · rw [hleft]
      dsimp only
      split_ifs with hout
      · exact (max_eq_left hout).symm
      · exact (max_eq_right (le_of_not_ge hout)).symm
    · obtain ⟨t', ht', hdeadline⟩ := hdue ha'
      rw [hdeadline]
      exact add_le_add_right (s.m_timerQueue.top_le htop t' ht') mark

/-! ### What comes of the calls -/

theorem hasTimerExpired_timers (s : EventTimers) (now : ℚ) :
    (s.step H now .hasTimerExpired).1.m_timers = s.m_timers := by
  have htimers : (s.hasTimerExpired H now now).1.m_timers = s.m_timers := by
    unfold hasTimerExpired
    split_ifs
    · rfl
    · dsimp only
      split
      · rfl
      · split_ifs <;> rfl
  rw [← htimers, step]
  rcases s.hasTimerExpired H now now with ⟨s', _ | ⟨target, event⟩⟩ <;> rfl

/-- A timer stays an object until it is deleted. -/
theorem step_live {timer : Address} (h : timer ∈ s.m_timers) {now : ℚ} {call : Call}
    (hnot : (s.step H now call).2 ≠ .deleted timer) : timer ∈ (s.step H now call).1.m_timers := by
  cases call with
  | newTimer | newOneShotTimer => exact Finset.mem_insert_of_mem h
  | deleteTimer timer' => exact Finset.mem_erase.mpr ⟨fun he => hnot (he ▸ rfl), h⟩
  | hasTimerExpired => rwa [hasTimerExpired_timers]

/-- A timer that is created is a new object. -/
theorem step_created {now : ℚ} {call : Call} (hcall : s.Allocated call) {timer : Address} {duration : ℚ}
    {oneShot : Bool} (h : (s.step H now call).2 = .created timer duration oneShot) :
    timer ∉ s.m_timers ∧ timer ∈ (s.step H now call).1.m_timers := by
  cases call with
  | newTimer | newOneShotTimer =>
    obtain ⟨rfl, _, _⟩ := Occurrence.created.inj h
    exact ⟨hcall, Finset.mem_insert_self _ _⟩
  | deleteTimer => cases h
  | hasTimerExpired =>
    revert h
    rw [step]
    rcases s.hasTimerExpired H now now with ⟨s', _ | ⟨target, event⟩⟩ <;> exact fun h => nomatch h

/-- A timer that fires was due. -/
theorem step_fired (h : Kept (alarms past) s) {now : ℚ} {call : Call} {timer : Address}
    (hfired : (s.step H now call).2 = .fired timer) : ∃ a, alarms past timer = some a ∧ a.deadline ≤ now := by
  cases call with
  | newTimer | newOneShotTimer | deleteTimer => cases hfired
  | hasTimerExpired =>
    rcases (hasTimerExpired_step H h now).2 with ⟨hquiet, _⟩ | ⟨timer', a, hout, ha, hdue⟩
    · rw [hquiet] at hfired
      cases hfired
    · rw [hout] at hfired
      obtain rfl := Occurrence.fired.inj hfired
      exact ⟨a, ha, hdue⟩

/-- When none fires, none is due. -/
theorem step_quiet (h : Kept (alarms past) s) {now : ℚ} {call : Call} (hquiet : (s.step H now call).2 = .quiet)
    {timer : Address} {a : Alarm} (ha : alarms past timer = some a) : now < a.deadline := by
  cases call with
  | newTimer | newOneShotTimer | deleteTimer => cases hquiet
  | hasTimerExpired =>
    rcases (hasTimerExpired_step H h now).2 with ⟨_, hnone⟩ | ⟨timer', a', hout, _⟩
    · exact hnone timer a ha
    · rw [hout] at hquiet
      cases hquiet

/-- The alarm of a timer is changed by what comes of that timer only. -/
theorem alarms_of_other {timer : Address} {now : ℚ} {o : Occurrence}
    (hcreated : ∀ duration oneShot, o ≠ .created timer duration oneShot) (hdeleted : o ≠ .deleted timer)
    (hfired : o ≠ .fired timer) : alarms ((now, o) :: past) timer = alarms past timer := by
  cases o with
  | created timer' duration oneShot =>
    have hne : timer ≠ timer' := by
      rintro rfl
      exact hcreated duration oneShot rfl
    exact Function.update_of_ne hne ..
  | deleted timer' =>
    have hne : timer ≠ timer' := by
      rintro rfl
      exact hdeleted rfl
    exact Function.update_of_ne hne ..
  | fired timer' =>
    have hne : timer ≠ timer' := by
      rintro rfl
      exact hfired rfl
    exact Function.update_of_ne hne ..
  | quiet => rfl

/-- What holds of a timer since it was created. -/
structure Since (created : ℚ) (timer : Address) (duration : ℚ) (oneShot : Bool) (later : List (ℚ × Occurrence))
    (alarm : Option Alarm) (s : EventTimers) : Prop where
  live : timer ∈ s.m_timers
  set : ∀ a, alarm = some a → created + duration ≤ a.deadline ∧ a.timeout = duration ∧ a.oneShot = oneShot
  notBefore : ∀ e ∈ later, e.2 = .fired timer → created + duration ≤ e.1
  once : oneShot = true → (later.filter (·.2 = .fired timer)).length ≤ if alarm = none then 1 else 0

private theorem Since.step {created : ℚ} {timer : Address} {duration : ℚ} {oneShot : Bool}
    {later : List (ℚ × Occurrence)} (h : Since created timer duration oneShot later (alarms past timer) s)
    (hkept : Kept (alarms past) s) {now : ℚ} (hnow : created ≤ now) {call : Call} (hcall : s.Allocated call)
    (hnot : (s.step H now call).2 ≠ .deleted timer) :
    Since created timer duration oneShot ((now, (s.step H now call).2) :: later)
      (alarms ((now, (s.step H now call).2) :: past) timer) (s.step H now call).1 := by
  have hlive := step_live H h.live hnot
  by_cases hfired : (s.step H now call).2 = .fired timer
  · obtain ⟨a, ha, hdue⟩ := step_fired H hkept hfired
    obtain ⟨hdeadline, htimeout, hshot⟩ := h.set a ha
    have halarm : alarms ((now, (s.step H now call).2) :: past) timer = a.again now := by
      rw [hfired]
      exact (Function.update_self ..).trans (by rw [ha]; rfl)
    refine ⟨hlive, fun a' ha' => ?_, fun e he hfire => ?_, fun hone => ?_⟩
    · rw [halarm, Alarm.again] at ha'
      split at ha'
      · cases ha'
      · obtain rfl := Option.some.inj ha'
        exact ⟨htimeout ▸ add_le_add_left hnow _, htimeout, hshot⟩
    · rcases List.mem_cons.mp he with rfl | he
      · exact hdeadline.trans hdue
      · exact h.notBefore e he hfire
    · have hcount := h.once hone
      have hnone : a.again now = none := if_pos (hshot.trans hone)
      rw [ha] at hcount
      rw [halarm, hnone, List.filter_cons_of_pos (by simpa using hfired), List.length_cons]
      exact Nat.succ_le_succ hcount
  · have hcreated : ∀ duration oneShot, (s.step H now call).2 ≠ .created timer duration oneShot :=
      fun _ _ he => (step_created H hcall he).1 h.live
    rw [alarms_of_other hcreated hnot hfired]
    refine ⟨hlive, h.set, fun e he hfire => ?_, fun hone => ?_⟩
    · rcases List.mem_cons.mp he with rfl | he
      · exact absurd hfire hfired
      · exact h.notBefore e he hfire
    · rw [List.filter_cons_of_neg (by simpa using hfired)]
      exact h.once hone

theorem Runs.since (h : Runs H start past s) {later earlier : List (ℚ × Occurrence)} {created : ℚ}
    {timer : Address} {duration : ℚ} {oneShot : Bool}
    (hpast : past = later ++ (created, .created timer duration oneShot) :: earlier)
    (hnot : ∀ e ∈ later, e.2 ≠ .deleted timer) :
    created ≤ latest start past ∧ Since created timer duration oneShot later (alarms past timer) s := by
  induction h generalizing later with
  | init => exact absurd hpast (List.append_ne_nil_of_right_ne_nil _ (List.cons_ne_nil _ _)).symm
  | @step past s now h hnow call hcall ih =>
    cases later with
    | nil =>
      obtain ⟨hhead, rfl⟩ := List.cons.inj hpast
      obtain ⟨rfl, ho⟩ := Prod.mk.inj hhead
      rw [ho]
      refine ⟨le_rfl, (step_created H hcall ho).2, fun a ha => ?_, fun e he => ?_, fun _ => Nat.zero_le _⟩
      · have halarm : alarms ((now, .created timer duration oneShot) :: past) timer =
            some ⟨now + duration, duration, oneShot⟩ := Function.update_self ..
        obtain rfl := Option.some.inj (halarm.symm.trans ha)
        exact ⟨le_rfl, rfl, rfl⟩
      · cases he
    | cons e later =>
      obtain ⟨rfl, hpast'⟩ := List.cons.inj hpast
      obtain ⟨hlatest, hsince⟩ := ih hpast' fun e he => hnot e (List.mem_cons_of_mem _ he)
      have hcreated := hlatest.trans hnow
      exact ⟨hcreated, hsince.step H h.kept hcreated hcall (hnot _ List.mem_cons_self)⟩

/-- A timer that is deleted has no alarm and fires no more. -/
theorem Runs.deleted (h : Runs H start past s) {later earlier : List (ℚ × Occurrence)} {now : ℚ} {timer : Address}
    (hpast : past = later ++ (now, .deleted timer) :: earlier)
    (hnot : ∀ e ∈ later, ∀ duration oneShot, e.2 ≠ .created timer duration oneShot) :
    alarms past timer = none ∧ ∀ e ∈ later, e.2 ≠ .fired timer := by
  induction h generalizing later with
  | init => exact absurd hpast (List.append_ne_nil_of_right_ne_nil _ (List.cons_ne_nil _ _)).symm
  | @step past s now' h hnow call hcall ih =>
    cases later with
    | nil =>
      obtain ⟨hhead, rfl⟩ := List.cons.inj hpast
      rw [(Prod.mk.inj hhead).2]
      exact ⟨Function.update_self .., fun e he => nomatch he⟩
    | cons e later =>
      obtain ⟨rfl, hpast'⟩ := List.cons.inj hpast
      obtain ⟨hnone, hfired⟩ := ih hpast' fun e he => hnot e (List.mem_cons_of_mem _ he)
      have hcreated := hnot _ List.mem_cons_self
      have hfire : (s.step H now' call).2 ≠ .fired timer := by
        intro hfire
        obtain ⟨a, ha, _⟩ := step_fired H h.kept hfire
        rw [hnone] at ha
        cases ha
      refine ⟨?_, fun e he => ?_⟩
      · by_cases hdeleted : (s.step H now' call).2 = .deleted timer
        · rw [hdeleted]
          exact Function.update_self ..
        · rw [alarms_of_other hcreated hdeleted hfire]
          exact hnone
      · rcases List.mem_cons.mp he with rfl | he
        · exact hfire
        · exact hfired e he

/-- What comes first is a run as well. -/
theorem Runs.suffix {later : List (ℚ × Occurrence)} (h : Runs H start (later ++ past) s) :
    ∃ s, Runs H start past s := by
  induction later generalizing s with
  | nil => exact ⟨s, h⟩
  | cons e later ih =>
    cases h with
    | step h => exact ih h

/-- Whatever is called at times that do not go back, timers fire on time and once. -/
theorem timers_on_time (start : ℚ) (past : List (ℚ × Occurrence)) (s : EventTimers) (h : Runs H start past s) :
    OnTime past where
  notBefore := fun later earlier now timer duration oneShot hpast hnot =>
    (h.since H hpast hnot).2.notBefore
  once := by
    intro later earlier now timer duration hpast hnot
    have hcount := (h.since H hpast hnot).2.once rfl
    split at hcount
    · exact hcount
    · exact hcount.trans (Nat.zero_le 1)
  notDeleted := fun later earlier now timer hpast hnot => (h.deleted H hpast hnot).2
  notAfter := by
    intro later earlier now hpast timer a ha
    obtain ⟨s', hrun⟩ := Runs.suffix H (hpast ▸ h)
    generalize hlast : (now, Occurrence.quiet) :: earlier = last at hrun
    cases hrun with
    | init => cases hlast
    | step hrun _ call _ =>
      obtain ⟨hhead, rfl⟩ := List.cons.inj hlast
      obtain ⟨rfl, ho⟩ := Prod.mk.inj hhead
      exact step_quiet H hrun.kept ho.symm ha

/-- A timer that runs for two seconds is looked at after one and after three, and fires the second time. -/
theorem timers_on_time_two_seconds : OnTime [(3, .fired 1), (1, .quiet), (0, .created 1 2 true)] := by
  let H := StdHeap.sorting Timer.m_time
  let s := ((init 0).step H 0 (.newOneShotTimer 1 2 0)).1
  have hcreated : Runs H 0 [(0, .created 1 2 true)] s :=
    Runs.init.step le_rfl (.newOneShotTimer 1 2 0) (Finset.notMem_empty 1)
  have hquiet := hcreated.step (by decide +kernel : (0 : ℚ) ≤ 1) .hasTimerExpired trivial
  have hfired := hquiet.step (by decide +kernel : (1 : ℚ) ≤ 3) .hasTimerExpired trivial
  have hone : (s.step H 1 .hasTimerExpired).2 = .quiet := by decide +kernel
  have hthree : ((s.step H 1 .hasTimerExpired).1.step H 3 .hasTimerExpired).2 = .fired 1 := by decide +kernel
  rw [hone, hthree] at hfired
  exact timers_on_time H 0 _ _ hfired

/-- When no timer has run out, the wait for the next one ends at the first deadline. -/
theorem wait_reaches_first (start : ℚ) (past : List (ℚ × Occurrence)) (s : EventTimers) (h : Runs H start past s)
    (now : ℚ) (hquiet : (s.step H now .hasTimerExpired).2 = .quiet) :
    let wait := (s.step H now .hasTimerExpired).1.getNextTimerTimeout
    (wait = -1 ∧ ∀ timer, alarms past timer = none) ∨
      ∃ timer a, alarms past timer = some a ∧ 0 < wait ∧ now + wait = a.deadline ∧
        ∀ timer' a', alarms past timer' = some a' → a.deadline ≤ a'.deadline := by
  obtain ⟨⟨mark, hmark, hholds⟩, -⟩ := h.kept H
  rcases hasTimerExpired_cases H hmark now with
    ⟨hempty, hcall⟩ | ⟨queue, ⟨hcall, hqueue, -⟩ | ⟨t, rest, -, -, hcall, -⟩⟩
  · have hstep : s.step H now .hasTimerExpired = (s, .quiet) := by rw [step, hcall]
    rw [hstep]
    rcases getNextTimerTimeout_reaches hholds with hnone | ⟨timer, a, ha, -⟩
    · exact .inl hnone
    · have hmem := hholds.waits timer a ha
      rw [hempty] at hmem
      cases hmem
  · have hstep : s.step H now .hasTimerExpired = (⟨Stopwatch.started now, s.m_timers, queue⟩, .quiet) := by
      rw [step, hcall]
    have hcounted := hholds.countdown now
    rw [← hqueue] at hcounted
    rw [hstep]
    rcases getNextTimerTimeout_reaches (s := ⟨Stopwatch.started now, s.m_timers, queue⟩) hcounted with
      hnone | ⟨timer, a, ha, hwait, hfirst⟩
    · exact .inl hnone
    · have hlater : 0 < a.deadline - now := sub_pos.mpr (step_quiet H (h.kept H) hquiet ha)
      refine .inr ⟨timer, a, ha, ?_, ?_, hfirst⟩
      · rw [hwait]
        exact lt_max_of_lt_right hlater
      · rw [hwait, max_eq_right hlater.le, add_sub_cancel]
  · rw [step, hcall] at hquiet
    cases hquiet

theorem wait_reaches_first_two_seconds :
    let s := ((init 0).step (StdHeap.sorting Timer.m_time) 0 (.newOneShotTimer 1 2 0)).1
    let wait := (s.step (StdHeap.sorting Timer.m_time) 1 .hasTimerExpired).1.getNextTimerTimeout
    let past := [((0 : ℚ), Occurrence.created 1 2 true)]
    (wait = -1 ∧ ∀ timer, alarms past timer = none) ∨
      ∃ timer a, alarms past timer = some a ∧ 0 < wait ∧ 1 + wait = a.deadline ∧
        ∀ timer' a', alarms past timer' = some a' → a.deadline ≤ a'.deadline :=
  wait_reaches_first _ 0 _ _ (Runs.init.step le_rfl (.newOneShotTimer 1 2 0) (Finset.notMem_empty 1)) 1
    (by decide +kernel)

end Synergy.EventTimers
