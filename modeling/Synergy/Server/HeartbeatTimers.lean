import Synergy.Base.Types
import Synergy.Events.TimerRuns
import Synergy.Server.ClientProxy

/-! The heartbeat timers of the server's end of a connection, in the event queue that they are in. Of the messages
only what the timers depend on is kept. -/
namespace Synergy
open Synergy.Lib EventTimers

/-- A message as it is parsed: what is said of the rest of it is whether it is accepted, or nothing when a client
exception is thrown. -/
inductive HeartbeatMessage
  | noop
  | info (accepted : Option Bool)
  | keepAlive
  | other (accepted : Option Bool)
  | incomplete
  deriving DecidableEq

/-- A client proxy, one for protocol 1.3 or later when it keeps alive, and the timers of the event queue. Kept beside
them are what has come of the calls to the queue, the timers that the proxy has created, and when it last handled
data. -/
structure HeartbeatProxy where
  keepsAlive : Bool
  parser : ProxyParser
  connected : Bool
  exists_ : Bool
  m_heartbeatAlarm : ℚ
  m_keepAliveRate : ℚ
  m_heartbeatTimer : Address
  m_keepAliveTimer : Address
  queue : EventTimers
  past : List (ℚ × Occurrence)
  created : Finset Address
  lastData : Option ℚ

namespace HeartbeatProxy

def kKeepAliveRate : ℚ := 3
def kKeepAlivesUntilDeath : ℚ := 3
def kHeartRate : ℚ := -1
def kHeartBeatsUntilDeath : ℚ := 3

variable (H : StdHeap Timer.m_time) (proxy : Address) (new : Finset Address → Address) (now : ℚ) (p : HeartbeatProxy)

/-- `setHeartbeatRate`. -/
def setHeartbeatRate (rate alarm : ℚ) : HeartbeatProxy :=
  if p.keepsAlive then { p with m_keepAliveRate := rate, m_heartbeatAlarm := rate * kKeepAlivesUntilDeath }
  else { p with m_heartbeatAlarm := alarm }

def resetHeartbeatRate : HeartbeatProxy :=
  if p.keepsAlive then p.setHeartbeatRate kKeepAliveRate (kKeepAliveRate * kKeepAlivesUntilDeath)
  else p.setHeartbeatRate kHeartRate (kHeartRate * kHeartBeatsUntilDeath)

/-- A proxy that has just been created, on an event queue without timers. -/
def start (keepsAlive : Bool) : HeartbeatProxy :=
  let p : HeartbeatProxy :=
    { keepsAlive := keepsAlive, parser := .handshake, connected := true, exists_ := true
      m_heartbeatAlarm := kHeartRate * kHeartBeatsUntilDeath, m_keepAliveRate := kKeepAliveRate
      m_heartbeatTimer := 0, m_keepAliveTimer := 0
      queue := EventTimers.init now, past := [], created := ∅, lastData := none }
  if keepsAlive then p.setHeartbeatRate kKeepAliveRate (kKeepAliveRate * kKeepAlivesUntilDeath) else p

/-- A call to the event queue. -/
def call (c : Call) : HeartbeatProxy :=
  { p with queue := (p.queue.step H now c).1, past := (now, (p.queue.step H now c).2) :: p.past }

namespace ClientProxy1_0

def addHeartbeatTimer : HeartbeatProxy :=
  if 0 < p.m_heartbeatAlarm then
    let timer := new p.queue.m_timers
    { p.call H now (.newOneShotTimer timer p.m_heartbeatAlarm proxy) with
      m_heartbeatTimer := timer, created := insert timer p.created }
  else p

def removeHeartbeatTimer : HeartbeatProxy :=
  if p.m_heartbeatTimer ≠ 0 then { p.call H now (.deleteTimer p.m_heartbeatTimer) with m_heartbeatTimer := 0 } else p

end ClientProxy1_0

def addHeartbeatTimer : HeartbeatProxy :=
  if p.keepsAlive ∧ 0 < p.m_keepAliveRate then
    let timer := new p.queue.m_timers
    ClientProxy1_0.addHeartbeatTimer H proxy new now
      { p.call H now (.newTimer timer p.m_keepAliveRate 0) with
        m_keepAliveTimer := timer, created := insert timer p.created }
  else ClientProxy1_0.addHeartbeatTimer H proxy new now p

def removeHeartbeatTimer : HeartbeatProxy :=
  if p.keepsAlive ∧ p.m_keepAliveTimer ≠ 0 then
    ClientProxy1_0.removeHeartbeatTimer H now
      { p.call H now (.deleteTimer p.m_keepAliveTimer) with m_keepAliveTimer := 0 }
  else ClientProxy1_0.removeHeartbeatTimer H now p

/-- The alarm is reset and the timer that keeps alive is not. -/
def resetHeartbeatTimer : HeartbeatProxy :=
  ClientProxy1_0.addHeartbeatTimer H proxy new now (ClientProxy1_0.removeHeartbeatTimer H now p)

def disconnect : HeartbeatProxy := removeHeartbeatTimer H now { p with connected := false }

/-- Whether a message is accepted, and the proxy after it; nothing when an exception is thrown. -/
def parse (p : HeartbeatProxy) : HeartbeatMessage → Option (Bool × HeartbeatProxy)
  | .incomplete => none
  | .noop => some (true, p)
  | .info accepted =>
    match p.parser with
    | .handshake =>
      accepted.map fun ok =>
        let p := { p with parser := .message }
        (ok, if ok then addHeartbeatTimer H proxy new now p else p)
    | .message => accepted.map fun ok => (ok, p)
  | .keepAlive =>
    match p.parser with
    | .handshake => some (false, p)
    | .message => if p.keepsAlive then some (true, resetHeartbeatTimer H proxy new now p) else some (false, p)
  | .other accepted =>
    match p.parser with
    | .handshake => some (false, p)
    | .message => accepted.map fun ok => (ok, p)

/-- The loop over the messages; those behind one that is not accepted are what has arrived since. -/
def handleMessages : HeartbeatProxy → List HeartbeatMessage → HeartbeatProxy
  | p, [] => resetHeartbeatTimer H proxy new now p
  | p, message :: messages =>
    match parse H proxy new now p message with
    | none => disconnect H now p
    | some (_, p) => handleMessages p messages

def handleData (messages : List HeartbeatMessage) : HeartbeatProxy :=
  handleMessages H proxy new now { p with lastData := some now } messages

def resetOptions : HeartbeatProxy :=
  addHeartbeatTimer H proxy new now (removeHeartbeatTimer H now p.resetHeartbeatRate)

/-- The rate that an option of some milliseconds stands for. -/
def rateOf (value : Int) : ℚ :=
  let rate := (value : ℚ) / 1000
  if rate ≤ 0 then -1 else rate

/-- The loop over the options and their values. -/
def setOptionPairs : HeartbeatProxy → List Int → HeartbeatProxy
  | p, option :: value :: options =>
    if option = kOptionHeartbeat then
      let p := p.setHeartbeatRate (rateOf value) (rateOf value * kHeartBeatsUntilDeath)
      setOptionPairs (addHeartbeatTimer H proxy new now (removeHeartbeatTimer H now p)) options
    else setOptionPairs p options
  | p, _ => p

def setOptions (options : List Int) : HeartbeatProxy :=
  if options.length % 2 ≠ 0 then p else setOptionPairs H proxy new now p options

/-- The destructors, of the class for protocol 1.3 and of the one for 1.0. -/
def destroy : HeartbeatProxy :=
  { ClientProxy1_0.removeHeartbeatTimer H now { removeHeartbeatTimer H now p with connected := false } with
    exists_ := false }

/-- The proxy after the timers were looked at. -/
def looked : HeartbeatProxy := p.call H now .hasTimerExpired

/-- The event of the timer that has run out is for the handler of the alarm. -/
def Flatlines : Prop :=
  p.connected = true ∧ ∃ event, (p.queue.hasTimerExpired H now now).2 = some (proxy, event)

def handleTimer : HeartbeatProxy :=
  match (p.queue.hasTimerExpired H now now).2 with
  | none => p.looked H now
  | some (target, _) => if p.connected ∧ target = proxy then disconnect H now (p.looked H now) else p.looked H now

/-- What may happen to a proxy and its event queue: what it is called for, and what others call the queue for. -/
inductive Action
  | handleData (messages : List HeartbeatMessage)
  | resetOptions
  | setOptions (options : List Int)
  | disconnect
  | destroy
  | timer
  | others (c : Call)
  deriving Inhabited

/-- The proxy after an action. Its own actions end with it, and the handlers of its stream with the connection. -/
def step (p : HeartbeatProxy) : Action → HeartbeatProxy
  | .handleData messages => if p.connected then handleData H proxy new now p messages else p
  | .resetOptions => if p.exists_ then resetOptions H proxy new now p else p
  | .setOptions options => if p.exists_ then setOptions H proxy new now p options else p
  | .disconnect => if p.exists_ then disconnect H now p else p
  | .destroy => if p.exists_ then destroy H now p else p
  | .timer => handleTimer H proxy now p
  | .others c =>
    { p.call H now c with
      created := match c with
        | .newTimer timer _ _ | .newOneShotTimer timer _ _ => p.created.erase timer
        | .deleteTimer _ | .hasTimerExpired => p.created }

/-- The timers that the proxy has created and that have not been deleted. -/
def live : Finset Address := p.queue.m_timers ∩ p.created

end HeartbeatProxy
end Synergy

/-! The heartbeat timers over time: which of them are live, and when the alarm goes off. -/
namespace Synergy
open Synergy.Lib
namespace EventTimers
variable (H : StdHeap Timer.m_time) {s : EventTimers} {past : List (ℚ × Occurrence)} {t : Timer}

/-! ### The targets of the timers in the queue -/

theorem mem_addTimer {now : ℚ} {timer : Address} {duration : ℚ} {target : Address} {oneShot : Bool}
    (h : t ∈ (s.addTimer H now timer duration target oneShot).m_timerQueue.c) :
    t ∈ s.m_timerQueue.c ∨ t.m_timer = timer ∧ t.m_target = if target = 0 then timer else target := by
  rcases List.mem_cons.mp ((s.m_timerQueue.push_perm H _).mem_iff.mp h) with rfl | h
  · exact .inr ⟨rfl, rfl⟩
  · exact .inl h

theorem mem_deleteTimer (hkept : Kept (alarms past) s) {timer : Address}
    (h : t ∈ (s.deleteTimer H timer).m_timerQueue.c) : t ∈ s.m_timerQueue.c ∧ t.m_timer ≠ timer := by
  obtain ⟨⟨mark, -, hholds⟩, -⟩ := hkept
  have hperm : (s.m_timerQueue.c.filter (·.m_timer ≠ timer)).Perm (s.deleteTimer H timer).m_timerQueue.c := by
    rw [← deleteTimer_perm hholds.nodup, List.eraseP_eq_eraseIdx, deleteTimer]
    cases s.m_timerQueue.c.findIdx? (·.m_timer = timer) with
    | none => exact List.Perm.refl _
    | some index => exact (s.m_timerQueue.erase_perm H index).symm
  obtain ⟨hmem, hne⟩ := List.mem_filter.mp (hperm.mem_iff.mpr h)
  exact ⟨hmem, of_decide_eq_true hne⟩

/-- A look at the timers changes no targets, and tells the target of a timer that has been in the queue. -/
theorem hasTimerExpired_targets (hkept : Kept (alarms past) s) (now : ℚ) :
    (∀ t' ∈ (s.hasTimerExpired H now now).1.m_timerQueue.c,
      ∃ t ∈ s.m_timerQueue.c, t.m_timer = t'.m_timer ∧ t.m_target = t'.m_target) ∧
    ∀ target event, (s.hasTimerExpired H now now).2 = some (target, event) →
      ∃ t ∈ s.m_timerQueue.c, t.m_timer = event.m_timer ∧ t.m_target = target := by
  obtain ⟨⟨mark, hmark, -⟩, -⟩ := hkept
  have hcounted {t' : Timer} (ht' : t' ∈ s.m_timerQueue.c.map (Timer.countdown (now - mark))) :
      ∃ t ∈ s.m_timerQueue.c, t.m_timer = t'.m_timer ∧ t.m_target = t'.m_target := by
    obtain ⟨t, ht, rfl⟩ := List.mem_map.mp ht'
    exact ⟨t, ht, rfl, rfl⟩
  rcases hasTimerExpired_cases H hmark now with
    ⟨-, hcall⟩ | ⟨queue, ⟨hcall, hqueue, -⟩ | ⟨t, rest, hlist, -, hcall, hqueue⟩⟩
  · rw [hcall]
    exact ⟨fun t' ht' => ⟨t', ht', rfl, rfl⟩, fun _ _ h => nomatch h⟩
  · rw [hcall]
    exact ⟨fun t' ht' => hcounted (hqueue ▸ ht'), fun _ _ h => nomatch h⟩
  · rw [hcall]
    have hhead := hcounted (hlist ▸ List.mem_cons_self : t ∈ _)
    refine ⟨fun t' ht' => ?_, fun target event hevent => ?_⟩
    · have hmem := hqueue.mem_iff.mp ht'
      split_ifs at hmem
      · exact hcounted (hlist ▸ List.mem_cons_of_mem _ hmem)
      · rcases List.mem_cons.mp hmem with rfl | hmem
        · exact hhead
        · exact hcounted (hlist ▸ List.mem_cons_of_mem _ hmem)
    · obtain ⟨rfl, rfl⟩ := Prod.mk.inj (Option.some.inj hevent)
      exact hhead

end EventTimers

open EventTimers
namespace HeartbeatProxy

/-- A new timer lies where nothing else does. -/
def Allocates (proxy : Address) (new : Finset Address → Address) : Prop :=
  ∀ timers, new timers ∉ timers ∧ new timers ≠ 0 ∧ new timers ≠ proxy

variable {H : StdHeap Timer.m_time} {proxy : Address} {new : Finset Address → Address} {start now : ℚ}
  {p : HeartbeatProxy}

/-- The timers of the proxy are the ones that it holds, and only the alarm is for the proxy. -/
structure Tracked (H : StdHeap Timer.m_time) (proxy : Address) (start now : ℚ) (p : HeartbeatProxy) : Prop where
  runs : Runs H start p.past p.queue
  time : latest start p.past ≤ now
  data : ∀ last, p.lastData = some last → last ≤ now
  live : ∀ timer, timer ∈ p.live ↔ timer ≠ 0 ∧ (timer = p.m_heartbeatTimer ∨ timer = p.m_keepAliveTimer)
  apart : p.m_heartbeatTimer = p.m_keepAliveTimer → p.m_heartbeatTimer = 0
  keepAlive : p.keepsAlive = false → p.m_keepAliveTimer = 0
  aimed : ∀ t ∈ p.queue.m_timerQueue.c, t.m_target = proxy → p.m_heartbeatTimer ≠ 0 ∧ t.m_timer = p.m_heartbeatTimer

/-- The alarm goes off once, and not before its time after the last data. -/
def Armed (p : HeartbeatProxy) : Prop :=
  p.m_heartbeatTimer ≠ 0 → ∀ a, alarms p.past p.m_heartbeatTimer = some a →
    a.oneShot = true ∧ ∀ last, p.lastData = some last → last + p.m_heartbeatAlarm ≤ a.deadline

/-- Without a connection there are no timers. -/
def Quiet (p : HeartbeatProxy) : Prop := p.connected = false → p.m_heartbeatTimer = 0 ∧ p.m_keepAliveTimer = 0

/-- What the timers are not part of. -/
structure Alike (p q : HeartbeatProxy) : Prop where
  keepsAlive : q.keepsAlive = p.keepsAlive
  parser : q.parser = p.parser
  connected : q.connected = p.connected
  exists_ : q.exists_ = p.exists_
  lastData : q.lastData = p.lastData

theorem Alike.refl (p : HeartbeatProxy) : p.Alike p := ⟨rfl, rfl, rfl, rfl, rfl⟩

theorem Alike.trans {q r : HeartbeatProxy} (h : p.Alike q) (h' : q.Alike r) : p.Alike r :=
  ⟨h'.keepsAlive.trans h.keepsAlive, h'.parser.trans h.parser, h'.connected.trans h.connected,
    h'.exists_.trans h.exists_, h'.lastData.trans h.lastData⟩

theorem mem_live {timer : Address} : timer ∈ p.live ↔ timer ∈ p.queue.m_timers ∧ timer ∈ p.created :=
  Finset.mem_inter

theorem Tracked.held (h : p.Tracked H proxy start now) {timer : Address} (hne : timer ≠ 0)
    (hheld : timer = p.m_heartbeatTimer ∨ timer = p.m_keepAliveTimer) :
    timer ∈ p.queue.m_timers ∧ timer ∈ p.created :=
  mem_live.mp ((h.live timer).mpr ⟨hne, hheld⟩)

theorem Tracked.later (h : p.Tracked H proxy start now) {now' : ℚ} (hnow : now ≤ now') : p.Tracked H proxy start now' :=
  { h with time := h.time.trans hnow, data := fun last hlast => (h.data last hlast).trans hnow }

private theorem live_erase {timers created : Finset Address} {a b : Address}
    (h : ∀ t, t ∈ timers ∧ t ∈ created ↔ t ≠ 0 ∧ (t = a ∨ t = b)) (hne : a ≠ b) (t : Address) :
    t ∈ timers.erase a ∧ t ∈ created ↔ t ≠ 0 ∧ t = b := by
  rw [Finset.mem_erase, and_assoc, h]
  constructor
  · rintro ⟨ha, hzero, hheld | hheld⟩
    · exact absurd hheld ha
    · exact ⟨hzero, hheld⟩
  · rintro ⟨hzero, rfl⟩
    exact ⟨hne.symm, hzero, .inr rfl⟩

private theorem live_insert {timers created : Finset Address} {timer b : Address}
    (h : ∀ t, t ∈ timers ∧ t ∈ created ↔ t ≠ 0 ∧ t = b) (hzero : timer ≠ 0) (t : Address) :
    t ∈ insert timer timers ∧ t ∈ insert timer created ↔ t ≠ 0 ∧ (t = timer ∨ t = b) := by
  rw [Finset.mem_insert, Finset.mem_insert]
  by_cases ht : t = timer
  · subst ht
    exact iff_of_true ⟨.inl rfl, .inl rfl⟩ ⟨hzero, .inl rfl⟩
  · rw [or_iff_right ht, or_iff_right ht, or_iff_right ht, h]

namespace ClientProxy1_0

theorem removeHeartbeatTimer_heartbeatTimer (p : HeartbeatProxy) :
    (removeHeartbeatTimer H now p).m_heartbeatTimer = 0 := by
  unfold removeHeartbeatTimer
  split_ifs with h
  · rfl
  · exact not_not.mp h

theorem removeHeartbeatTimer_keepAliveTimer (p : HeartbeatProxy) :
    (removeHeartbeatTimer H now p).m_keepAliveTimer = p.m_keepAliveTimer := by
  unfold removeHeartbeatTimer
  split_ifs
  · rfl
  · rfl

theorem removeHeartbeatTimer_rates (p : HeartbeatProxy) :
    (removeHeartbeatTimer H now p).m_heartbeatAlarm = p.m_heartbeatAlarm ∧
      (removeHeartbeatTimer H now p).m_keepAliveRate = p.m_keepAliveRate := by
  unfold removeHeartbeatTimer
  split_ifs
  · exact ⟨rfl, rfl⟩
  · exact ⟨rfl, rfl⟩

theorem removeHeartbeatTimer_alike (p : HeartbeatProxy) : p.Alike (removeHeartbeatTimer H now p) := by
  unfold removeHeartbeatTimer
  split_ifs
  · exact ⟨rfl, rfl, rfl, rfl, rfl⟩
  · exact .refl p

theorem tracked_removeHeartbeatTimer (h : p.Tracked H proxy start now) :
    (removeHeartbeatTimer H now p).Tracked H proxy start now := by
  unfold removeHeartbeatTimer
  split_ifs with hnone
  · refine ⟨h.runs.step h.time (.deleteTimer _) trivial, le_rfl, h.data, fun timer => ?_, fun _ => rfl, h.keepAlive, ?_⟩
    · have herase := live_erase (fun t => mem_live.symm.trans (h.live t)) (fun he => hnone (h.apart he)) timer
      refine mem_live.trans (herase.trans ?_)
      exact and_congr_right fun hzero => (or_iff_right hzero).symm
    · intro t ht htarget
      obtain ⟨hmem, hne⟩ := mem_deleteTimer H h.runs.kept ht
      exact absurd (h.aimed t hmem htarget).2 hne
  · exact h

theorem addHeartbeatTimer_alike (p : HeartbeatProxy) : p.Alike (addHeartbeatTimer H proxy new now p) := by
  unfold addHeartbeatTimer
  split_ifs
  · exact ⟨rfl, rfl, rfl, rfl, rfl⟩
  · exact .refl p

/-- Without an alarm before it, a new one is the only one. -/
theorem tracked_addHeartbeatTimer (hnew : Allocates proxy new) (h : p.Tracked H proxy start now)
    (hvacant : 0 < p.m_heartbeatAlarm → p.m_heartbeatTimer = 0) :
    (addHeartbeatTimer H proxy new now p).Tracked H proxy start now := by
  unfold addHeartbeatTimer
  split_ifs with halarm
  · have hnone := hvacant halarm
    obtain ⟨hfresh, hzero, hproxy⟩ := hnew p.queue.m_timers
    refine ⟨h.runs.step h.time (.newOneShotTimer _ _ _) hfresh, le_rfl, h.data, fun timer => ?_, fun he => ?_,
      h.keepAlive, fun t ht htarget => ?_⟩
    · refine mem_live.trans (live_insert (fun t => mem_live.symm.trans ((h.live t).trans ?_)) hzero timer)
      rw [hnone]
      exact and_congr_right fun ht => or_iff_right ht
    · have hka : p.m_keepAliveTimer ≠ 0 := fun hka => hzero (he.trans hka)
      exact absurd (h.held hka (.inr rfl)).1 (he ▸ hfresh)
    · rcases mem_addTimer H ht with hmem | ⟨htimer, -⟩
      · exact absurd hnone (h.aimed t hmem htarget).1
      · exact ⟨hzero, htimer⟩
  · exact h

theorem armed_addHeartbeatTimer (h : p.Tracked H proxy start now) (hnone : p.m_heartbeatTimer = 0) :
    (addHeartbeatTimer H proxy new now p).Armed := by
  unfold addHeartbeatTimer
  split_ifs with halarm
  · intro _ a ha
    change Function.update _ _ _ _ = _ at ha
    rw [Function.update_self] at ha
    cases ha
    exact ⟨rfl, fun last hlast => add_le_add_left (h.data last hlast) _⟩
  · exact fun hsome => absurd hnone hsome

end ClientProxy1_0

theorem removeHeartbeatTimer_rates (p : HeartbeatProxy) :
    (removeHeartbeatTimer H now p).m_heartbeatAlarm = p.m_heartbeatAlarm ∧
      (removeHeartbeatTimer H now p).m_keepAliveRate = p.m_keepAliveRate := by
  unfold removeHeartbeatTimer
  split_ifs
  · exact ClientProxy1_0.removeHeartbeatTimer_rates _
  · exact ClientProxy1_0.removeHeartbeatTimer_rates p

theorem removeHeartbeatTimer_alike (p : HeartbeatProxy) : p.Alike (removeHeartbeatTimer H now p) := by
  unfold removeHeartbeatTimer
  split_ifs
  · refine Alike.trans ?_ (ClientProxy1_0.removeHeartbeatTimer_alike _)
    exact ⟨rfl, rfl, rfl, rfl, rfl⟩
  · exact ClientProxy1_0.removeHeartbeatTimer_alike p

theorem addHeartbeatTimer_alike (p : HeartbeatProxy) : p.Alike (addHeartbeatTimer H proxy new now p) := by
  unfold addHeartbeatTimer
  split_ifs
  · refine Alike.trans ?_ (ClientProxy1_0.addHeartbeatTimer_alike _)
    exact ⟨rfl, rfl, rfl, rfl, rfl⟩
  · exact ClientProxy1_0.addHeartbeatTimer_alike p

/-- Without a rate there are no timers to add. -/
theorem addHeartbeatTimer_off (halarm : p.m_heartbeatAlarm ≤ 0) (hrate : p.keepsAlive = true → p.m_keepAliveRate ≤ 0) :
    addHeartbeatTimer H proxy new now p = p := by
  rw [addHeartbeatTimer, if_neg fun hkeep => absurd hkeep.2 (hrate hkeep.1).not_gt, ClientProxy1_0.addHeartbeatTimer,
    if_neg halarm.not_gt]

theorem tracked_removeHeartbeatTimer (h : p.Tracked H proxy start now) :
    (removeHeartbeatTimer H now p).Tracked H proxy start now ∧ (removeHeartbeatTimer H now p).m_heartbeatTimer = 0 ∧
      (removeHeartbeatTimer H now p).m_keepAliveTimer = 0 := by
  unfold removeHeartbeatTimer
  split_ifs with hkeep
  · refine ⟨ClientProxy1_0.tracked_removeHeartbeatTimer ?_, ClientProxy1_0.removeHeartbeatTimer_heartbeatTimer _,
      ClientProxy1_0.removeHeartbeatTimer_keepAliveTimer _⟩
    have hapart : p.m_keepAliveTimer ≠ p.m_heartbeatTimer :=
      fun he => hkeep.2 (he.trans (h.apart he.symm))
    refine ⟨h.runs.step h.time (.deleteTimer _) trivial, le_rfl, h.data, fun timer => ?_, fun he => he,
        fun _ => rfl, ?_⟩
    · have herase := live_erase (fun t => mem_live.symm.trans ((h.live t).trans (and_congr_right fun _ => or_comm)))
        hapart timer
      refine mem_live.trans (herase.trans ?_)
      exact and_congr_right fun hzero => (or_iff_left hzero).symm
    · intro t ht htarget
      exact h.aimed t (mem_deleteTimer H h.runs.kept ht).1 htarget
  · refine ⟨ClientProxy1_0.tracked_removeHeartbeatTimer h, ClientProxy1_0.removeHeartbeatTimer_heartbeatTimer _, ?_⟩
    rw [ClientProxy1_0.removeHeartbeatTimer_keepAliveTimer]
    by_cases hversion : p.keepsAlive = true
    · exact not_not.mp fun hka => hkeep ⟨hversion, hka⟩
    · exact h.keepAlive (by simpa using hversion)

/-- No timer that would be added is held. -/
def Vacant (p : HeartbeatProxy) : Prop :=
  (0 < p.m_heartbeatAlarm → p.m_heartbeatTimer = 0) ∧
    (p.keepsAlive = true → 0 < p.m_keepAliveRate → p.m_keepAliveTimer = 0)

private theorem tracked_newTimer (hnew : Allocates proxy new) (h : p.Tracked H proxy start now)
    (hkeep : p.keepsAlive = true) (hidle : p.m_keepAliveTimer = 0) (rate : ℚ) :
    Tracked H proxy start now
      { p.call H now (.newTimer (new p.queue.m_timers) rate 0) with
        m_keepAliveTimer := new p.queue.m_timers, created := insert (new p.queue.m_timers) p.created } := by
  obtain ⟨hfresh, hzero, hproxy⟩ := hnew p.queue.m_timers
  refine ⟨h.runs.step h.time (.newTimer _ _ _) hfresh, le_rfl, h.data, fun timer => ?_, fun he => ?_,
      fun hversion => ?_,
    fun t ht htarget => ?_⟩
  · have hinsert := live_insert (b := p.m_heartbeatTimer)
      (fun t => mem_live.symm.trans ((h.live t).trans (by
        rw [hidle]
        exact and_congr_right fun ht => or_iff_left ht))) hzero timer
    exact mem_live.trans (hinsert.trans (and_congr_right fun _ => or_comm))
  · change p.m_heartbeatTimer = new p.queue.m_timers at he
    change p.m_heartbeatTimer = 0
    by_contra hne
    exact hfresh (he ▸ (h.held hne (.inl rfl)).1)
  · exact absurd (hkeep.symm.trans hversion) (by decide)
  · rcases mem_addTimer H ht with hmem | ⟨-, htarget'⟩
    · exact h.aimed t hmem htarget
    · rw [if_pos rfl, htarget] at htarget'
      exact absurd htarget'.symm hproxy

theorem tracked_addHeartbeatTimer (hnew : Allocates proxy new) (h : p.Tracked H proxy start now) (hvacant : p.Vacant) :
    (addHeartbeatTimer H proxy new now p).Tracked H proxy start now := by
  unfold addHeartbeatTimer
  split_ifs with hkeep
  · have hadded := tracked_newTimer hnew h hkeep.1 (hvacant.2 hkeep.1 hkeep.2) p.m_keepAliveRate
    exact ClientProxy1_0.tracked_addHeartbeatTimer hnew hadded hvacant.1
  · exact ClientProxy1_0.tracked_addHeartbeatTimer hnew h hvacant.1

theorem armed_addHeartbeatTimer (hnew : Allocates proxy new) (h : p.Tracked H proxy start now)
    (hnone : p.m_heartbeatTimer = 0) (hidle : p.m_keepAliveTimer = 0) :
    (addHeartbeatTimer H proxy new now p).Armed := by
  unfold addHeartbeatTimer
  split_ifs with hkeep
  · exact ClientProxy1_0.armed_addHeartbeatTimer (tracked_newTimer hnew h hkeep.1 hidle p.m_keepAliveRate) hnone
  · exact ClientProxy1_0.armed_addHeartbeatTimer h hnone

end HeartbeatProxy
end Synergy
