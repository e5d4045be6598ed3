import Mathlib.Data.Finset.Lattice.Fold
import Mathlib.Order.Lattice.Nat
import Synergy.Server.HeartbeatTimers

/-! Whether the heartbeat timers of a client are all accounted for. A handshake that ends adds timers to the ones that
there are, and options add some to a proxy whose connection has ended. -/
namespace Synergy
open Synergy.Lib EventTimers
namespace HeartbeatProxy
variable {H : StdHeap Timer.m_time} {proxy : Address} {new : Finset Address → Address} {start now : ℚ}
  {p : HeartbeatProxy}

/-- What holds of the timers between the actions. -/
structure Steady (H : StdHeap Timer.m_time) (proxy : Address) (start now : ℚ) (p : HeartbeatProxy) : Prop where
  tracked : p.Tracked H proxy start now
  armed : p.Armed
  quiet : p.Quiet
  gone : p.exists_ = false → p.connected = false

/-! ### The rates -/

theorem setHeartbeatRate_alike (p : HeartbeatProxy) (rate alarm : ℚ) : p.Alike (p.setHeartbeatRate rate alarm) := by
  unfold setHeartbeatRate
  split_ifs
  · exact ⟨rfl, rfl, rfl, rfl, rfl⟩
  · exact ⟨rfl, rfl, rfl, rfl, rfl⟩

theorem Tracked.setHeartbeatRate (h : p.Tracked H proxy start now) (rate alarm : ℚ) :
    (p.setHeartbeatRate rate alarm).Tracked H proxy start now := by
  unfold HeartbeatProxy.setHeartbeatRate
  split_ifs
  · exact ⟨h.runs, h.time, h.data, h.live, h.apart, h.keepAlive, h.aimed⟩
  · exact ⟨h.runs, h.time, h.data, h.live, h.apart, h.keepAlive, h.aimed⟩

theorem setHeartbeatRate_off (p : HeartbeatProxy) {rate alarm : ℚ} (hrate : rate ≤ 0) (halarm : alarm ≤ 0) :
    (p.setHeartbeatRate rate alarm).m_heartbeatAlarm ≤ 0 ∧
      ((p.setHeartbeatRate rate alarm).keepsAlive = true → (p.setHeartbeatRate rate alarm).m_keepAliveRate ≤ 0) := by
  unfold setHeartbeatRate
  split_ifs with hkeep
  · exact ⟨mul_nonpos_of_nonpos_of_nonneg hrate (by norm_num [kKeepAlivesUntilDeath]), fun _ => hrate⟩
  · exact ⟨halarm, fun hcontra => absurd hcontra hkeep⟩

theorem resetHeartbeatRate_alike (p : HeartbeatProxy) : p.Alike p.resetHeartbeatRate := by
  unfold resetHeartbeatRate
  split_ifs
  · exact setHeartbeatRate_alike p _ _
  · exact setHeartbeatRate_alike p _ _

theorem Tracked.resetHeartbeatRate (h : p.Tracked H proxy start now) :
    p.resetHeartbeatRate.Tracked H proxy start now := by
  unfold HeartbeatProxy.resetHeartbeatRate
  split_ifs
  · exact h.setHeartbeatRate _ _
  · exact h.setHeartbeatRate _ _

/-! ### The timers are set again, or are removed -/

/-- Both timers are set again. -/
theorem readded (hnew : Allocates proxy new) (h : p.Tracked H proxy start now) :
    (addHeartbeatTimer H proxy new now (removeHeartbeatTimer H now p)).Tracked H proxy start now ∧
      (addHeartbeatTimer H proxy new now (removeHeartbeatTimer H now p)).Armed ∧
      p.Alike (addHeartbeatTimer H proxy new now (removeHeartbeatTimer H now p)) := by
  obtain ⟨hremoved, hnone, hidle⟩ := tracked_removeHeartbeatTimer h
  exact ⟨tracked_addHeartbeatTimer hnew hremoved ⟨fun _ => hnone, fun _ _ => hidle⟩,
    armed_addHeartbeatTimer hnew hremoved hnone hidle,
    (removeHeartbeatTimer_alike p).trans (addHeartbeatTimer_alike _)⟩

/-- Without a rate none is set again. -/
theorem readded_off (h : p.Tracked H proxy start now) (halarm : p.m_heartbeatAlarm ≤ 0)
    (hrate : p.keepsAlive = true → p.m_keepAliveRate ≤ 0) :
    (addHeartbeatTimer H proxy new now (removeHeartbeatTimer H now p)).m_heartbeatTimer = 0 ∧
      (addHeartbeatTimer H proxy new now (removeHeartbeatTimer H now p)).m_keepAliveTimer = 0 := by
  obtain ⟨hrates, hrates'⟩ : (removeHeartbeatTimer H now p).m_heartbeatAlarm = p.m_heartbeatAlarm ∧
      (removeHeartbeatTimer H now p).m_keepAliveRate = p.m_keepAliveRate := removeHeartbeatTimer_rates p
  rw [addHeartbeatTimer_off (hrates.trans_le halarm) fun hkeep =>
    hrates'.trans_le (hrate ((removeHeartbeatTimer_alike p).keepsAlive.symm.trans hkeep))]
  exact (tracked_removeHeartbeatTimer h).2

/-- The alarm is set again. -/
theorem resetHeartbeatTimer_tracked (hnew : Allocates proxy new) (h : p.Tracked H proxy start now) :
    (resetHeartbeatTimer H proxy new now p).Tracked H proxy start now ∧
      (resetHeartbeatTimer H proxy new now p).Armed ∧ p.Alike (resetHeartbeatTimer H proxy new now p) := by
  have hremoved := ClientProxy1_0.tracked_removeHeartbeatTimer h
  have hnone : (ClientProxy1_0.removeHeartbeatTimer H now p).m_heartbeatTimer = 0 :=
    ClientProxy1_0.removeHeartbeatTimer_heartbeatTimer p
  exact ⟨ClientProxy1_0.tracked_addHeartbeatTimer hnew hremoved fun _ => hnone,
    ClientProxy1_0.armed_addHeartbeatTimer hremoved hnone,
    (ClientProxy1_0.removeHeartbeatTimer_alike p).trans (ClientProxy1_0.addHeartbeatTimer_alike _)⟩

private theorem Steady.none (h : p.Tracked H proxy start now) (hnone : p.m_heartbeatTimer = 0 ∧ p.m_keepAliveTimer = 0)
    (hconnected : p.connected = false) : p.Steady H proxy start now :=
  ⟨h, fun hsome => absurd hnone.1 hsome, fun _ => hnone, fun _ => hconnected⟩

theorem disconnect_steady (h : p.Tracked H proxy start now) : (disconnect H now p).Steady H proxy start now := by
  have hended : Tracked H proxy start now { p with connected := false } :=
    ⟨h.runs, h.time, h.data, h.live, h.apart, h.keepAlive, h.aimed⟩
  obtain ⟨hremoved, hnone⟩ := tracked_removeHeartbeatTimer hended
  exact .none hremoved hnone (removeHeartbeatTimer_alike { p with connected := false }).connected

theorem destroy_steady (h : p.Tracked H proxy start now) : (destroy H now p).Steady H proxy start now := by
  obtain ⟨hfirst, hnone, hidle⟩ := tracked_removeHeartbeatTimer h
  have hended : Tracked H proxy start now { removeHeartbeatTimer H now p with connected := false } :=
    ⟨hfirst.runs, hfirst.time, hfirst.data, hfirst.live, hfirst.apart, hfirst.keepAlive, hfirst.aimed⟩
  have hremoved := ClientProxy1_0.tracked_removeHeartbeatTimer hended
  have hidle' : (ClientProxy1_0.removeHeartbeatTimer H now
      { removeHeartbeatTimer H now p with connected := false }).m_keepAliveTimer = 0 :=
    (ClientProxy1_0.removeHeartbeatTimer_keepAliveTimer _).trans hidle
  refine .none ⟨hremoved.runs, hremoved.time, hremoved.data, hremoved.live, hremoved.apart, hremoved.keepAlive,
    hremoved.aimed⟩ ⟨ClientProxy1_0.removeHeartbeatTimer_heartbeatTimer _, hidle'⟩ ?_
  exact (ClientProxy1_0.removeHeartbeatTimer_alike _).connected

/-! ### The messages of a client -/

/-- Whether the messages get to one that ends the handshake. -/
def acceptsInfo : List HeartbeatMessage → Bool
  | [] => false
  | .incomplete :: _ => false
  | .info accepted :: _ => accepted = some true
  | _ :: messages => acceptsInfo messages

/-- A message keeps the timers tracked, and does nothing before the handshake has ended. -/
theorem parse_tracked (hnew : Allocates proxy new) (h : p.Tracked H proxy start now) {message : HeartbeatMessage}
    (hvacant : p.parser = .handshake → message = .info (some true) → p.Vacant) {ok : Bool} {q : HeartbeatProxy}
    (hparse : parse H proxy new now p message = some (ok, q)) :
    q.Tracked H proxy start now ∧ q.connected = p.connected ∧ q.exists_ = p.exists_ ∧
      (q.parser = .handshake → q = p ∧ message ≠ .incomplete ∧ ∀ accepted, message ≠ .info accepted) := by
  cases message with
  | incomplete => cases hparse
  | noop =>
    cases hparse
    exact ⟨h, rfl, rfl, fun _ => ⟨rfl, nofun, nofun⟩⟩
  | info accepted =>
    cases hparser : p.parser with
    | handshake =>
      rw [parse, hparser] at hparse
      obtain ⟨_ | _, haccepted, hq⟩ := Option.map_eq_some_iff.mp hparse
      · cases hq
        exact ⟨⟨h.runs, h.time, h.data, h.live, h.apart, h.keepAlive, h.aimed⟩, rfl, rfl, nofun⟩
      · cases hq
        have hended : Tracked H proxy start now { p with parser := .message } :=
          ⟨h.runs, h.time, h.data, h.live, h.apart, h.keepAlive, h.aimed⟩
        have halike : Alike { p with parser := .message }
            (addHeartbeatTimer H proxy new now { p with parser := .message }) := addHeartbeatTimer_alike _
        refine ⟨tracked_addHeartbeatTimer hnew hended (hvacant hparser (haccepted ▸ rfl)), halike.connected,
          halike.exists_, fun hcontra => ?_⟩
        cases halike.parser.symm.trans hcontra
    | message =>
      rw [parse, hparser] at hparse
      obtain ⟨ok, -, hq⟩ := Option.map_eq_some_iff.mp hparse
      cases hq
      exact ⟨h, rfl, rfl, fun hcontra => absurd (hparser.symm.trans hcontra) (by decide)⟩
  | keepAlive =>
    cases hparser : p.parser with
    | handshake =>
      rw [parse, hparser] at hparse
      cases hparse
      exact ⟨h, rfl, rfl, fun _ => ⟨rfl, nofun, nofun⟩⟩
    | message =>
      rw [parse, hparser] at hparse
      by_cases hkeep : p.keepsAlive = true
      · obtain ⟨hreset, -, halike⟩ := resetHeartbeatTimer_tracked hnew h
        cases (if_pos hkeep).symm.trans hparse
        refine ⟨hreset, halike.connected, halike.exists_, fun hcontra => ?_⟩
        exact absurd (hparser.symm.trans (halike.parser.symm.trans hcontra)) (by decide)
      · cases (if_neg hkeep).symm.trans hparse
        exact ⟨h, rfl, rfl, fun hcontra => absurd (hparser.symm.trans hcontra) (by decide)⟩
  | other accepted =>
    cases hparser : p.parser with
    | handshake =>
      rw [parse, hparser] at hparse
      cases hparse
      exact ⟨h, rfl, rfl, fun _ => ⟨rfl, nofun, nofun⟩⟩
    | message =>
      rw [parse, hparser] at hparse
      obtain ⟨ok, -, hq⟩ := Option.map_eq_some_iff.mp hparse
      cases hq
      exact ⟨h, rfl, rfl, fun hcontra => absurd (hparser.symm.trans hcontra) (by decide)⟩

theorem handleMessages_steady (hnew : Allocates proxy new) (messages : List HeartbeatMessage) :
    ∀ p : HeartbeatProxy, p.Tracked H proxy start now → p.connected = true → p.exists_ = true →
      (p.parser = .handshake → acceptsInfo messages = true → p.Vacant) →
      (handleMessages H proxy new now p messages).Steady H proxy start now := by
  induction messages with
  | nil =>
    intro p h hconnected hexists _
    obtain ⟨hreset, harmed, halike⟩ := resetHeartbeatTimer_tracked hnew h
    exact ⟨hreset, harmed, fun hended => absurd (hended.symm.trans (halike.connected.trans hconnected)) (by decide),
      fun hgone => absurd (hgone.symm.trans (halike.exists_.trans hexists)) (by decide)⟩
  | cons message messages ih =>
    intro p h hconnected hexists hvacant
    rw [handleMessages]
    cases hparse : parse H proxy new now p message with
    | none => exact disconnect_steady h
    | some result =>
      obtain ⟨ok, q⟩ := result
      have hfirst : p.parser = .handshake → message = .info (some true) → p.Vacant := by
        rintro hparser rfl
        exact hvacant hparser rfl
      obtain ⟨hq, hqconnected, hqexists, hsame⟩ := parse_tracked hnew h hfirst hparse
      refine ih q hq (hqconnected.trans hconnected) (hqexists.trans hexists) fun hparser haccepts => ?_
      obtain ⟨rfl, hcomplete, hinfo⟩ := hsame hparser
      refine hvacant hparser ?_
      cases message with
      | incomplete => exact absurd rfl hcomplete
      | info accepted => exact absurd rfl (hinfo accepted)
      | noop => exact haccepts
      | keepAlive => exact haccepts
      | other accepted => exact haccepts

/-! ### The options -/

theorem rateOf_nonpos {value : Int} (h : value ≤ 0) : rateOf value = -1 := by
  have hvalue : (value : ℚ) ≤ 0 := by exact_mod_cast h
  exact if_pos (div_nonpos_of_nonpos_of_nonneg hvalue (by norm_num))

/-- Whether there is to be a heartbeat after the options. -/
def beatsAfter : Bool → List Int → Bool
  | beats, option :: value :: options => beatsAfter (if option = kOptionHeartbeat then 0 < value else beats) options
  | beats, _ => beats

theorem setOptionPairs_steady (hnew : Allocates proxy new) (p : HeartbeatProxy) (options : List Int) (beats : Bool)
    (h : p.Tracked H proxy start now) (harmed : p.Armed)
    (hquiet : beats = false → p.m_heartbeatTimer = 0 ∧ p.m_keepAliveTimer = 0) :
    (setOptionPairs H proxy new now p options).Tracked H proxy start now ∧
      (setOptionPairs H proxy new now p options).Armed ∧ p.Alike (setOptionPairs H proxy new now p options) ∧
      (beatsAfter beats options = false → (setOptionPairs H proxy new now p options).m_heartbeatTimer = 0 ∧
        (setOptionPairs H proxy new now p options).m_keepAliveTimer = 0) := by
  induction p, options using setOptionPairs.induct H proxy new now generalizing beats with
  | case1 p value options q ih =>
    rw [setOptionPairs, if_pos rfl, beatsAfter, if_pos rfl]
    have hrated : q.Tracked H proxy start now := h.setHeartbeatRate _ _
    obtain ⟨hq, hqarmed, halike⟩ := readded hnew hrated
    obtain ⟨hresult, hresultarmed, halike', hoff⟩ := ih (decide (0 < value)) hq hqarmed fun hbeats => by
      have hrate := rateOf_nonpos (not_lt.mp (of_decide_eq_false hbeats))
      obtain ⟨halarm, hkeep⟩ := setHeartbeatRate_off p (hrate.trans_le (by norm_num))
        (show rateOf value * kHeartBeatsUntilDeath ≤ 0 by rw [hrate]; norm_num [kHeartBeatsUntilDeath])
      exact readded_off hrated halarm hkeep
    exact ⟨hresult, hresultarmed, ((setHeartbeatRate_alike p _ _).trans halike).trans halike', hoff⟩
  | case2 p option value options hoption ih =>
    rw [setOptionPairs, if_neg hoption, beatsAfter, if_neg hoption]
    exact ih beats h harmed hquiet
  | case3 options p hpair =>
    have hresult : setOptionPairs H proxy new now p options = p := by
      unfold setOptionPairs
      split
      · exact absurd rfl (hpair _ _ _)
      · rfl
    have hbeats : beatsAfter beats options = beats := by
      unfold beatsAfter
      split
      · exact absurd rfl (hpair _ _ _)
      · rfl
    rw [hresult, hbeats]
    exact ⟨h, harmed, .refl p, hquiet⟩

theorem setOptions_steady (hnew : Allocates proxy new) (h : p.Steady H proxy start now) (options : List Int)
    (hended : p.connected = true ∨ options.length % 2 ≠ 0 ∨ beatsAfter false options = false) :
    (setOptions H proxy new now p options).Steady H proxy start now := by
  unfold setOptions
  split_ifs with heven
  · exact h
  · obtain ⟨hresult, harmed, halike, -⟩ := setOptionPairs_steady hnew p options true h.tracked h.armed nofun
    refine ⟨hresult, harmed, fun hconnected => ?_, fun hgone => ?_⟩
    · have hconnected' := halike.connected.symm.trans hconnected
      rcases hended with hopen | hodd | hbeats
      · exact absurd (hopen.symm.trans hconnected') (by decide)
      · exact absurd hodd heven
      · exact (setOptionPairs_steady hnew p options false h.tracked h.armed fun _ => h.quiet hconnected').2.2.2 hbeats
    · exact halike.connected.trans (h.gone (halike.exists_.symm.trans hgone))

theorem resetOptions_steady (hnew : Allocates proxy new) (h : p.Steady H proxy start now)
    (hended : p.connected = true ∨ p.keepsAlive = false) :
    (resetOptions H proxy new now p).Steady H proxy start now := by
  have hrated := h.tracked.resetHeartbeatRate
  obtain ⟨hresult, harmed, halike⟩ := readded hnew hrated
  have halike' := (resetHeartbeatRate_alike p).trans halike
  refine ⟨hresult, harmed, fun hconnected => ?_, fun hgone => ?_⟩
  · rcases hended with hopen | hversion
    · exact absurd (hopen.symm.trans (halike'.connected.symm.trans hconnected)) (by decide)
    · refine readded_off hrated ?_ fun hkeep => ?_
      · rw [resetHeartbeatRate, if_neg (ne_true_of_eq_false hversion), setHeartbeatRate,
          if_neg (ne_true_of_eq_false hversion)]
        norm_num [kHeartRate, kHeartBeatsUntilDeath]
      · exact absurd (((resetHeartbeatRate_alike p).keepsAlive.trans hversion).symm.trans hkeep) (by decide)
  · exact halike'.connected.trans (h.gone (halike'.exists_.symm.trans hgone))

/-! ### The event queue -/

theorem looked_tracked (h : p.Tracked H proxy start now) : (p.looked H now).Tracked H proxy start now := by
  have hqueue : (p.looked H now).queue = (p.queue.hasTimerExpired H now now).1 := by
    change (p.queue.step H now .hasTimerExpired).1 = _
    rw [EventTimers.step]
    rcases p.queue.hasTimerExpired H now now with ⟨s', _ | ⟨target, event⟩⟩ <;> rfl
  refine ⟨h.runs.step h.time .hasTimerExpired trivial, le_rfl, h.data, fun timer => ?_, h.apart, h.keepAlive,
    fun t' ht' htarget => ?_⟩
  · have htimers : (p.looked H now).queue.m_timers = p.queue.m_timers := hasTimerExpired_timers H p.queue now
    refine mem_live.trans ?_
    rw [htimers]
    exact mem_live.symm.trans (h.live timer)
  · rw [hqueue] at ht'
    obtain ⟨t, ht, htimer, htarget'⟩ := (hasTimerExpired_targets H h.runs.kept now).1 t' ht'
    obtain ⟨hsome, hheld⟩ := h.aimed t ht (htarget'.trans htarget)
    exact ⟨hsome, htimer.symm.trans hheld⟩

theorem looked_armed (h : p.Tracked H proxy start now) (harmed : p.Armed) : (p.looked H now).Armed := by
  intro hsome a ha
  have hcases := (hasTimerExpired_step H h.runs.kept now).2
  change alarms ((now, (p.queue.step H now .hasTimerExpired).2) :: p.past) p.m_heartbeatTimer = some a at ha
  rcases hcases with ⟨hquiet, -⟩ | ⟨timer, fired, hfired, halarm, -⟩
  · rw [hquiet] at ha
    exact harmed hsome a ha
  · rw [hfired, alarms] at ha
    by_cases htimer : p.m_heartbeatTimer = timer
    · rw [htimer, Function.update_self, halarm] at ha
      have honce := (harmed hsome fired (htimer ▸ halarm)).1
      cases (if_pos honce).symm.trans ha
    · rw [Function.update_of_ne htimer] at ha
      exact harmed hsome a ha

/-- The alarm goes off when its time after the last data has passed. -/
theorem flatlines_late (h : p.Tracked H proxy start now) (harmed : p.Armed) {later : ℚ}
    (hflat : p.Flatlines H proxy later) : ∀ last, p.lastData = some last → last + p.m_heartbeatAlarm ≤ later := by
  obtain ⟨-, event, hevent⟩ := hflat
  obtain ⟨t, ht, htimer, htarget⟩ := (hasTimerExpired_targets H h.runs.kept later).2 proxy event hevent
  obtain ⟨hsome, hheld⟩ := h.aimed t ht htarget
  have hstep : (p.queue.step H later .hasTimerExpired).2 = .fired event.m_timer := by
    rw [EventTimers.step]
    revert hevent
    rcases p.queue.hasTimerExpired H later later with ⟨s', _ | ⟨target, event'⟩⟩
    · intro hnone
      cases hnone
    · rintro ⟨⟩
      rfl
  rcases (hasTimerExpired_step H h.runs.kept later).2 with ⟨hquiet, -⟩ | ⟨timer, a, hfired, ha, hdue⟩
  · cases hstep.symm.trans hquiet
  · obtain rfl : event.m_timer = timer := Occurrence.fired.inj (hstep.symm.trans hfired)
    have htimer' : event.m_timer = p.m_heartbeatTimer := htimer.symm.trans hheld
    exact fun last hlast => ((harmed hsome a (htimer' ▸ ha)).2 last hlast).trans hdue

theorem handleTimer_steady (h : p.Steady H proxy start now) : (handleTimer H proxy now p).Steady H proxy start now := by
  have hlooked : (p.looked H now).Steady H proxy start now :=
    ⟨looked_tracked h.tracked, looked_armed h.tracked h.armed, h.quiet, h.gone⟩
  unfold handleTimer
  split
  · exact hlooked
  · split_ifs
    · exact disconnect_steady hlooked.tracked
    · exact hlooked

/-- A call for something else: what it adds lies somewhere else and is for someone else, and it deletes no timer of
the proxy. -/
def Elsewhere (proxy : Address) (p : HeartbeatProxy) : Call → Prop
  | .newTimer timer _ target | .newOneShotTimer timer _ target =>
    timer ∉ p.queue.m_timers ∧ timer ≠ 0 ∧ timer ≠ proxy ∧ target ≠ proxy
  | .deleteTimer timer => timer ∉ p.live
  | .hasTimerExpired => False

private theorem added_steady (h : p.Steady H proxy start now) {timer target : Address} {duration : ℚ} {oneShot : Bool}
    (hruns : Runs H start ((now, .created timer duration oneShot) :: p.past)
      (p.queue.addTimer H now timer duration target oneShot))
    (hfresh : timer ∉ p.queue.m_timers ∧ timer ≠ 0 ∧ timer ≠ proxy ∧ target ≠ proxy) :
    Steady H proxy start now
      { p with
        queue := p.queue.addTimer H now timer duration target oneShot
        past := (now, .created timer duration oneShot) :: p.past
        created := p.created.erase timer } := by
  obtain ⟨hnew, hzero, hproxy, htarget⟩ := hfresh
  refine ⟨⟨hruns, le_rfl, h.tracked.data, fun t => ?_, h.tracked.apart, h.tracked.keepAlive, fun t ht hat => ?_⟩, ?_,
    h.quiet, h.gone⟩
  · refine Iff.trans ?_ (mem_live.symm.trans (h.tracked.live t))
    change t ∈ insert timer p.queue.m_timers ∩ p.created.erase timer ↔ _
    rw [Finset.mem_inter, Finset.mem_insert, Finset.mem_erase]
    constructor
    · rintro ⟨hmem, hne, hcreated⟩
      exact ⟨hmem.resolve_left hne, hcreated⟩
    · rintro ⟨hmem, hcreated⟩
      exact ⟨.inr hmem, ne_of_mem_of_not_mem hmem hnew, hcreated⟩
  · rcases mem_addTimer H ht with hmem | ⟨-, htarget'⟩
    · exact h.tracked.aimed t hmem hat
    · rw [hat] at htarget'
      split_ifs at htarget'
      · exact absurd htarget'.symm hproxy
      · exact absurd htarget'.symm htarget
  · intro hsome a ha
    have hheld := (h.tracked.held hsome (.inl rfl)).1
    rw [alarms, Function.update_of_ne (ne_of_mem_of_not_mem hheld hnew)] at ha
    exact h.armed hsome a ha

theorem others_steady (h : p.Steady H proxy start now) {c : Call} (hc : p.Elsewhere proxy c) :
    (step H proxy new now p (.others c)).Steady H proxy start now := by
  cases c with
  | newTimer timer duration target =>
    exact added_steady h (h.tracked.runs.step h.tracked.time (.newTimer timer duration target) hc.1) hc
  | newOneShotTimer timer duration target =>
    exact added_steady h (h.tracked.runs.step h.tracked.time (.newOneShotTimer timer duration target) hc.1) hc
  | deleteTimer timer =>
    have hne {held : Address} (hheld : held ∈ p.live) : held ≠ timer := ne_of_mem_of_not_mem hheld hc
    refine ⟨⟨h.tracked.runs.step h.tracked.time (.deleteTimer timer) trivial, le_rfl, h.tracked.data, fun t => ?_,
      h.tracked.apart, h.tracked.keepAlive, fun t ht hat => ?_⟩, ?_, h.quiet, h.gone⟩
    · refine Iff.trans ?_ (h.tracked.live t)
      change t ∈ p.queue.m_timers.erase timer ∩ p.created ↔ t ∈ p.live
      rw [Finset.mem_inter, Finset.mem_erase, and_assoc, ← mem_live]
      exact and_iff_right_of_imp hne
    · exact h.tracked.aimed t (mem_deleteTimer H h.tracked.runs.kept ht).1 hat
    · intro hsome a ha
      have hother : p.m_heartbeatTimer ≠ timer := hne ((h.tracked.live _).mpr ⟨hsome, .inl rfl⟩)
      change alarms ((now, .deleted timer) :: p.past) p.m_heartbeatTimer = some a at ha
      rw [alarms, Function.update_of_ne hother] at ha
      exact h.armed hsome a ha
  | hasTimerExpired => exact hc.elim

/-! ### Runs -/

/-- What others ask of the event queue is for something else. -/
def Possible (proxy : Address) (p : HeartbeatProxy) : Action → Prop
  | .others c => p.Elsewhere proxy c
  | _ => True

/-- The handshake ends while there are no timers that it would add, and a proxy whose connection has ended is not to
add any for its options. -/
def Orderly (p : HeartbeatProxy) : Action → Prop
  | .handleData messages => p.connected = true → p.parser = .handshake → acceptsInfo messages = true → p.Vacant
  | .resetOptions => p.exists_ = true → p.connected = true ∨ p.keepsAlive = false
  | .setOptions options =>
    p.exists_ = true → p.connected = true ∨ options.length % 2 ≠ 0 ∨ beatsAfter false options = false
  | _ => True

/-- One action keeps the timers steady. -/
theorem step_steady (hnew : Allocates proxy new) (h : p.Steady H proxy start now) {a : Action}
    (hpossible : p.Possible proxy a) (horderly : p.Orderly a) :
    (step H proxy new now p a).Steady H proxy start now := by
  cases a with
  | handleData messages =>
    by_cases hconnected : p.connected = true
    · have hexists : p.exists_ = true := by
        by_contra hgone
        exact absurd (hconnected.symm.trans (h.gone (eq_false_of_ne_true hgone))) (by decide)
      have hdata : Tracked H proxy start now { p with lastData := some now } :=
        ⟨h.tracked.runs, h.tracked.time, fun last hlast => (Option.some.inj hlast).ge, h.tracked.live, h.tracked.apart,
          h.tracked.keepAlive, h.tracked.aimed⟩
      rw [step, if_pos hconnected]
      exact handleMessages_steady hnew messages _ hdata hconnected hexists (horderly hconnected)
    · rw [step, if_neg hconnected]
      exact h
  | resetOptions =>
    by_cases hexists : p.exists_ = true
    · rw [step, if_pos hexists]
      exact resetOptions_steady hnew h (horderly hexists)
    · rw [step, if_neg hexists]
      exact h
  | setOptions options =>
    by_cases hexists : p.exists_ = true
    · rw [step, if_pos hexists]
      exact setOptions_steady hnew h options (horderly hexists)
    · rw [step, if_neg hexists]
      exact h
  | disconnect =>
    by_cases hexists : p.exists_ = true
    · rw [step, if_pos hexists]
      exact disconnect_steady h.tracked
    · rw [step, if_neg hexists]
      exact h
  | destroy =>
    by_cases hexists : p.exists_ = true
    · rw [step, if_pos hexists]
      exact destroy_steady h.tracked
    · rw [step, if_neg hexists]
      exact h
  | timer => exact handleTimer_steady h
  | others c => exact others_steady h hpossible

theorem Steady.later (h : p.Steady H proxy start now) {now' : ℚ} (hnow : now ≤ now') : p.Steady H proxy start now' :=
  ⟨h.tracked.later hnow, h.armed, h.quiet, h.gone⟩

/-- The proxies that actions lead to, at times that do not go back, when those are allowed. -/
inductive Reached (H : StdHeap Timer.m_time) (proxy : Address) (new : Finset Address → Address)
    (allowed : HeartbeatProxy → Action → Prop) (keepsAlive : Bool) (start : ℚ) : ℚ → HeartbeatProxy → Prop
  | start : Reached H proxy new allowed keepsAlive start start (HeartbeatProxy.start start keepsAlive)
  | step {now now' : ℚ} {p : HeartbeatProxy} (h : Reached H proxy new allowed keepsAlive start now p)
      (hnow : now ≤ now') (a : Action) (ha : allowed p a) :
      Reached H proxy new allowed keepsAlive start now' (p.step H proxy new now' a)

theorem start_steady (keepsAlive : Bool) : (HeartbeatProxy.start start keepsAlive).Steady H proxy start start := by
  have hnone : Tracked H proxy start start
      { keepsAlive := keepsAlive, parser := .handshake, connected := true, exists_ := true
        m_heartbeatAlarm := kHeartRate * kHeartBeatsUntilDeath, m_keepAliveRate := kKeepAliveRate
        m_heartbeatTimer := 0, m_keepAliveTimer := 0
        queue := EventTimers.init start, past := [], created := ∅, lastData := none } :=
    ⟨.init, le_rfl, nofun, fun timer => iff_of_false (Finset.notMem_empty timer) fun hheld =>
      hheld.2.elim hheld.1 hheld.1, fun _ => rfl, fun _ => rfl, nofun⟩
  cases keepsAlive with
  | false => exact ⟨hnone, fun hsome => absurd rfl hsome, nofun, nofun⟩
  | true => exact ⟨hnone.setHeartbeatRate _ _, fun hsome => absurd rfl hsome, nofun, nofun⟩

theorem Reached.steady (hnew : Allocates proxy new) {keepsAlive : Bool}
    (h : Reached H proxy new (fun p a => p.Possible proxy a ∧ p.Orderly a) keepsAlive start now p) :
    p.Steady H proxy start now := by
  induction h with
  | start => exact start_steady keepsAlive
  | step _ hnow a ha ih => exact step_steady hnew (ih.later hnow) ha.1 ha.2

/-- The timers that a proxy has created are the ones that it holds, none is left when its connection has ended, and
its alarm goes off only after its time without data. -/
structure Accounted (H : StdHeap Timer.m_time) (proxy : Address) (now : ℚ) (p : HeartbeatProxy) : Prop where
  held : p.live = ({p.m_heartbeatTimer, p.m_keepAliveTimer} : Finset Address).erase 0
  ended : p.connected = false ∨ p.exists_ = false → p.live = ∅
  late : ∀ later, now ≤ later → p.Flatlines H proxy later →
    ∀ last, p.lastData = some last → last + p.m_heartbeatAlarm ≤ later

theorem Steady.accounted (h : p.Steady H proxy start now) : p.Accounted H proxy now where
  held := by
    ext timer
    rw [h.tracked.live, Finset.mem_erase, Finset.mem_insert, Finset.mem_singleton]
  ended := by
    intro hended
    obtain ⟨hnone, hidle⟩ := h.quiet (hended.elim id h.gone)
    refine Finset.eq_empty_of_forall_notMem fun timer hmem => ?_
    obtain ⟨hzero, hheld | hheld⟩ := (h.tracked.live timer).mp hmem
    · exact hzero (hheld.trans hnone)
    · exact hzero (hheld.trans hidle)
  late := fun later hlater => flatlines_late (h.tracked.later hlater) h.armed

/-- New timers lie behind all others. -/
def behind (timers : Finset Address) : Address := timers.sup id + 2

theorem allocates_behind : Allocates 1 behind := by
  refine fun timers => ⟨fun hmem => ?_, Nat.succ_ne_zero _, fun h => nomatch (Nat.succ.inj h : timers.sup id + 1 = 0)⟩
  have hle : timers.sup id + 2 ≤ timers.sup id := Finset.le_sup (f := id) hmem
  exact Nat.not_succ_le_self _ ((Nat.le_succ _).trans hle)

/-- In a run whose actions are all orderly, the timers are accounted for in every state. -/
theorem heartbeats_accounted_of_orderly (H : StdHeap Timer.m_time) (proxy : Address)
    (new : Finset Address → Address) (hnew : Allocates proxy new) (keepsAlive : Bool) (start now : ℚ)
    (p : HeartbeatProxy)
    (h : Reached H proxy new (fun p a => p.Possible proxy a ∧ p.Orderly a) keepsAlive start now p) :
    p.Accounted H proxy now :=
  (h.steady hnew).accounted

/-- The first data of a client tells what it is. -/
theorem heartbeats_accounted_of_orderly_handshake :
    let H := StdHeap.sorting Timer.m_time
    ((HeartbeatProxy.start 0 true).step H 1 behind 0 (.handleData [.info (some true)])).Accounted H 1 0 := by
  refine heartbeats_accounted_of_orderly _ 1 behind allocates_behind true 0 0 _ (.step .start le_rfl _ ⟨trivial, ?_⟩)
  exact fun _ _ _ => ⟨fun _ => rfl, fun _ _ => rfl⟩

/-- A client that sends something before it tells what it is leaves an alarm behind, and that goes off nine seconds
later whatever has come since. -/
theorem forgotten_alarm_flatlines :
    ¬ ∀ (H : StdHeap Timer.m_time) (proxy : Address) (new : Finset Address → Address) (keepsAlive : Bool)
      (start now : ℚ) (p : HeartbeatProxy), Allocates proxy new →
      Reached H proxy new (fun p a => p.Possible proxy a) keepsAlive start now p → p.Accounted H proxy now := by
  intro h
  let H := StdHeap.sorting Timer.m_time
  have hnoop : Reached H 1 behind (fun p a => p.Possible 1 a) true 0 0 _ :=
    .step .start le_rfl (.handleData [.noop]) trivial
  have hinfo := hnoop.step (by decide +kernel : (0 : ℚ) ≤ 1) (.handleData [.info (some true)]) trivial
  have halive := hinfo.step (by decide +kernel : (1 : ℚ) ≤ 4) .timer trivial
  have halive' := halive.step (by decide +kernel : (4 : ℚ) ≤ 7) .timer trivial
  have hlate := (h H 1 behind true 0 7 _ allocates_behind halive').late 9 (by decide +kernel)
    ⟨by decide +kernel, ⟨2, 1⟩, by decide +kernel⟩ 1 (by decide +kernel)
  exact absurd hlate (by decide +kernel)

end HeartbeatProxy
end Synergy
