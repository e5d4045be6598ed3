import Mathlib.Data.List.Nodup
import Synergy.App.ClientApp
import Synergy.Lib.Trace

/-! The application has one way forward, unless its screen fails for good or it is resumed when
more than one way is left. -/
namespace Synergy
open Synergy.Lib

namespace AppClient
variable {c : AppClient}

/-- The lookups that the client will listen to, and its stream. -/
def attempts (c : AppClient) : Nat := (if c.stream.isSome then 1 else 0) + c.lookups.count c.resolveGeneration

end AppClient

namespace ClientEvent

/-- The event tells of the end of an attempt. -/
def isEnd : ClientEvent → Bool
  | .clientConnected => false
  | _ => true

end ClientEvent

namespace ClientApp
variable {a : ClientApp}

def ends (a : ClientApp) : Nat := a.events.countP ClientEvent.isEnd

def waysForward (a : ClientApp) : Nat := a.restartTimers.length + a.client.elim 0 AppClient.attempts + a.ends

def isConnected (a : ClientApp) : Bool := a.client.any AppClient.ready

def isSuspended (a : ClientApp) : Bool := a.client.any AppClient.suspended

def OneWayForward (a : ClientApp) : Prop :=
  a.exited = false → a.quit = false → a.isConnected = false → a.isSuspended = false → a.waysForward = 1

instance (a : ClientApp) : Decidable a.OneWayForward :=
  inferInstanceAs (Decidable (_ → _ → _ → _ → _))

/-- The screen does not fail for good when the client is started again, and when the client is
resumed there is one timer, one end that has not been handled, or the wish to connect. -/
def orderly (a : ClientApp) (move : ClientAppMove) : Bool :=
  a.exited || a.quit ||
    match move with
    | .restart timer opening _ => a.restartTimers.length ≤ timer || a.client.isSome || opening ≠ .failed
    | .resume _ => a.client.all fun c => !c.suspended ||
        a.restartTimers.length + a.ends + c.connectOnResume.toNat = 1
    | _ => true

def Orderly (a : ClientApp) (move : ClientAppMove) (_ : ClientApp) : Prop := a.orderly move = true

instance (a : ClientApp) (move : ClientAppMove) (t : ClientApp) : Decidable (Orderly a move t) :=
  inferInstanceAs (Decidable (_ = true))

end ClientApp

namespace AppClient
variable {c : AppClient}

/-- What holds of a client between the calls. -/
structure Fit (c : AppClient) : Prop where
  lookups : ∀ generation ∈ c.lookups, generation ≤ c.resolveGeneration
  ready : c.ready = true → c.stream = some .joined
  suspended : c.suspended = true → c.attempts = 0

/-- What a call leaves of an attempt, with the ends that it has sent. -/
def remains (result : AppClient × List ClientEvent) : Nat := result.1.attempts + result.2.countP ClientEvent.isEnd

private theorem stream_of_attempts (h : c.attempts = 0) : c.stream = none := by
  cases hstream : c.stream with
  | none => rfl
  | some phase => simp [attempts, hstream] at h

private theorem count_of_attempts (h : c.attempts = 0) : c.lookups.count c.resolveGeneration = 0 := by
  rw [attempts] at h
  omega

private theorem count_new (h : Fit c) (generation : Nat) (hnew : c.resolveGeneration < generation) :
    c.lookups.count generation = 0 :=
  List.count_eq_zero.mpr fun hmem => absurd (h.lookups generation hmem) (Nat.not_le.mpr hnew)

theorem continueConnect_spec (h : Fit c) (hnone : c.attempts = 0) (hawake : c.suspended = false) (dialing : Dialing) :
    Fit (c.continueConnect dialing).1 ∧ (c.continueConnect dialing).1.suspended = false ∧
      remains (c.continueConnect dialing) = 1 ∧ (c.continueConnect dialing).1.ready = c.ready := by
  have hstream := stream_of_attempts hnone
  have hcount := count_of_attempts hnone
  unfold continueConnect
  split
  · exact ⟨h, hawake, by simp [remains, hnone, ClientEvent.isEnd], rfl⟩
  · simp only
    split
    · refine ⟨⟨h.lookups, ?_, ?_⟩, hawake, ?_, rfl⟩
      · intro hready
        cases (h.ready hready).symm.trans hstream
      · exact fun hnot => by cases hawake.symm.trans hnot
      · simp [remains, attempts, hcount]
    · refine ⟨⟨h.lookups, h.ready, ?_⟩, hawake, ?_, rfl⟩
      · exact fun hnot => by cases hawake.symm.trans hnot
      · simp [remains, attempts, hcount, hstream, ClientEvent.isEnd]

/-- A call that connects leaves one way on, if there was none. -/
theorem connect_spec (h : Fit c) (hnone : c.attempts = 0) (hawake : c.suspended = false) (dialing : Dialing) :
    Fit (c.connect dialing).1 ∧ (c.connect dialing).1.suspended = false ∧ remains (c.connect dialing) = 1 ∧
      (c.connect dialing).1.ready = c.ready := by
  have hstream := stream_of_attempts hnone
  unfold connect
  rw [if_neg (by simp [hstream]), if_neg (by simp [hawake])]
  split
  · exact continueConnect_spec h hnone hawake dialing
  · have hcount := count_new h _ (Nat.lt_succ_self c.resolveGeneration)
    refine ⟨⟨?_, h.ready, ?_⟩, hawake, ?_, rfl⟩
    · intro generation hmem
      rcases List.mem_append.mp hmem with hold | hnew
      · exact Nat.le_succ_of_le (h.lookups generation hold)
      · exact (List.mem_singleton.mp hnew).le
    · exact fun hnot => by cases hawake.symm.trans hnot
    · simp [remains, attempts, hstream, List.count_append, hcount]

/-- A suspended client only remembers that it is to connect. -/
theorem connect_suspended (h : Fit c) (hsuspended : c.suspended = true) (dialing : Dialing) :
    c.connect dialing = ({ c with connectOnResume := true }, []) := by
  have hstream := stream_of_attempts (h.suspended hsuspended)
  exact (if_neg (by simp [hstream])).trans (if_pos hsuspended)

theorem count_eraseIdx (l : List Nat) (i generation other : Nat) (h : l[i]? = some generation) :
    (l.eraseIdx i).count other + (if generation = other then 1 else 0) = l.count other := by
  induction l generalizing i with
  | nil => cases h
  | cons x l ih =>
    cases i with
    | zero =>
      obtain rfl : x = generation := Option.some.inj h
      by_cases hx : x = other
      · simp [hx]
      · simp [hx]
    | succ i =>
      have hrest := ih i h
      rw [List.eraseIdx_cons_succ, List.count_cons, List.count_cons]
      omega

/-- The answer of a lookup takes the place of the lookup that the client has waited for. -/
theorem lookedUp_spec (h : Fit c) (hone : c.attempts ≤ 1) {i generation : Nat}
    (hlookup : c.lookups[i]? = some generation) (addresses : Option Nat) (dialing : Dialing) :
    let result := lookedUp { c with lookups := c.lookups.eraseIdx i } generation addresses dialing
    Fit result.1 ∧ result.1.suspended = c.suspended ∧ remains result = c.attempts := by
  have hcount := count_eraseIdx c.lookups i generation c.resolveGeneration hlookup
  have hlookups : ∀ g ∈ c.lookups.eraseIdx i, g ≤ c.resolveGeneration :=
    fun g hmem => h.lookups g (List.mem_of_mem_eraseIdx hmem)
  have hattempts : attempts { c with lookups := c.lookups.eraseIdx i } +
      (if generation = c.resolveGeneration then 1 else 0) = c.attempts := by
    simp only [attempts]
    omega
  have hfit : Fit { c with lookups := c.lookups.eraseIdx i } := by
    refine ⟨hlookups, h.ready, fun hsuspended => ?_⟩
    have hzero := h.suspended hsuspended
    omega
  intro result
  by_cases hlate : generation ≠ c.resolveGeneration ∨ c.stream.isSome = true ∨ c.suspended = true
  · have hresult : result = ({ c with lookups := c.lookups.eraseIdx i }, []) :=
      if_pos (by simpa [or_assoc] using hlate)
    rw [hresult]
    refine ⟨hfit, rfl, ?_⟩
    have hstale : generation ≠ c.resolveGeneration := by
      rcases hlate with hne | hstream | hsuspended
      · exact hne
      · rintro rfl
        have hsome : (if c.stream.isSome then 1 else 0) = 1 := if_pos hstream
        have hlate := hone
        rw [attempts, hsome] at hlate
        rw [if_pos rfl] at hcount
        omega
      · rintro rfl
        have hzero := h.suspended hsuspended
        rw [if_pos rfl] at hattempts
        omega
    rw [if_neg hstale] at hattempts
    simpa [remains] using hattempts
  · obtain ⟨hcurrent, hstream, hawake⟩ := not_or.mp hlate |>.imp not_not.mp not_or.mp
    have hawake : c.suspended = false := Bool.eq_false_iff.mpr hawake
    rw [if_pos hcurrent] at hattempts
    have hnone : attempts { c with lookups := c.lookups.eraseIdx i } = 0 := by omega
    have hheard : ¬ (generation ≠ c.resolveGeneration || c.stream.isSome || c.suspended) = true := by
      simp [hcurrent, hstream, hawake]
    have hattempted : c.attempts = 1 := by omega
    have hfails : result = ({ c with lookups := c.lookups.eraseIdx i }, [.clientConnectionFailed true]) →
        Fit result.1 ∧ result.1.suspended = c.suspended ∧ remains result = c.attempts := by
      intro hfailed
      rw [hfailed]
      exact ⟨hfit, rfl, by simp [remains, hnone, hattempted, ClientEvent.isEnd]⟩
    rcases addresses with _ | _ | addresses
    · exact hfails (if_neg hheard)
    · exact hfails (if_neg hheard)
    · have hconnects : result =
          continueConnect { c with lookups := c.lookups.eraseIdx i, resolvedIps := addresses + 1 } dialing :=
        if_neg hheard
      have hspec := continueConnect_spec (c := { c with lookups := c.lookups.eraseIdx i, resolvedIps := addresses + 1 })
        ⟨hlookups, h.ready, hfit.suspended⟩ hnone hawake dialing
      rw [hconnects]
      exact ⟨hspec.1, hspec.2.1.trans hawake.symm, hspec.2.2.1.trans hattempted.symm⟩

/-- What a call does to an attempt that has its stream. -/
structure Follows (c : AppClient) (result : AppClient × List ClientEvent) : Prop where
  fit : Fit result.1
  awake : result.1.suspended = false
  remains : remains result = 1

private theorem one_stream (hone : c.attempts ≤ 1) {phase : StreamPhase} (hstream : c.stream = some phase) :
    c.lookups.count c.resolveGeneration = 0 := by
  have hsome : (if c.stream.isSome then 1 else 0) = 1 := by rw [hstream]; rfl
  rw [attempts, hsome] at hone
  omega

theorem Fit.awake (h : Fit c) {phase : StreamPhase} (hstream : c.stream = some phase) : c.suspended = false := by
  refine Bool.eq_false_iff.mpr fun hsuspended => ?_
  cases hstream.symm.trans (stream_of_attempts (h.suspended hsuspended))

theorem Fit.not_ready (h : Fit c) {phase : StreamPhase} (hstream : c.stream = some phase) (hphase : phase ≠ .joined) :
    c.ready = false := by
  refine Bool.eq_false_iff.mpr fun hready => ?_
  exact hphase (Option.some.inj (hstream.symm.trans (h.ready hready)))

/-- The stream comes to another phase. -/
theorem Fit.phase (h : Fit c) (hone : c.attempts ≤ 1) {phase : StreamPhase} (hstream : c.stream = some phase)
    (next : StreamPhase) (ready : Bool) (hready : ready = true → next = .joined) {events : List ClientEvent}
    (hevents : events.countP ClientEvent.isEnd = 0) :
    Follows c ({ c with stream := some next, ready := ready }, events) := by
  have hcount := one_stream hone hstream
  have hawake := h.awake hstream
  refine ⟨⟨h.lookups, fun hnow => congrArg some (hready hnow), ?_⟩, hawake, ?_⟩
  · exact fun hnot => by cases hawake.symm.trans hnot
  · simp [AppClient.remains, attempts, hcount, hevents]

/-- The stream is deleted. -/
theorem Fit.closed (h : Fit c) (hone : c.attempts ≤ 1) {phase : StreamPhase} (hstream : c.stream = some phase)
    {event : ClientEvent} (hend : event.isEnd = true) (ready : Bool) (hready : ready = false) :
    Follows c ({ c with stream := none, ready := ready }, [event]) := by
  have hcount := one_stream hone hstream
  have hawake := h.awake hstream
  refine ⟨⟨h.lookups, fun hnot => (by cases hready.symm.trans hnot), ?_⟩, hawake, ?_⟩
  · exact fun hnot => by cases hawake.symm.trans hnot
  · simp [AppClient.remains, attempts, hcount, hend]

/-- Everything is cleaned up. -/
theorem Fit.cleanup (h : Fit c) : Fit c.cleanup ∧ c.cleanup.attempts = 0 := by
  have hcount := count_new h _ (Nat.lt_succ_self c.resolveGeneration)
  have hnone : c.cleanup.attempts = 0 := by simpa [AppClient.cleanup, attempts] using hcount
  exact ⟨⟨fun g hmem => Nat.le_succ_of_le (h.lookups g hmem), nofun, fun _ => hnone⟩, hnone⟩

theorem Fit.cleanedUp (h : Fit c) (hawake : c.suspended = false) {event : ClientEvent} (hend : event.isEnd = true) :
    Follows c (c.cleanup, [event]) := by
  obtain ⟨hfit, hnone⟩ := h.cleanup
  exact ⟨hfit, hawake, by simp [AppClient.remains, hnone, hend]⟩

/-- A suspended client has nothing but the event that tells so. -/
theorem suspend_spec (h : Fit c) : Fit c.handleSuspend.1 ∧ c.handleSuspend.1.suspended = true := by
  unfold handleSuspend
  split
  · exact ⟨h, ‹_›⟩
  · have hawake : Fit { c with suspended := true }.cleanup ∧ { c with suspended := true }.cleanup.attempts = 0 := by
      obtain ⟨hfit, hnone⟩ := h.cleanup
      exact ⟨⟨hfit.lookups, nofun, fun _ => hnone⟩, hnone⟩
    exact ⟨⟨hawake.1.lookups, nofun, fun _ => hawake.2⟩, rfl⟩

theorem resume_spec (h : Fit c) (hsuspended : c.suspended = true) (dialing : Dialing) :
    Fit (c.handleResume dialing).1 ∧ (c.handleResume dialing).1.suspended = false ∧
      remains (c.handleResume dialing) = c.connectOnResume.toNat ∧ (c.handleResume dialing).1.ready = false := by
  have hnone := h.suspended hsuspended
  have hready : c.ready = false := by
    refine Bool.eq_false_iff.mpr fun hready => ?_
    cases (stream_of_attempts hnone).symm.trans (h.ready hready)
  have hfit : Fit { c with suspended := false, connectOnResume := false } := ⟨h.lookups, h.ready, nofun⟩
  unfold handleResume
  rw [if_pos hsuspended]
  simp only
  split
  · rename_i hconnect
    obtain ⟨h1, h2, h3, h4⟩ := connect_spec hfit hnone rfl dialing
    exact ⟨h1, h2, by rw [h3, hconnect]; rfl, h4.trans hready⟩
  · rename_i hconnect
    have hconnect : c.connectOnResume = false := Bool.eq_false_iff.mpr hconnect
    refine ⟨hfit, rfl, ?_, hready⟩
    rw [hconnect]
    exact hnone

end AppClient

namespace ClientApp
variable {a : ClientApp}
open AppClient

/-- What holds of an application that has not asked to quit. -/
structure Kept (a : ClientApp) : Prop where
  awake : a.suspended = false
  client : ∀ c, a.client = some c → Fit c
  one : a.isSuspended = false → a.waysForward = 1

/-- Nothing holds any more when it ends. -/
def Settled (a : ClientApp) : Prop := a.exited = false → a.quit = false → Kept a

private theorem post_ways (a : ClientApp) (result : AppClient × List ClientEvent) :
    (a.post result).waysForward = a.restartTimers.length + a.ends + remains result := by
  simp only [waysForward, post, Option.elim_some, ends, List.countP_append, remains]
  omega

private theorem Kept.posted (h : Kept a) {result : AppClient × List ClientEvent} (hfit : Fit result.1)
    (hways : result.1.suspended = false → a.restartTimers.length + a.ends + remains result = 1) :
    Kept (a.post result) := by
  refine ⟨h.awake, fun c hc => ?_, fun hsuspended => ?_⟩
  · obtain rfl : result.1 = c := Option.some.inj hc
    exact hfit
  · rw [post_ways]
    exact hways hsuspended

private theorem ways_client {c : AppClient} (hclient : a.client = some c) :
    a.waysForward = a.restartTimers.length + c.attempts + a.ends := by
  rw [waysForward, hclient]
  rfl

private theorem one_client (h : Kept a) {c : AppClient} (hclient : a.client = some c) (hawake : c.suspended = false) :
    a.restartTimers.length + c.attempts + a.ends = 1 := by
  have hone := h.one (by rw [isSuspended, hclient]; exact hawake)
  rwa [ways_client hclient] at hone

private theorem attempts_le (h : Kept a) {c : AppClient} (hclient : a.client = some c) : c.attempts ≤ 1 := by
  rcases Bool.eq_false_or_eq_true c.suspended with hsuspended | hawake
  · rw [(h.client c hclient).suspended hsuspended]
    exact Nat.zero_le 1
  · have hone := one_client h hclient hawake
    omega

/-- A call that can only come in some phases of the stream. -/
private theorem Kept.inPhase (h : Kept a) (phases : List StreamPhase)
    (handler : AppClient → AppClient × List ClientEvent)
    (hfollows : ∀ c phase, Fit c → c.attempts ≤ 1 → c.stream = some phase → phase ∈ phases → Follows c (handler c)) :
    Kept (a.inPhase phases handler) := by
  unfold ClientApp.inPhase
  split
  · exact h
  · rename_i c hclient
    split
    · rename_i hphase
      have hfit := h.client c hclient
      obtain ⟨phase, hstream, hmem⟩ : ∃ phase, c.stream = some phase ∧ phase ∈ phases := by
        cases hstream : c.stream with
        | none =>
          rw [hstream] at hphase
          cases hphase
        | some phase => exact ⟨phase, rfl, by simpa [hstream] using hphase⟩
      have hresult := hfollows c phase hfit (attempts_le h hclient) hstream hmem
      refine h.posted hresult.fit fun _ => ?_
      have hone := one_client h hclient (hfit.awake hstream)
      have hsome : c.attempts = 1 := by
        rw [attempts, one_stream (attempts_le h hclient) hstream, hstream]
        rfl
      rw [hresult.remains]
      omega
    · exact h

/-- What a handler of the application does about an event. -/
structure Handled (a : ClientApp) (event : ClientEvent) (t : ClientApp) : Prop where
  awake : t.suspended = a.suspended
  client : t.client = a.client
  events : t.events = a.events
  exited : t.exited = a.exited
  timers : t.quit = true ∨
    t.quit = a.quit ∧ t.restartTimers.length = a.restartTimers.length + if event.isEnd then 1 else 0

/-- The indices of servers and addresses have nothing to do with it. -/
private theorem Handled.of_same {b t : ClientApp} {event : ClientEvent} (h : Handled b event t)
    (hawake : b.suspended = a.suspended) (hclient : b.client = a.client) (hevents : b.events = a.events)
    (hexited : b.exited = a.exited) (hquit : b.quit = a.quit) (htimers : b.restartTimers = a.restartTimers) :
    Handled a event t :=
  ⟨h.awake.trans hawake, h.client.trans hclient, h.events.trans hevents, h.exited.trans hexited,
    h.timers.imp id fun hrun => ⟨hrun.1.trans hquit, htimers ▸ hrun.2⟩⟩

private theorem scheduled (b : ClientApp) (hb : b.suspended = false) {event : ClientEvent} (hend : event.isEnd = true) :
    Handled b event b.scheduleUnlessSuspended := by
  rw [scheduleUnlessSuspended, if_pos (by rw [hb]; rfl)]
  exact ⟨rfl, rfl, rfl, rfl, .inr ⟨rfl, by simp [scheduleClientRestart, hend]⟩⟩

private theorem refused_spec (b : ClientApp) (hb : b.suspended = false) (retry : Bool) {event : ClientEvent}
    (hend : event.isEnd = true) : Handled b event (b.handleClientRefused retry) := by
  cases retry with
  | false =>
    rw [handleClientRefused, if_pos (by rfl)]
    exact ⟨rfl, rfl, rfl, rfl, .inl rfl⟩
  | true =>
    rw [handleClientRefused, if_neg (by decide), if_pos (by rw [hb]; rfl)]
    exact ⟨rfl, rfl, rfl, rfl, .inr ⟨rfl, by simp [scheduleClientRestart, hend]⟩⟩

private theorem tryNextServer_spec (b : ClientApp) : b.tryNextServer = { b with
    currentServerIndex := b.tryNextServer.currentServerIndex } := by
  rw [tryNextServer]
  split <;> rfl

private theorem failed_spec (hawake : a.suspended = false) (retry : Bool) :
    Handled a (.clientConnectionFailed retry) (a.handleClientFailed retry) := by
  unfold handleClientFailed
  simp only
  split
  · refine Handled.of_same (scheduled _ ?_ rfl) rfl rfl rfl rfl rfl rfl
    exact hawake
  · have hnext := tryNextServer_spec { a with lastServerAddressIndex := 0 }
    generalize ClientApp.tryNextServer { a with lastServerAddressIndex := 0 } = b at hnext ⊢
    have hsuspended : b.suspended = a.suspended := by rw [hnext]
    have hsame : ∀ {t : ClientApp}, Handled b (.clientConnectionFailed retry) t →
        Handled a (.clientConnectionFailed retry) t := by
      rw [hnext]
      exact fun h => h.of_same rfl rfl rfl rfl rfl rfl
    split
    · exact hsame (refused_spec b (hsuspended.trans hawake) retry rfl)
    · exact hsame (scheduled b (hsuspended.trans hawake) rfl)

/-- Each end that is handled starts a timer. -/
private theorem handle_spec (hawake : a.suspended = false) (event : ClientEvent) :
    Handled a event (a.handle event) := by
  cases event with
  | clientConnected => exact ⟨rfl, rfl, rfl, rfl, .inr ⟨rfl, rfl⟩⟩
  | clientConnectionFailed retry => exact failed_spec hawake retry
  | clientConnectionRefused retry => exact refused_spec a hawake retry rfl
  | clientDisconnected =>
    refine Handled.of_same (scheduled _ ?_ rfl) rfl rfl rfl rfl rfl rfl
    exact hawake

private theorem settled_dispatch (h : Kept a) {event : ClientEvent} {events : List ClientEvent}
    (hevents : a.events = event :: events) : Settled (handle { a with events := events } event) := by
  have hhandled := handle_spec (a := { a with events := events }) h.awake event
  intro _ hquit
  obtain hnot | ⟨-, htimers⟩ := hhandled.timers
  · cases hquit.symm.trans hnot
  refine ⟨hhandled.awake.trans h.awake, fun c hc => h.client c (hhandled.client ▸ hc), fun hsuspended => ?_⟩
  have hone : a.waysForward = 1 := h.one (by rw [isSuspended, hhandled.client] at hsuspended; exact hsuspended)
  have hlength : (handle { a with events := events } event).restartTimers.length =
      a.restartTimers.length + if event.isEnd then 1 else 0 := htimers
  simp only [waysForward, ends, hevents, List.countP_cons] at hone
  simp only [waysForward, ends, hhandled.client, hhandled.events, hlength]
  omega

/-- The client is connected again, whoever opens it. -/
private theorem settled_connectClient {b : ClientApp} (hb : b.suspended = false) (openClient : Str → AppClient)
    (dialing : Dialing) (hfit : ∀ hostname, Fit (openClient hostname))
    (hways : ∀ hostname, (openClient hostname).suspended = false →
      (openClient hostname).attempts = 0 ∧ b.restartTimers.length + b.ends = 0) :
    Settled (b.connectClient openClient dialing) := by
  intro hexited _
  cases hhost : b.serverAddresses[b.currentServerIndex]? with
  | none =>
    have hthrown : b.connectClient openClient dialing = { b with exited := true } := by rw [connectClient, hhost]
    rw [hthrown] at hexited
    cases hexited
  | some hostname =>
    obtain ⟨c, hc⟩ : ∃ c, c = { openClient hostname with hostname := hostname } := ⟨_, rfl⟩
    have hconnects : b.connectClient openClient dialing = b.post (c.connect dialing) := by
      rw [connectClient, hhost, hc]
    have hfitted : Fit c := by
      rw [hc]
      exact ⟨(hfit hostname).lookups, (hfit hostname).ready, (hfit hostname).suspended⟩
    have hsame : c.suspended = (openClient hostname).suspended := by rw [hc]
    have hattempts : c.attempts = (openClient hostname).attempts := by rw [hc]; rfl
    rw [hconnects]
    rcases Bool.eq_false_or_eq_true c.suspended with hsuspended | hawake
    · rw [connect_suspended hfitted hsuspended]
      refine ⟨hb, fun d hd => ?_, fun hnot => ?_⟩
      · obtain rfl := Option.some.inj hd
        exact ⟨hfitted.lookups, hfitted.ready, hfitted.suspended⟩
      · have hnot : c.suspended = false := hnot
        cases hsuspended.symm.trans hnot
    · obtain ⟨hnone, hzero⟩ := hways hostname (hsame.symm.trans hawake)
      obtain ⟨hconnected, -, hremains, -⟩ := connect_spec hfitted (hattempts.trans hnone) hawake dialing
      refine ⟨hb, fun d hd => ?_, fun _ => ?_⟩
      · obtain rfl := Option.some.inj hd
        exact hconnected
      · rw [post_ways, hremains, hzero]

private theorem fit_initial (hostname : Str) : Fit (AppClient.initial hostname) := ⟨nofun, nofun, nofun⟩

/-- What `startClient` does when nothing else is under way. -/
private theorem settled_startClient {b : ClientApp} (hb : b.suspended = false) (hfit : ∀ c, b.client = some c → Fit c)
    (hnone : b.isSuspended = false → b.waysForward = 0) (opening : ScreenOpening) (dialing : Dialing)
    (hok : b.client.isSome = true ∨ opening ≠ .failed) : Settled (b.startClient opening dialing).1 := by
  unfold startClient
  cases hclient : b.client with
  | some c =>
    refine settled_connectClient hb _ dialing (fun _ => hfit c hclient) fun _ hawake => ?_
    have hzero := hnone (by rw [isSuspended, hclient]; exact hawake)
    rw [ways_client hclient] at hzero
    exact ⟨by omega, by omega⟩
  | none =>
    have hzero := hnone (by rw [isSuspended, hclient]; rfl)
    rw [waysForward, hclient, Option.elim_none] at hzero
    cases opening with
    | opened => exact settled_connectClient hb _ dialing fit_initial fun _ _ => ⟨rfl, by omega⟩
    | screenUnavailable =>
      refine fun _ _ => ⟨hb, fun c hc => (by cases hclient.symm.trans hc), fun _ => ?_⟩
      have hends : b.scheduleClientRestart.ends = b.ends := rfl
      have hstays : b.scheduleClientRestart.client = none := hclient
      rw [waysForward, hstays, hends, Option.elim_none, scheduleClientRestart, List.length_append,
        List.length_singleton]
      omega
    | failed => simp [hclient] at hok

private theorem settled_restart (h : Kept a) {timer : Nat} (htimer : timer < a.restartTimers.length)
    (opening : ScreenOpening) (dialing : Dialing) (hok : a.client.isSome = true ∨ opening ≠ .failed) :
    Settled (a.handleClientRestart timer opening dialing) := by
  refine settled_startClient (b := { a with restartTimers := a.restartTimers.eraseIdx timer }) h.awake h.client
    (fun hawake => ?_) opening dialing hok
  have hone : a.waysForward = 1 := h.one hawake
  have hlength : (a.restartTimers.eraseIdx timer).length + 1 = a.restartTimers.length := by
    rw [List.length_eraseIdx_of_lt htimer]
    omega
  simp only [waysForward, ends] at hone ⊢
  omega

/-! Asking to quit is never taken back -/

private theorem inPhase_quit (phases : List StreamPhase) (handler : AppClient → AppClient × List ClientEvent) :
    (a.inPhase phases handler).quit = a.quit := by
  unfold ClientApp.inPhase
  split
  · rfl
  · split <;> rfl

private theorem connectClient_quit (openClient : Str → AppClient) (dialing : Dialing) :
    (a.connectClient openClient dialing).quit = a.quit := by
  unfold connectClient
  split <;> rfl

private theorem startClient_quit (opening : ScreenOpening) (dialing : Dialing) :
    (a.startClient opening dialing).1.quit = a.quit := by
  unfold startClient
  split
  · exact connectClient_quit _ _
  · cases opening with
    | opened => exact connectClient_quit _ _
    | screenUnavailable => rfl
    | failed => rfl

private theorem scheduleUnlessSuspended_quit : a.scheduleUnlessSuspended.quit = a.quit := by
  unfold scheduleUnlessSuspended
  split <;> rfl

private theorem refused_quit (h : a.quit = true) (retry : Bool) : (a.handleClientRefused retry).quit = true := by
  unfold handleClientRefused
  split
  · rfl
  · split
    · exact h
    · exact h

private theorem handle_quit (h : a.quit = true) (event : ClientEvent) : (a.handle event).quit = true := by
  cases event with
  | clientConnected => exact h
  | clientConnectionFailed retry =>
    simp only [handle, handleClientFailed]
    split
    · exact scheduleUnlessSuspended_quit.trans h
    · have hnext := tryNextServer_spec { a with lastServerAddressIndex := 0 }
      generalize ClientApp.tryNextServer { a with lastServerAddressIndex := 0 } = b at hnext ⊢
      have hquit : b.quit = true := by rw [hnext]; exact h
      split
      · exact refused_quit hquit retry
      · exact scheduleUnlessSuspended_quit.trans hquit
  | clientConnectionRefused retry => exact refused_quit h retry
  | clientDisconnected => exact scheduleUnlessSuspended_quit.trans h

private theorem step_quit (h : a.quit = true) (move : ClientAppMove) : (step a move).quit = true := by
  unfold step
  split
  · exact h
  · cases move with
    | restart timer opening dialing =>
      simp only
      split
      · exact (startClient_quit opening dialing).trans h
      · exact h
    | dispatch =>
      simp only
      split
      · exact h
      · refine handle_quit ?_ _
        exact h
    | lookedUp lookup addresses dialing =>
      simp only
      split
      · exact h
      · split <;> exact h
    | connected => exact (inPhase_quit _ _).trans h
    | connectionFailed => exact (inPhase_quit _ _).trans h
    | connectTimeout => exact (inPhase_quit _ _).trans h
    | disconnected => exact (inPhase_quit _ _).trans h
    | hello isKnownProtocol => exact (inPhase_quit _ _).trans h
    | handshakeComplete => exact (inPhase_quit _ _).trans h
    | disconnect hasMessage => exact (inPhase_quit _ _).trans h
    | refuseConnection => exact (inPhase_quit _ _).trans h
    | suspend =>
      simp only
      split <;> exact h
    | resume dialing =>
      simp only
      split <;> exact h
    | quit => rfl

/-! One step, and a run -/

private theorem Settled.oneWayForward (h : Settled a) : a.OneWayForward :=
  fun hexited hquit _ hawake => (h hexited hquit).one hawake

private theorem Kept.settled (h : Kept a) : Settled a := fun _ _ => h

private theorem settled_suspend (h : Kept a) {c : AppClient} (hclient : a.client = some c) :
    Settled (a.post c.handleSuspend) := by
  obtain ⟨hfit, hsuspended⟩ := suspend_spec (h.client c hclient)
  exact (h.posted hfit fun hnot => (by cases hsuspended.symm.trans hnot)).settled

private theorem settled_lookedUp (h : Kept a) {c : AppClient} (hclient : a.client = some c) {i generation : Nat}
    (hlookup : c.lookups[i]? = some generation) (addresses : Option Nat) (dialing : Dialing) :
    Settled (a.post (AppClient.lookedUp { c with lookups := c.lookups.eraseIdx i } generation addresses dialing)) := by
  obtain ⟨hfit, hsame, hremains⟩ :=
    lookedUp_spec (h.client c hclient) (attempts_le h hclient) hlookup addresses dialing
  refine (h.posted hfit fun hawake => ?_).settled
  have hone := one_client h hclient (hsame.symm.trans hawake)
  omega

private theorem kept_restart (h : Kept a) (hexited : a.exited = false) (hquit : a.quit = false) (timer : Nat)
    (opening : ScreenOpening) (dialing : Dialing) :
    (a.orderly (.restart timer opening dialing) = true → Settled (step a (.restart timer opening dialing))) ∧
      (a.orderly (.restart timer opening dialing) = false →
        ¬ (step a (.restart timer opening dialing)).OneWayForward) := by
  have hstep : step a (.restart timer opening dialing) =
      if timer < a.restartTimers.length then a.handleClientRestart timer opening dialing else a :=
    if_neg (by rw [hexited]; exact Bool.false_ne_true)
  have horderly : a.orderly (.restart timer opening dialing) =
      (a.restartTimers.length ≤ timer || a.client.isSome || opening ≠ .failed) := by
    rw [orderly, hexited, hquit]
    rfl
  rw [hstep, horderly]
  split
  · rename_i htimer
    have hnot : decide (a.restartTimers.length ≤ timer) = false := decide_eq_false (Nat.not_le.mpr htimer)
    rw [hnot, Bool.false_or]
    constructor
    · intro hok
      refine settled_restart h htimer opening dialing ?_
      simpa using hok
    · intro hbad hone
      obtain ⟨hsome, hfailed⟩ := Bool.or_eq_false_iff.mp hbad
      have hclient : a.client = none := Option.not_isSome_iff_eq_none.mp (by rw [hsome]; exact Bool.false_ne_true)
      obtain rfl : opening = .failed := by simpa using hfailed
      have hresult : a.handleClientRestart timer .failed dialing =
          { a with restartTimers := a.restartTimers.eraseIdx timer, retryCount := 0 } := by
        simp only [handleClientRestart, startClient, hclient]
      have hbefore : a.waysForward = 1 := h.one (by rw [isSuspended, hclient]; rfl)
      have hlength : (a.restartTimers.eraseIdx timer).length + 1 = a.restartTimers.length := by
        rw [List.length_eraseIdx_of_lt htimer]
        omega
      rw [hresult] at hone
      have hafter := hone hexited hquit (by simp [isConnected, hclient]) (by simp [isSuspended, hclient])
      simp only [waysForward, ends] at hbefore hafter
      omega
  · rename_i htimer
    have hle : decide (a.restartTimers.length ≤ timer) = true := decide_eq_true (Nat.not_lt.mp htimer)
    exact ⟨fun _ => h.settled, fun hnot => (by rw [hle] at hnot; simp at hnot)⟩

private theorem kept_resume (h : Kept a) (hexited : a.exited = false) (hquit : a.quit = false) (dialing : Dialing) :
    (a.orderly (.resume dialing) = true → Settled (step a (.resume dialing))) ∧
      (a.orderly (.resume dialing) = false → ¬ (step a (.resume dialing)).OneWayForward) := by
  have horderly : a.orderly (.resume dialing) = a.client.all fun c => !c.suspended ||
      a.restartTimers.length + a.ends + c.connectOnResume.toNat = 1 := by
    rw [orderly, hexited, hquit]
    rfl
  have hnotExited : ¬ a.exited = true := by rw [hexited]; exact Bool.false_ne_true
  rw [horderly]
  cases hclient : a.client with
  | none =>
    have hstep : step a (.resume dialing) = a := (if_neg hnotExited).trans (by rw [hclient])
    rw [hstep]
    exact ⟨fun _ => h.settled, fun hnot => by cases hnot⟩
  | some c =>
    have hstep : step a (.resume dialing) = a.post (c.handleResume dialing) :=
      (if_neg hnotExited).trans (by rw [hclient])
    have hfit := h.client c hclient
    rw [hstep, Option.all_some]
    rcases Bool.eq_false_or_eq_true c.suspended with hsuspended | hawake
    · obtain ⟨hresumed, hnow, hremains, hready⟩ := resume_spec hfit hsuspended dialing
      rw [hsuspended, Bool.not_true, Bool.false_or]
      constructor
      · intro hok
        refine (h.posted hresumed fun _ => ?_).settled
        rw [hremains]
        exact of_decide_eq_true hok
      · intro hbad hone
        have hafter := hone hexited hquit hready hnow
        rw [post_ways, hremains] at hafter
        exact of_decide_eq_false hbad hafter
    · have hstays : c.handleResume dialing = (c, []) := if_neg (by rw [hawake]; exact Bool.false_ne_true)
      rw [hstays, hawake, Bool.not_false, Bool.true_or]
      refine ⟨fun _ => (h.posted hfit fun _ => ?_).settled, fun hnot => by cases hnot⟩
      have hone := one_client h hclient hawake
      simp only [remains, List.countP_nil]
      omega

/-- Every move but a restart and a resume goes well. -/
private theorem settled_step (h : Kept a) (hexited : a.exited = false) {move : ClientAppMove}
    (hrestart : ∀ timer opening dialing, move ≠ .restart timer opening dialing)
    (hresume : ∀ dialing, move ≠ .resume dialing) : Settled (step a move) := by
  unfold step
  rw [if_neg (by rw [hexited]; exact Bool.false_ne_true)]
  cases move with
  | restart timer opening dialing => exact absurd rfl (hrestart timer opening dialing)
  | resume dialing => exact absurd rfl (hresume dialing)
  | dispatch =>
    simp only
    split
    · exact h.settled
    · exact settled_dispatch h ‹_›
  | lookedUp lookup addresses dialing =>
    simp only
    split
    · exact h.settled
    · split
      · exact h.settled
      · exact settled_lookedUp h ‹_› ‹_› addresses dialing
  | suspend =>
    simp only
    split
    · exact h.settled
    · exact settled_suspend h ‹_›
  | quit => exact fun _ hnot => by cases hnot
  | connected =>
    refine (h.inPhase _ _ fun c phase hfit hone hstream hmem => ?_).settled
    have hready := hfit.not_ready hstream (by rintro rfl; simp at hmem)
    exact hfit.phase hone hstream .waitingForHello c.ready (fun hnot => by cases hready.symm.trans hnot) rfl
  | connectionFailed =>
    refine (h.inPhase _ _ fun c phase hfit hone hstream hmem => ?_).settled
    have hready := hfit.not_ready hstream (by rintro rfl; simp at hmem)
    exact hfit.closed hone hstream rfl c.ready hready
  | connectTimeout =>
    refine (h.inPhase _ _ fun c phase hfit hone hstream hmem => ?_).settled
    have hready := hfit.not_ready hstream (by rintro rfl; simp at hmem)
    exact hfit.closed hone hstream rfl c.ready hready
  | disconnected =>
    exact (h.inPhase _ _ fun c phase hfit hone hstream _ => hfit.closed hone hstream rfl false rfl).settled
  | hello isKnownProtocol =>
    refine (h.inPhase _ _ fun c phase hfit hone hstream hmem => ?_).settled
    have hready := hfit.not_ready hstream (by rintro rfl; simp at hmem)
    cases isKnownProtocol with
    | true => exact hfit.phase hone hstream .joined false nofun rfl
    | false => exact hfit.closed hone hstream rfl c.ready hready
  | handshakeComplete =>
    refine (h.inPhase _ _ fun c phase hfit hone hstream hmem => ?_).settled
    obtain rfl : phase = .joined := by simpa using hmem
    have hnoEnd : List.countP ClientEvent.isEnd [.clientConnected] = 0 := rfl
    have hresult := hfit.phase hone hstream .joined true (fun _ => rfl) hnoEnd
    rw [← hstream] at hresult
    exact hresult
  | disconnect hasMessage =>
    refine (h.inPhase _ _ fun c phase hfit hone hstream _ => hfit.cleanedUp (hfit.awake hstream) ?_).settled
    cases hasMessage <;> rfl
  | refuseConnection =>
    exact (h.inPhase _ _ fun c phase hfit hone hstream _ => hfit.cleanedUp (hfit.awake hstream) rfl).settled

private theorem settled_exact (h : Settled a) (move : ClientAppMove) :
    (a.orderly move = true → Settled (step a move)) ∧ (a.orderly move = false → ¬ (step a move).OneWayForward) := by
  rcases Bool.eq_false_or_eq_true a.exited with hexited | hexited
  · have hstays : step a move = a := if_pos hexited
    exact ⟨fun _ => hstays.symm ▸ h, fun hnot => by simp [orderly, hexited] at hnot⟩
  rcases Bool.eq_false_or_eq_true a.quit with hquit | hquit
  · refine ⟨fun _ _ hnot => ?_, fun hnot => by simp [orderly, hquit] at hnot⟩
    cases (step_quit hquit move).symm.trans hnot
  have hkept := h hexited hquit
  by_cases hrestart : ∃ timer opening dialing, move = .restart timer opening dialing
  · obtain ⟨timer, opening, dialing, rfl⟩ := hrestart
    exact kept_restart hkept hexited hquit timer opening dialing
  by_cases hresume : ∃ dialing, move = .resume dialing
  · obtain ⟨dialing, rfl⟩ := hresume
    exact kept_resume hkept hexited hquit dialing
  have hgood := settled_step hkept hexited
    (fun timer opening dialing heq => hrestart ⟨timer, opening, dialing, heq⟩) fun dialing heq => hresume ⟨dialing, heq⟩
  refine ⟨fun _ => hgood, fun hnot => ?_⟩
  cases move with
  | restart timer opening dialing => exact absurd ⟨timer, opening, dialing, rfl⟩ hrestart
  | resume dialing => exact absurd ⟨dialing, rfl⟩ hresume
  | _ => simp [orderly] at hnot

private theorem settled_startNode (serverAddresses : List Str) (dynamicConnectionRetry : Bool) (opening : ScreenOpening)
    (dialing : Dialing) : Settled (startNode serverAddresses dynamicConnectionRetry opening dialing) := by
  by_cases hfailed : opening = .failed
  · subst hfailed
    exact fun hexited => by cases hexited
  · unfold startNode
    generalize hb : ClientApp.mk serverAddresses dynamicConnectionRetry 0 0 0 false [] [] none false false = b
    have hstarted : (b.startClient opening dialing).2 = true := by
      rw [← hb]
      cases opening with
      | opened => rfl
      | screenUnavailable => rfl
      | failed => exact absurd rfl hfailed
    have hsettled := settled_startClient (b := b) (by rw [← hb]) (fun c hc => by rw [← hb] at hc; cases hc)
      (fun _ => by rw [← hb]; rfl) opening dialing (.inr hfailed)
    simp only
    generalize b.startClient opening dialing = result at hstarted hsettled ⊢
    obtain ⟨t, isStarted⟩ := result
    obtain rfl : isStarted = true := hstarted
    exact hsettled

/-- The invariant holds after every orderly run. -/
theorem settled_run (serverAddresses : List Str) (dynamicConnectionRetry : Bool) (opening : ScreenOpening)
    (dialing : Dialing) (moves : List ClientAppMove)
    (horderly : EachStep Orderly (startNode serverAddresses dynamicConnectionRetry opening dialing)
      (runTrace step (startNode serverAddresses dynamicConnectionRetry opening dialing) moves)) :
    Settled (moves.foldl step (startNode serverAddresses dynamicConnectionRetry opening dialing)) := by
  have hstart := settled_startNode serverAddresses dynamicConnectionRetry opening dialing
  generalize startNode serverAddresses dynamicConnectionRetry opening dialing = a at horderly hstart ⊢
  induction moves generalizing a with
  | nil => exact hstart
  | cons move moves ih => exact ih _ horderly.2 ((settled_exact hstart move).1 horderly.1)

/-- The application has one way forward all along, exactly when no restart fails for good without
a client and each resume finds one way. -/
theorem always_oneWayForward_iff (serverAddresses : List Str) (dynamicConnectionRetry : Bool) (opening : ScreenOpening)
    (dialing : Dialing) (moves : List ClientAppMove) :
    let a := startNode serverAddresses dynamicConnectionRetry opening dialing
    a.OneWayForward ∧ Always OneWayForward (runTrace step a moves) ↔ EachStep Orderly a (runTrace step a moves) := by
  intro a
  have hstart : Settled a := settled_startNode serverAddresses dynamicConnectionRetry opening dialing
  rw [← eachStep_state_iff OneWayForward a, and_iff_right hstart.oneWayForward]
  refine (Trace.eachStep_iff Settled ?_ ?_ (trace_runTrace step a moves) hstart).symm
  · rintro b move t hb rfl
    refine ⟨fun hgood => ((settled_exact hb move).1 hgood).oneWayForward, fun hone => ?_⟩
    by_contra hbad
    exact (settled_exact hb move).2 (Bool.eq_false_iff.mpr hbad) hone
  · rintro b move t hb rfl hgood
    exact (settled_exact hb move).1 hgood

/-- A connected client is suspended and resumed: it connects again, and the end of the connection
will start a timer. -/
theorem resumed_twice : ¬ Always OneWayForward (runTrace step
    (startNode ["host".toList] false .opened ⟨none, true⟩)
    [.lookedUp 0 (some 1) ⟨none, true⟩, .connected, .hello true, .handshakeComplete, .suspend,
      .resume ⟨none, true⟩]) := by
  decide

end ClientApp
end Synergy
