import Mathlib.Data.Finset.Option
import Synergy.Client.ClientResources

/-! The stages of an attempt: what there is in each of them, and how the set-up and clean-up
functions lead from one to the other. -/
namespace Synergy
namespace ClientLife.Resources

/-- What there is, and the handlers of the stream; everything else has been deleted. -/
structure At (r : Resources) (st tm sv ka : Option Nat) (reg : EventTypes → Option Handler) : Prop where
  stream : r.stream = st
  timer : r.timer = tm
  server : r.server = sv
  keepAliveTimer : r.keepAliveTimer = ka
  streams : r.streams = st.toFinset
  timers : r.timers = tm.toFinset
  keepAliveTimers : r.keepAliveTimers = ka.toFinset
  proxies : r.proxies = sv.toFinset
  streamHandlers : ∀ type n, r.handlers type (.stream n) = if st = some n then reg type else none
  timerHandlers : ∀ type n, r.handlers type (.connectTimer n) =
    if tm = some n ∧ type = .timer then some .handleConnectTimeout else none
  keepAliveHandlers : ∀ type n, r.handlers type (.keepAliveTimer n) =
    if ka = some n ∧ type = .timer then some .handleKeepAliveAlarm else none
  asserts : r.assertsHold = true

variable {r : Resources} {st tm sv ka : Option Nat} {reg reg' : EventTypes → Option Handler} {n : Nat}

theorem At.congr (h : At r st tm sv ka reg) (hreg : ∀ type, reg type = reg' type) : At r st tm sv ka reg' :=
  { h with streamHandlers := fun type n => by rw [h.streamHandlers, hreg] }

theorem At.addStreamHandler (h : At r (some n) tm sv ka reg) (type : EventTypes) (handler : Handler) :
    At (r.addHandler type (.stream n) handler) (some n) tm sv ka (fun t => if t = type then some handler else reg t) :=
  { h with
    streamHandlers := by
      intro t m
      simp only [addHandler, h.streamHandlers, Target.stream.injEq, Option.some.injEq]
      by_cases hm : m = n
      · simp [hm]
      · simp [hm, Ne.symm hm]
    timerHandlers := fun t m => by simp [addHandler, h.timerHandlers]
    keepAliveHandlers := fun t m => by simp [addHandler, h.keepAliveHandlers] }

theorem At.removeStreamHandler (h : At r (some n) tm sv ka reg) (type : EventTypes) :
    At (r.removeHandler type (.stream n)) (some n) tm sv ka (fun t => if t = type then none else reg t) :=
  { h with
    streamHandlers := by
      intro t m
      simp only [removeHandler, h.streamHandlers, Target.stream.injEq, Option.some.injEq]
      by_cases hm : m = n
      · simp [hm]
      · simp [hm, Ne.symm hm]
    timerHandlers := fun t m => by simp [removeHandler, h.timerHandlers]
    keepAliveHandlers := fun t m => by simp [removeHandler, h.keepAliveHandlers] }

theorem At.addClientHandler (h : At r st tm sv ka reg) (type : EventTypes) (handler : Handler) :
    At (r.addHandler type .client handler) st tm sv ka reg :=
  { h with
    streamHandlers := fun t m => by simp [addHandler, h.streamHandlers]
    timerHandlers := fun t m => by simp [addHandler, h.timerHandlers]
    keepAliveHandlers := fun t m => by simp [addHandler, h.keepAliveHandlers] }

theorem At.removeClientHandler (h : At r st tm sv ka reg) (type : EventTypes) :
    At (r.removeHandler type .client) st tm sv ka reg :=
  { h with
    streamHandlers := fun t m => by simp [removeHandler, h.streamHandlers]
    timerHandlers := fun t m => by simp [removeHandler, h.timerHandlers]
    keepAliveHandlers := fun t m => by simp [removeHandler, h.keepAliveHandlers] }

theorem At.openStream (h : At r none tm sv ka reg) :
    At r.openStream (some r.created) tm sv ka (fun _ => none) :=
  { h with
    stream := rfl
    streams := by simp [Resources.openStream, h.streams]
    streamHandlers := fun t m => by simp [Resources.openStream, h.streamHandlers] }

theorem At.setupTimer (h : At r st none sv ka reg) : At r.setupTimer st (some r.created) sv ka reg := by
  have hnone : r.timer.isNone = true := by rw [h.timer]; rfl
  have hopen : r.assert r.timer.isNone = r := by rw [hnone, assert, Bool.and_true]
  rw [Resources.setupTimer, hopen]
  exact { h with
    timer := rfl
    timers := by simp [addHandler, h.timers]
    streamHandlers := fun t m => by simp [addHandler, h.streamHandlers]
    timerHandlers := by
      intro t m
      simp only [addHandler, h.timerHandlers, Target.connectTimer.injEq, reduceCtorEq, false_and, if_false,
        Option.some.injEq]
      exact if_congr (by rw [and_comm, eq_comm (a := m)]) rfl rfl
    keepAliveHandlers := fun t m => by simp [addHandler, h.keepAliveHandlers] }

theorem At.cleanupTimer (h : At r st tm sv ka reg) : At r.cleanupTimer st none sv ka reg := by
  cases tm with
  | none => rwa [Resources.cleanupTimer, h.timer]
  | some m =>
    rw [Resources.cleanupTimer, h.timer]
    exact { h with
      timer := rfl
      timers := by simp [h.timers]
      streamHandlers := fun t k => by simp [removeHandler, h.streamHandlers]
      timerHandlers := by
        intro t k
        simp only [removeHandler, h.timerHandlers, Target.connectTimer.injEq, reduceCtorEq, false_and, if_false,
          Option.some.injEq]
        by_cases hk : m = k
        · by_cases ht : t = .timer
          · simp [hk, ht]
          · simp [ht]
        · simp [hk]
      keepAliveHandlers := fun t k => by simp [removeHandler, h.keepAliveHandlers] }

theorem At.stopKeepAliveAlarm (h : At r st tm sv ka reg) : At r.stopKeepAliveAlarm st tm sv none reg := by
  cases ka with
  | none => rwa [Resources.stopKeepAliveAlarm, h.keepAliveTimer]
  | some m =>
    rw [Resources.stopKeepAliveAlarm, h.keepAliveTimer]
    exact { h with
      keepAliveTimer := rfl
      keepAliveTimers := by simp [h.keepAliveTimers]
      streamHandlers := fun t k => by simp [removeHandler, h.streamHandlers]
      timerHandlers := fun t k => by simp [removeHandler, h.timerHandlers]
      keepAliveHandlers := by
        intro t k
        simp only [removeHandler, h.keepAliveHandlers, Target.keepAliveTimer.injEq, reduceCtorEq, false_and, if_false,
          Option.some.injEq]
        by_cases hk : m = k
        · by_cases ht : t = .timer
          · simp [hk, ht]
          · simp [ht]
        · simp [hk] }

theorem At.startKeepAliveAlarm (h : At r st tm sv ka reg) :
    ∃ m, At (r.resetKeepAliveAlarm true) st tm sv (some m) reg := by
  have hoff := h.stopKeepAliveAlarm
  refine ⟨r.stopKeepAliveAlarm.created, ?_⟩
  exact { hoff with
    keepAliveTimer := rfl
    keepAliveTimers := by simp [Resources.resetKeepAliveAlarm, addHandler, hoff.keepAliveTimers]
    streamHandlers := fun t k => by simp [Resources.resetKeepAliveAlarm, addHandler, hoff.streamHandlers]
    timerHandlers := fun t k => by simp [Resources.resetKeepAliveAlarm, addHandler, hoff.timerHandlers]
    keepAliveHandlers := by
      intro t m
      simp only [Resources.resetKeepAliveAlarm, if_true, addHandler, hoff.keepAliveHandlers,
        Target.keepAliveTimer.injEq, reduceCtorEq, false_and, if_false, Option.some.injEq]
      exact if_congr (by rw [and_comm, eq_comm (a := m)]) rfl rfl }

theorem At.cleanupConnecting (h : At r st tm sv ka reg) : At r.cleanupConnecting st tm sv ka (fun type =>
    if type = .dataSocketConnectionFailed then none else if type = .dataSocketConnected then none else reg type) := by
  cases st with
  | none =>
    rw [Resources.cleanupConnecting, h.stream]
    exact { h with streamHandlers := fun t k => by simp [h.streamHandlers] }
  | some n =>
    rw [Resources.cleanupConnecting, h.stream]
    exact (h.removeStreamHandler .dataSocketConnected).removeStreamHandler .dataSocketConnectionFailed

/-- A stream without handlers can be deleted. -/
theorem At.cleanupStream (h : At r st tm sv ka reg) (hnone : ∀ type, reg type = none) :
    At r.cleanupStream none tm sv ka (fun _ => none) := by
  cases st with
  | none =>
    rw [Resources.cleanupStream, h.stream]
    exact { h with streamHandlers := fun t k => by simp [h.streamHandlers] }
  | some n =>
    rw [Resources.cleanupStream, h.stream]
    exact { h with
      stream := rfl
      streams := by simp [h.streams]
      streamHandlers := fun t k => by simp [h.streamHandlers, hnone] }

theorem At.cleanupConnection (h : At r st tm sv ka reg) (hconnected : reg .dataSocketConnected = none)
    (hsecure : reg .dataSocketSecureConnected = none) (hfailed : reg .dataSocketConnectionFailed = none)
    (htimer : reg .timer = none) (hshape : reg .screenShapeChanged = none) (hgrab : reg .clipboardGrabbed = none) :
    At r.cleanupConnection none tm sv ka (fun _ => none) := by
  cases st with
  | none =>
    rw [Resources.cleanupConnection, h.stream]
    exact { h with streamHandlers := fun t k => by simp [h.streamHandlers] }
  | some n =>
    rw [Resources.cleanupConnection, h.stream]
    have hremoved := ((((h.removeStreamHandler .streamInputReady).removeStreamHandler
      .streamOutputError).removeStreamHandler .streamInputShutdown).removeStreamHandler
      .streamOutputShutdown).removeStreamHandler .socketDisconnected
    refine hremoved.cleanupStream fun type => ?_
    cases type <;> simp [*]

/-- The proxy uses the stream, so the stream must still be there. -/
theorem At.cleanupScreen (h : At r (some n) tm sv ka reg) (hka : sv = none → ka = none) :
    At r.cleanupScreen (some n) tm none none
      (fun type => if sv.isSome ∧ type = .streamInputReady then none else reg type) := by
  cases sv with
  | none =>
    rw [Resources.cleanupScreen, h.server]
    exact (hka rfl ▸ h).congr fun type => by simp
  | some q =>
    rw [Resources.cleanupScreen, h.server]
    have hoff := ((h.removeClientHandler .screenShapeChanged).removeClientHandler .clipboardGrabbed).stopKeepAliveAlarm
    have hproxy := hoff.removeStreamHandler .streamInputReady
    simp only [Resources.resetKeepAliveAlarm, Bool.false_eq_true, if_false, hoff.stream]
    exact { hproxy with
      server := rfl
      proxies := by simp [hproxy.proxies]
      streamHandlers := fun t k => by simp [hproxy.streamHandlers] }

/-! The stages -/

def connectingHandlers (secure : Bool) : EventTypes → Option Handler
  | .dataSocketConnected => if secure then none else some .handleConnected
  | .dataSocketSecureConnected => if secure then some .handleConnected else none
  | .dataSocketConnectionFailed => some .handleConnectionFailed
  | _ => none

def connectionHandlers (secure : Bool) (input : Handler) : EventTypes → Option Handler
  | .socketDisconnected | .streamInputShutdown | .streamOutputShutdown => some .handleDisconnected
  | .streamInputReady => some input
  | .streamOutputError => some .handleOutputError
  | .dataSocketSecureConnected => if secure then some .handleConnected else none
  | _ => none

/-- Over a secure connection the handler of the connected event is still there, and takes the
input back from the proxy when it is called again. -/
inductive Stage (secure : Bool) (r : Resources) : Prop
  | idle (h : At r none none none none fun _ => none)
  | connecting (n m : Nat) (h : At r (some n) (some m) none none (connectingHandlers secure))
  | waiting (n m : Nat) (h : At r (some n) (some m) none none (connectionHandlers secure .handleHello))
  | joined (n q k : Nat) (input : Handler) (hinput : input = .handleData ∨ secure = true ∧ input = .handleHello)
      (h : At r (some n) none (some q) (some k) (connectionHandlers secure input))

theorem At.idle (h : At r none tm sv ka reg) : At r none tm sv ka (fun _ => none) :=
  { h with streamHandlers := fun type n => by simp [h.streamHandlers] }

theorem initial_at : At initial none none none none (fun _ => none) := by
  refine ⟨rfl, rfl, rfl, rfl, rfl, rfl, rfl, rfl, fun type n => ?_, fun type n => ?_, fun type n => ?_, rfl⟩ <;>
    simp [initial]

theorem At.dialed (h : At r none none none none reg) (secure : Bool) : ∃ n m,
    At ((r.openStream.setupConnecting secure).setupTimer) (some n) (some m) none none (connectingHandlers secure) := by
  have hopen := h.openStream
  have hsetup : At (r.openStream.setupConnecting secure) (some r.created) none none none
      (connectingHandlers secure) := by
    rw [setupConnecting, hopen.stream]
    cases secure with
    | true =>
      refine ((hopen.addStreamHandler .dataSocketSecureConnected .handleConnected).addStreamHandler
        .dataSocketConnectionFailed .handleConnectionFailed).congr fun type => ?_
      cases type <;> simp [connectingHandlers]
    | false =>
      refine ((hopen.addStreamHandler .dataSocketConnected .handleConnected).addStreamHandler
        .dataSocketConnectionFailed .handleConnectionFailed).congr fun type => ?_
      cases type <;> simp [connectingHandlers]
  exact ⟨_, _, hsetup.setupTimer⟩

/-- An attempt that fails while it connects. -/
theorem At.connectFailed (h : At r st tm sv ka reg) (hreg : ∀ type, type ≠ .dataSocketConnected →
    type ≠ .dataSocketConnectionFailed → reg type = none) :
    At (r.cleanupTimer.cleanupConnecting.cleanupStream) none none sv ka (fun _ => none) := by
  refine h.cleanupTimer.cleanupConnecting.cleanupStream fun type => ?_
  by_cases hfailed : type = .dataSocketConnectionFailed
  · simp [hfailed]
  · by_cases hconnected : type = .dataSocketConnected
    · simp [hconnected]
    · simp [hfailed, hconnected, hreg]

/-- The input comes to `Client` again, whoever had it. -/
theorem At.connected {n : Nat} {secure : Bool} (h : At r (some n) tm sv ka reg)
    (hreg : reg = connectingHandlers secure ∨ ∃ input, reg = connectionHandlers secure input) :
    At r.cleanupConnecting.setupConnection (some n) tm sv ka (connectionHandlers secure .handleHello) := by
  have hclean := h.cleanupConnecting
  have hsetup := ((((hclean.addStreamHandler .socketDisconnected .handleDisconnected).addStreamHandler
    .streamInputReady .handleHello).addStreamHandler .streamOutputError .handleOutputError).addStreamHandler
    .streamInputShutdown .handleDisconnected).addStreamHandler .streamOutputShutdown .handleDisconnected
  rw [setupConnection, hclean.stream]
  refine hsetup.congr fun type => ?_
  rcases hreg with rfl | ⟨input, rfl⟩
  · cases type <;> simp [connectionHandlers, connectingHandlers]
  · cases type <;> simp [connectionHandlers]

theorem At.joinedScreen {n m : Nat} {secure : Bool}
    (h : At r (some n) (some m) none none (connectionHandlers secure .handleHello)) :
    ∃ q k, At r.setupScreen.cleanupTimer (some n) none (some q) (some k) (connectionHandlers secure .handleData) := by
  have hnone : r.server.isNone = true := by rw [h.server]; rfl
  have hopen : r.assert r.server.isNone = r := by rw [hnone, assert, Bool.and_true]
  have hproxy : At { r with server := some r.created, proxies := insert r.created r.proxies, created := r.created + 1 }
      (some n) (some m) (some r.created) none (connectionHandlers secure .handleHello) :=
    { h with
      server := rfl
      proxies := by simp [h.proxies] }
  obtain ⟨k, hka⟩ := (hproxy.addStreamHandler .streamInputReady .handleData).startKeepAliveAlarm
  have hscreen := (hka.addClientHandler .screenShapeChanged .handleShapeChanged).addClientHandler
    .clipboardGrabbed .handleClipboardGrabbed
  refine ⟨r.created, k, ?_⟩
  rw [setupScreen, hopen]
  simp only
  split
  · rename_i hstream
    cases h.stream.symm.trans hstream
  · rename_i n' hstream
    obtain rfl : n = n' := Option.some.inj (h.stream.symm.trans hstream)
    exact hscreen.cleanupTimer.congr fun type => by cases type <;> simp [connectionHandlers]

/-- What has a plain connection is cleaned up by all but `cleanupConnecting`. -/
theorem At.disconnected {n : Nat} {input : Handler} (h : At r (some n) tm sv ka (connectionHandlers false input))
    (hka : sv = none → ka = none) :
    At r.cleanupTimer.cleanupScreen.cleanupConnection none none none none (fun _ => none) := by
  refine (h.cleanupTimer.cleanupScreen hka).cleanupConnection ?_ ?_ ?_ ?_ ?_ ?_ <;> simp [connectionHandlers]

theorem At.cleanupScreen_none (h : At r st tm none ka reg) : r.cleanupScreen = r := by
  rw [Resources.cleanupScreen, h.server]

theorem At.cleanup_idle (h : At r none tm none ka reg) :
    At r.cleanupTimer.cleanupScreen.cleanupConnecting.cleanupConnection none none none ka (fun _ => none) := by
  rw [h.cleanupTimer.cleanupScreen_none]
  refine h.cleanupTimer.idle.cleanupConnecting.cleanupConnection ?_ ?_ ?_ ?_ ?_ ?_ <;> rfl

/-- `Client::cleanup` leaves nothing of a plain connection. -/
theorem Stage.cleanup (h : Stage false r) :
    At r.cleanupTimer.cleanupScreen.cleanupConnecting.cleanupConnection none none none none (fun _ => none) := by
  cases h with
  | idle h => exact h.cleanup_idle
  | connecting n m h =>
    refine (h.cleanupTimer.cleanupScreen fun _ => rfl).cleanupConnecting.cleanupConnection ?_ ?_ ?_ ?_ ?_ ?_ <;>
      simp [connectingHandlers]
  | waiting n m h =>
    refine (h.cleanupTimer.cleanupScreen fun _ => rfl).cleanupConnecting.cleanupConnection ?_ ?_ ?_ ?_ ?_ ?_ <;>
      simp [connectionHandlers]
  | joined n q k input hinput h =>
    refine (h.cleanupTimer.cleanupScreen (by simp)).cleanupConnecting.cleanupConnection ?_ ?_ ?_ ?_ ?_ ?_ <;>
      simp [connectionHandlers]

/-- The timer runs out before there is a proxy. -/
theorem Stage.timedOut {m : Nat} (h : Stage false r) (htimer : r.timer = some m) :
    At r.cleanupTimer.cleanupConnecting.cleanupConnection.cleanupStream none none none none (fun _ => none) := by
  cases h with
  | idle h => cases h.timer.symm.trans htimer
  | connecting n m h =>
    refine At.cleanupStream (h.cleanupTimer.cleanupConnecting.cleanupConnection ?_ ?_ ?_ ?_ ?_ ?_) fun _ => rfl <;>
      simp [connectingHandlers]
  | waiting n m h =>
    refine At.cleanupStream (h.cleanupTimer.cleanupConnecting.cleanupConnection ?_ ?_ ?_ ?_ ?_ ?_) fun _ => rfl <;>
      simp [connectionHandlers]
  | joined n q k input hinput h => cases h.timer.symm.trans htimer

variable {secure : Bool}

theorem Stage.at (h : Stage secure r) : ∃ st tm sv ka reg, At r st tm sv ka reg := by
  cases h with
  | idle h => exact ⟨_, _, _, _, _, h⟩
  | connecting n m h => exact ⟨_, _, _, _, _, h⟩
  | waiting n m h => exact ⟨_, _, _, _, _, h⟩
  | joined n q k input hinput h => exact ⟨_, _, _, _, _, h⟩

theorem Stage.serverStream (h : Stage secure r) (hserver : r.server ≠ none) : r.stream ≠ none := by
  cases h with
  | idle h => exact absurd h.server hserver
  | connecting n m h => exact absurd h.server hserver
  | waiting n m h => exact absurd h.server hserver
  | joined n q k input hinput h =>
    rw [h.stream]
    exact Option.some_ne_none n

theorem Stage.at_idle (h : Stage secure r) (hstream : r.stream = none) : At r none none none none fun _ => none := by
  cases h with
  | idle h => exact h
  | connecting n m h => cases h.stream.symm.trans hstream
  | waiting n m h => cases h.stream.symm.trans hstream
  | joined n q k input hinput h => cases h.stream.symm.trans hstream

/-! What a secure connection leaves behind -/

/-- The handler of the connected event is registered for the stream. -/
structure SecureStream (r : Resources) (n : Nat) : Prop where
  stream : r.stream = some n
  handler : r.handlers .dataSocketSecureConnected (.stream n) ≠ none

/-- The handler outlives its stream. -/
def Leaves (r : Resources) : Prop := ∃ n, r.handlers .dataSocketSecureConnected (.stream n) ≠ none ∧ n ∉ r.streams

theorem Stage.secureStream (h : Stage true r) {n : Nat} (hstream : r.stream = some n) : SecureStream r n := by
  refine ⟨hstream, ?_⟩
  cases h with
  | idle h => cases h.stream.symm.trans hstream
  | connecting n' m h =>
    obtain rfl : n' = n := Option.some.inj (h.stream.symm.trans hstream)
    simp [h.streamHandlers, connectingHandlers]
  | waiting n' m h =>
    obtain rfl : n' = n := Option.some.inj (h.stream.symm.trans hstream)
    simp [h.streamHandlers, connectionHandlers]
  | joined n' q k input hinput h =>
    obtain rfl : n' = n := Option.some.inj (h.stream.symm.trans hstream)
    simp [h.streamHandlers, connectionHandlers]

theorem SecureStream.removeHandler (h : SecureStream r n) (type : EventTypes) (htype : type ≠ .dataSocketSecureConnected)
    (target : Target) : SecureStream (r.removeHandler type target) n :=
  ⟨h.stream, by simpa [Resources.removeHandler, htype.symm] using h.handler⟩

theorem SecureStream.cleanupTimer (h : SecureStream r n) : SecureStream r.cleanupTimer n := by
  rw [Resources.cleanupTimer]
  split
  · exact h
  · rename_i m _
    have hremoved : SecureStream (r.removeHandler .timer (.connectTimer m)) n := h.removeHandler .timer nofun _
    exact ⟨hremoved.stream, hremoved.handler⟩

theorem SecureStream.cleanupConnecting (h : SecureStream r n) : SecureStream r.cleanupConnecting n := by
  rw [Resources.cleanupConnecting, h.stream]
  exact (h.removeHandler .dataSocketConnected nofun _).removeHandler .dataSocketConnectionFailed nofun _

theorem SecureStream.stopKeepAliveAlarm (h : SecureStream r n) : SecureStream r.stopKeepAliveAlarm n := by
  rw [Resources.stopKeepAliveAlarm]
  split
  · exact h
  · rename_i m _
    have hremoved : SecureStream (r.removeHandler .timer (.keepAliveTimer m)) n := h.removeHandler .timer nofun _
    exact ⟨hremoved.stream, hremoved.handler⟩

theorem SecureStream.cleanupScreen (h : SecureStream r n) : SecureStream r.cleanupScreen n := by
  rw [Resources.cleanupScreen]
  split
  · exact h
  · have hoff : SecureStream ((r.removeHandler .screenShapeChanged .client).removeHandler
        .clipboardGrabbed .client).stopKeepAliveAlarm n :=
      ((h.removeHandler .screenShapeChanged nofun _).removeHandler .clipboardGrabbed nofun _).stopKeepAliveAlarm
    have hremoved := hoff.removeHandler .streamInputReady nofun (.stream n)
    simp only [resetKeepAliveAlarm, Bool.false_eq_true, if_false, hoff.stream]
    exact ⟨hremoved.stream, hremoved.handler⟩

theorem SecureStream.cleanupStream (h : SecureStream r n) : Leaves r.cleanupStream := by
  rw [Resources.cleanupStream, h.stream]
  exact ⟨n, h.handler, Finset.notMem_erase n r.streams⟩

theorem SecureStream.cleanupConnection (h : SecureStream r n) : Leaves r.cleanupConnection := by
  rw [Resources.cleanupConnection, h.stream]
  have hremoved := ((((h.removeHandler .streamInputReady nofun (.stream n)).removeHandler
    .streamOutputError nofun (.stream n)).removeHandler
    .streamInputShutdown nofun (.stream n)).removeHandler
    .streamOutputShutdown nofun (.stream n)).removeHandler .socketDisconnected nofun (.stream n)
  exact hremoved.cleanupStream

theorem Leaves.cleanupStream (h : Leaves r) : Leaves r.cleanupStream := by
  obtain ⟨n, hhandler, hdeleted⟩ := h
  rw [Resources.cleanupStream]
  split
  · exact ⟨n, hhandler, hdeleted⟩
  · exact ⟨n, hhandler, fun hmem => hdeleted (Finset.mem_of_mem_erase hmem)⟩

end ClientLife.Resources
end Synergy
