import Synergy.Client.ClientAttempts
import Synergy.Lib.Trace

/-! A client has one attempt at a time, with one end, as long as it is not told to begin or to
end one that there is not, and as no secure stream is deleted. -/
namespace Synergy
open Synergy.Lib

namespace ClientLife
open Resources
variable {c t : ClientLife}

/-- An attempt begins when none is under way, and not with the addresses of another one; one
is ended while it is under way; and no hello ends behind the name of its protocol. -/
def inTurn (c : ClientLife) (move : ClientMove) : Bool :=
  match move with
  | .connect _ _ => c.resources.stream.isSome || c.suspended ||
      (!c.lookingUp && (!c.hostname.isEmpty || c.resolvedIps.isEmpty))
  | .resume _ => !c.suspended || !c.connectOnResume || !c.hostname.isEmpty || c.resolvedIps.isEmpty
  | .streamEvent type stream input => c.resources.handlers type (.stream stream) ≠ some .handleHello ||
      (readHello input).2 || !isKnownProtocol (readHello input).1
  | .disconnect _ => c.pending || c.begun = 0
  | .refuseConnection hasMessage => if hasMessage then c.pending || c.begun = 0 else !c.pending
  | .suspend => c.suspended || c.pending || c.begun = 0
  | _ => true

/-- The answer of this lookup is not listened to. -/
def isLate (c : ClientLife) (lookup : Lookup) : Bool :=
  lookup.generation ≠ c.resolveGeneration || c.resources.stream.isSome || c.suspended

/-- No stream is deleted, and no second proxy is created for one. -/
def keepsStream (c : ClientLife) (move : ClientMove) : Bool :=
  match move with
  | .connect _ dial => dial ≠ .notConnecting || c.resources.stream.isSome || c.suspended || !c.hostname.isEmpty
  | .resume dial => dial ≠ .notConnecting || !c.suspended || !c.connectOnResume || !c.hostname.isEmpty
  | .lookedUp lookup addresses dial => dial ≠ .notConnecting || addresses.all List.isEmpty ||
      (c.lookups[lookup]?).all c.isLate
  | .streamEvent type stream input =>
    match c.resources.handlers type (.stream stream) with
    | some .handleConnectionFailed | some .handleDisconnected | some .handleOutputError => false
    | some .handleHello => c.resources.server.isNone && isKnownProtocol (readHello input).1
    | _ => true
  | .connectTimeout timer => timer ∉ c.resources.timers
  | .keepAliveTimeout timer => timer ∉ c.resources.keepAliveTimers
  | .disconnect _ | .refuseConnection _ => c.resources.stream.isNone
  | .suspend => c.suspended || c.resources.stream.isNone
  | _ => true

/-- The handler of a secure connection is not removed with its stream, so none may be deleted. -/
def orderly (c : ClientLife) (move : ClientMove) : Bool :=
  c.inTurn move && (!c.useSecureNetwork || c.keepsStream move)

def Orderly (c : ClientLife) (move : ClientMove) (_ : ClientLife) : Prop := c.orderly move = true

instance (c : ClientLife) (move : ClientMove) (t : ClientLife) : Decidable (Orderly c move t) :=
  inferInstanceAs (Decidable (_ = true))

/-- The condition decides whether all is well after the move. -/
private def Decides (condition : Bool) (t : ClientLife) : Prop :=
  (condition = true → Kept t) ∧ (condition = false → ¬ t.OneAttempt)

private theorem Decides.good {condition : Bool} (hcondition : condition = true) (h : Kept t) : Decides condition t :=
  ⟨fun _ => h, fun hnot => (by cases hnot.symm.trans hcondition)⟩

private theorem Decides.bad {condition : Bool} (hcondition : condition = false) (h : ¬ t.OneAttempt) :
    Decides condition t :=
  ⟨fun hnot => (by cases hnot.symm.trans hcondition), fun _ => h⟩

private theorem orderly_plain {move : ClientMove} (hplain : c.useSecureNetwork = false) :
    c.orderly move = c.inTurn move := by
  rw [orderly, hplain, Bool.not_false, Bool.true_or, Bool.and_true]

private theorem orderly_secure {move : ClientMove} (hsecure : c.useSecureNetwork = true) :
    c.orderly move = (c.inTurn move && c.keepsStream move) := by
  rw [orderly, hsecure, Bool.not_true, Bool.false_or]

private theorem orderly_kept {move : ClientMove} (hkeeps : c.keepsStream move = true) :
    c.orderly move = c.inTurn move := by
  rw [orderly, hkeeps, Bool.or_true, Bool.and_true]

private theorem not_orderly {move : ClientMove} (hsecure : c.useSecureNetwork = true)
    (hkeeps : c.keepsStream move = false) : c.orderly move = false := by
  rw [orderly_secure hsecure, hkeeps, Bool.and_false]

/-- Either nothing is left behind, or a secure stream is deleted. -/
private theorem Kept.cleanup_cases (h : Kept c) :
    ((c.useSecureNetwork = false ∨ c.resources.stream = none) ∧
      At c.cleanup.resources none none none none fun _ => none) ∨
      c.useSecureNetwork = true ∧ c.resources.stream.isNone = false ∧ Leaves c.cleanup.resources := by
  rcases Bool.eq_false_or_eq_true c.useSecureNetwork with hsecure | hplain
  · rcases Option.eq_none_or_eq_some c.resources.stream with hstream | ⟨n, hstream⟩
    · exact .inl ⟨.inr hstream, (h.stage.at_idle hstream).cleanup_idle⟩
    · have hstage : Stage true c.resources := hsecure ▸ h.stage
      refine .inr ⟨hsecure, by rw [hstream]; rfl, ?_⟩
      exact (hstage.secureStream hstream).cleanupTimer.cleanupScreen.cleanupConnecting.cleanupConnection
  · exact .inl ⟨.inl hplain, Stage.cleanup (hplain ▸ h.stage)⟩

/-- Everything is cleaned up, and the lookups are not waited for any more. -/
private theorem Kept.cleanup (h : Kept c) (hat : At c.cleanup.resources none none none none fun _ => none) (ends : Nat)
    (suspended connectOnResume : Bool) (hends : 0 < c.begun → ends = 1) :
    Kept { c.cleanup with ends := ends, suspended := suspended, connectOnResume := connectOnResume } := by
  refine h.ended ⟨rfl, rfl, rfl, rfl, rfl, rfl, rfl, rfl, rfl⟩ hat ?_ (Nat.le_succ _) hends
  refine lookingUp_eq_false.mpr fun l hl => ?_
  exact Nat.ne_of_lt (Nat.lt_succ_of_le (h.lookups l hl).1)

private theorem cleanup_pending (h : Kept c) (hat : At c.cleanup.resources none none none none fun _ => none) :
    c.cleanup.pending = false := by
  have hlook : c.cleanup.lookingUp = false :=
    lookingUp_eq_false.mpr fun l hl => Nat.ne_of_lt (Nat.lt_succ_of_le (h.lookups l hl).1)
  rw [pending, hat.stream, hlook]
  rfl

private theorem Kept.disconnect (h : Kept c) (hat : At c.cleanup.resources none none none none fun _ => none)
    (suspended connectOnResume : Bool) : Decides (c.pending || c.begun = 0)
      { c.disconnect with suspended := suspended, connectOnResume := connectOnResume } := by
  constructor
  · intro hok
    refine h.cleanup hat _ suspended connectOnResume fun hbegun => ?_
    have hpending : c.pending = true := by simpa [hbegun.ne'] using hok
    exact congrArg (· + 1) (h.ends_zero hpending hbegun)
  · intro hbad hone
    obtain ⟨hpending, hbegun⟩ := Bool.or_eq_false_iff.mp hbad
    have hbegun : 0 < c.begun := Nat.pos_of_ne_zero (by simpa using hbegun)
    have hends : c.ends + 1 = if c.cleanup.pending then 0 else 1 := hone.ends.2 hbegun
    rw [cleanup_pending h hat, h.ends_one hpending hbegun] at hends
    cases hends

/-- A call that ends an attempt with an event. -/
private theorem Kept.tearDown (h : Kept c) {move : ClientMove} (hturn : c.inTurn move = (c.pending || c.begun = 0))
    (hkeeps : c.keepsStream move = c.resources.stream.isNone) (suspended connectOnResume : Bool) :
    Decides (c.orderly move) { c.disconnect with suspended := suspended, connectOnResume := connectOnResume } := by
  rcases h.cleanup_cases with ⟨hplain | hstream, hat⟩ | ⟨hsecure, hstream, hleaves⟩
  · rw [orderly_plain hplain, hturn]
    exact h.disconnect hat suspended connectOnResume
  · rw [orderly_kept (by rw [hkeeps, hstream]; rfl), hturn]
    exact h.disconnect hat suspended connectOnResume
  · exact .bad (not_orderly hsecure (hkeeps.trans hstream)) (not_oneAttempt hleaves)

private theorem Kept.refuseConnection (h : Kept c) (hasMessage : Bool) :
    Decides (c.orderly (.refuseConnection hasMessage)) (c.refuseConnection hasMessage) := by
  cases hasMessage with
  | true => exact h.tearDown rfl rfl c.suspended false
  | false =>
    have hquiet : ∀ hat : At c.cleanup.resources none none none none fun _ => none,
        Decides (!c.pending) (c.refuseConnection false) := by
      intro hat
      constructor
      · intro hpending
        refine h.cleanup hat c.ends c.suspended false fun hbegun => h.ends_one ?_ hbegun
        simpa using hpending
      · intro hpending hone
        have hpending : c.pending = true := by simpa using hpending
        have hbegun := h.began hpending
        have hends : c.ends = if c.cleanup.pending then 0 else 1 := hone.ends.2 hbegun
        rw [cleanup_pending h hat, h.ends_zero hpending hbegun] at hends
        cases hends
    rcases h.cleanup_cases with ⟨hplain | hstream, hat⟩ | ⟨hsecure, hstream, hleaves⟩
    · exact orderly_plain hplain ▸ hquiet hat
    · have hkeeps : c.keepsStream (.refuseConnection false) = true := by rw [keepsStream, hstream]; rfl
      exact orderly_kept hkeeps ▸ hquiet hat
    · exact .bad (not_orderly hsecure hstream) (not_oneAttempt hleaves)

private theorem Kept.suspend (h : Kept c) : Decides (c.orderly .suspend) c.handleSuspend := by
  rcases Bool.eq_false_or_eq_true c.suspended with hsuspended | hawake
  · have hstays : c.handleSuspend = c := if_pos hsuspended
    refine .good ?_ (hstays.symm ▸ h)
    simp [orderly, inTurn, keepsStream, hsuspended]
  · have hgoes : c.handleSuspend =
        { c.disconnect with suspended := true, connectOnResume := c.resources.server.isSome } :=
      if_neg (by rw [hawake]; exact Bool.false_ne_true)
    rw [hgoes]
    refine h.tearDown ?_ ?_ true c.resources.server.isSome
    · rw [inTurn, hawake, Bool.false_or]
    · rw [keepsStream, hawake, Bool.false_or]

private theorem dispatch_eq {type : EventTypes} {target : Target} {input : IStream} {handler : Option Handler}
    (h : c.resources.handlers type target = handler) :
    c.dispatch type target input = (handler.map (c.handle input)).getD c := by
  rw [dispatch, h]
  cases handler <;> rfl

/-! A hello -/

private theorem cleanupTimer_asserts (r : Resources) : r.cleanupTimer.assertsHold = r.assertsHold := by
  rw [cleanupTimer]
  split <;> rfl

/-- A second proxy. -/
private theorem setupScreen_asserts {r : Resources} (hserver : r.server.isNone = false) :
    r.setupScreen.assertsHold = false := by
  have hfailed : (r.assertsHold && r.server.isNone) = false := by rw [hserver, Bool.and_false]
  rw [setupScreen]
  simp only [assert, hfailed]
  split
  · rfl
  · simp only [resetKeepAliveAlarm, stopKeepAliveAlarm, if_true, addHandler, removeHandler]
    split <;> rfl

/-- What is not a whole hello of a known protocol, or comes again, and is not the end either. -/
private theorem handleHello_bad (input : IStream) (hknown : isKnownProtocol (readHello input).1 = true)
    (hbad : (readHello input).2 = false ∨ c.resources.server.isNone = false) : ¬ (c.handleHello input).OneAttempt := by
  revert hknown hbad
  unfold ClientLife.handleHello
  generalize readHello input = r
  obtain ⟨protocolName, isWhole⟩ := r
  intro hknown hbad hone
  simp only [hknown, Bool.not_true, Bool.false_eq_true, if_false] at hone
  rcases hbad with hcut | hserver
  · have hmisread : (c.misread || !isWhole) = false := hone.hello
    simp only at hcut
    rw [hcut, Bool.not_false, Bool.or_true] at hmisread
    cases hmisread
  · have hasserts : c.resources.setupScreen.cleanupTimer.assertsHold = true := hone.asserts
    rw [cleanupTimer_asserts, setupScreen_asserts hserver] at hasserts
    cases hasserts

private theorem handleHello_unknown (input : IStream) (hknown : isKnownProtocol (readHello input).1 = false) :
    c.handleHello input = { c.sendEnd with resources := c.resources.cleanupTimer.cleanupConnection } := by
  revert hknown
  unfold ClientLife.handleHello
  generalize readHello input = r
  obtain ⟨protocolName, isWhole⟩ := r
  intro hknown
  simp only [hknown, Bool.not_false, if_true]

private theorem Kept.handleHello_whole (h : Kept c) {n m : Nat}
    (hat : At c.resources (some n) (some m) none none (connectionHandlers c.useSecureNetwork .handleHello))
    (input : IStream) (hknown : isKnownProtocol (readHello input).1 = true) (hwhole : (readHello input).2 = true) :
    Kept (c.handleHello input) := by
  revert hknown hwhole
  unfold ClientLife.handleHello
  generalize readHello input = r
  obtain ⟨protocolName, isWhole⟩ := r
  intro hknown hwhole
  simp only [hknown, Bool.not_true, Bool.false_eq_true, if_false]
  obtain ⟨q, k, hjoined⟩ := hat.joinedScreen
  have hmisread : (c.misread || !isWhole) = c.misread := by
    rw [show isWhole = true from hwhole, Bool.not_true, Bool.or_false]
  refine h.continued ⟨rfl, rfl, rfl, rfl, rfl, rfl, rfl, rfl, hmisread⟩ (.joined n q k _ (.inl rfl) hjoined) ?_ ?_
    rfl rfl rfl
  · exact hjoined.stream.trans hat.stream.symm
  · rw [hat.stream]
    exact Option.some_ne_none n

/-! Events for a stream -/

private theorem SameHistory.tornDown {r : Resources} {ready : Bool} {ends : Nat} :
    SameHistory c { c with resources := r, ready := ready, ends := ends } :=
  ⟨rfl, rfl, rfl, rfl, rfl, rfl, rfl, rfl, rfl⟩

private theorem stream_eq {st tm sv ka : Option Nat} {reg : EventTypes → Option Handler} {n k : Nat}
    (hat : At c.resources st tm sv ka reg) (hst : st = some k) (hmem : n ∈ c.resources.streams) : k = n := by
  rw [hat.streams, hst] at hmem
  exact Option.some.inj (Option.mem_toFinset.mp hmem)

private theorem handler_eq {tm sv ka : Option Nat} {reg : EventTypes → Option Handler} {n : Nat}
    (hat : At c.resources (some n) tm sv ka reg) (type : EventTypes) :
    c.resources.handlers type (.stream n) = reg type := by
  rw [hat.streamHandlers, if_pos rfl]

private theorem Kept.plainEvent (h : Kept c) (hplain : c.useSecureNetwork = false) (type : EventTypes) (n : Nat)
    (input : IStream) (hmem : n ∈ c.resources.streams) :
    Decides (c.orderly (.streamEvent type n input)) (c.dispatch type (.stream n) input) := by
  have hstage : Stage false c.resources := hplain ▸ h.stage
  rw [orderly_plain hplain]
  cases hstage with
  | idle hat =>
    rw [hat.streams] at hmem
    cases hmem
  | connecting n' m hat =>
    obtain rfl := stream_eq hat rfl hmem
    rw [dispatch_eq (handler_eq hat type), inTurn, handler_eq hat]
    cases type with
    | dataSocketConnected =>
      have hwaiting : At _ _ _ _ _ (connectionHandlers c.useSecureNetwork .handleHello) :=
        hplain ▸ hat.connected (.inl rfl)
      refine .good rfl ?_
      refine h.continued .tornDown (.waiting n' m hwaiting) (hwaiting.stream.trans hat.stream.symm) ?_ rfl rfl rfl
      rw [hat.stream]
      exact Option.some_ne_none n'
    | dataSocketConnectionFailed =>
      refine .good rfl (h.streamEnded .tornDown hat.stream (hat.connectFailed fun type h1 h2 => ?_) rfl rfl)
      cases type <;> simp_all [connectingHandlers]
    | _ => exact .good rfl h
  | waiting n' m hat =>
    obtain rfl := stream_eq hat rfl hmem
    have hended : Kept c.handleDisconnected :=
      h.streamEnded .tornDown hat.stream (hat.disconnected fun _ => rfl) rfl rfl
    rw [dispatch_eq (handler_eq hat type), inTurn, handler_eq hat]
    cases type with
    | streamInputReady =>
      simp only [connectionHandlers, ne_eq, not_true, decide_false, Bool.false_or]
      cases hknown : isKnownProtocol (readHello input).1 with
      | false =>
        have hclean : At c.resources.cleanupTimer.cleanupConnection none none none none (fun _ => none) := by
          refine hat.cleanupTimer.cleanupConnection ?_ ?_ ?_ ?_ ?_ ?_ <;> simp [connectionHandlers]
        refine .good (by simp) ?_
        rw [Option.map_some, Option.getD_some, handle, handleHello_unknown input hknown]
        exact h.streamEnded .tornDown hat.stream hclean rfl rfl
      | true =>
        cases hwhole : (readHello input).2 with
        | true => exact .good rfl (h.handleHello_whole (hplain ▸ hat) input hknown hwhole)
        | false => exact .bad rfl (handleHello_bad input hknown (.inl hwhole))
    | socketDisconnected => exact .good rfl hended
    | streamInputShutdown => exact .good rfl hended
    | streamOutputShutdown => exact .good rfl hended
    | streamOutputError => exact .good rfl hended
    | _ => exact .good rfl h
  | joined n' q k handler hinput hat =>
    obtain rfl := stream_eq hat rfl hmem
    obtain rfl : handler = .handleData := hinput.resolve_right (by simp)
    have hended : Kept c.handleDisconnected := h.streamEnded .tornDown hat.stream (hat.disconnected (by simp)) rfl rfl
    rw [dispatch_eq (handler_eq hat type), inTurn, handler_eq hat]
    cases type with
    | socketDisconnected => exact .good rfl hended
    | streamInputShutdown => exact .good rfl hended
    | streamOutputShutdown => exact .good rfl hended
    | streamOutputError => exact .good rfl hended
    | _ => exact .good rfl h

private theorem Kept.secureEvent (h : Kept c) (hsecure : c.useSecureNetwork = true) (type : EventTypes) (n : Nat)
    (input : IStream) (hmem : n ∈ c.resources.streams) :
    Decides (c.orderly (.streamEvent type n input)) (c.dispatch type (.stream n) input) := by
  have hstage : Stage true c.resources := hsecure ▸ h.stage
  have hsecured : c.resources.stream = some n → SecureStream c.resources n := hstage.secureStream
  rw [orderly_secure hsecure]
  cases hstage with
  | idle hat =>
    rw [hat.streams] at hmem
    cases hmem
  | connecting n' m hat =>
    obtain rfl := stream_eq hat rfl hmem
    rw [dispatch_eq (handler_eq hat type), inTurn, keepsStream, handler_eq hat]
    cases type with
    | dataSocketSecureConnected =>
      have hwaiting : At _ _ _ _ _ (connectionHandlers c.useSecureNetwork .handleHello) :=
        hsecure ▸ hat.connected (.inl rfl)
      refine .good rfl ?_
      refine h.continued .tornDown (.waiting n' m hwaiting) (hwaiting.stream.trans hat.stream.symm) ?_ rfl rfl rfl
      rw [hat.stream]
      exact Option.some_ne_none n'
    | dataSocketConnectionFailed =>
      exact .bad rfl (not_oneAttempt (hsecured hat.stream).cleanupTimer.cleanupConnecting.cleanupStream)
    | _ => exact .good rfl h
  | waiting n' m hat =>
    obtain rfl := stream_eq hat rfl hmem
    have hended : ¬ c.handleDisconnected.OneAttempt :=
      not_oneAttempt (hsecured hat.stream).cleanupTimer.cleanupScreen.cleanupConnection
    have hserver : c.resources.server.isNone = true := by rw [hat.server]; rfl
    rw [dispatch_eq (handler_eq hat type), inTurn, keepsStream, handler_eq hat]
    cases type with
    | dataSocketSecureConnected =>
      have hwaiting : At _ _ _ _ _ (connectionHandlers c.useSecureNetwork .handleHello) :=
        hsecure ▸ hat.connected (.inr ⟨_, rfl⟩)
      refine .good rfl ?_
      refine h.continued .tornDown (.waiting n' m hwaiting) (hwaiting.stream.trans hat.stream.symm) ?_ rfl rfl rfl
      rw [hat.stream]
      exact Option.some_ne_none n'
    | streamInputReady =>
      simp only [connectionHandlers, ne_eq, not_true, decide_false, Bool.false_or, hserver, Bool.true_and]
      cases hknown : isKnownProtocol (readHello input).1 with
      | false =>
        refine .bad (Bool.and_false _) ?_
        rw [Option.map_some, Option.getD_some, handle, handleHello_unknown input hknown]
        exact not_oneAttempt (hsecured hat.stream).cleanupTimer.cleanupConnection
      | true =>
        cases hwhole : (readHello input).2 with
        | true => exact .good rfl (h.handleHello_whole (hsecure ▸ hat) input hknown hwhole)
        | false => exact .bad rfl (handleHello_bad input hknown (.inl hwhole))
    | socketDisconnected => exact .bad rfl hended
    | streamInputShutdown => exact .bad rfl hended
    | streamOutputShutdown => exact .bad rfl hended
    | streamOutputError => exact .bad rfl hended
    | _ => exact .good rfl h
  | joined n' q k handler hinput hat =>
    obtain rfl := stream_eq hat rfl hmem
    have hended : ¬ c.handleDisconnected.OneAttempt :=
      not_oneAttempt (hsecured hat.stream).cleanupTimer.cleanupScreen.cleanupConnection
    have hserver : c.resources.server.isNone = false := by rw [hat.server]; rfl
    rw [dispatch_eq (handler_eq hat type), inTurn, keepsStream, handler_eq hat]
    cases type with
    | dataSocketSecureConnected =>
      have hrejoined : At _ _ _ _ _ (connectionHandlers c.useSecureNetwork .handleHello) :=
        hsecure ▸ hat.connected (.inr ⟨_, rfl⟩)
      refine .good rfl ?_
      refine h.continued .tornDown (.joined n' q k _ (.inr ⟨hsecure, rfl⟩) hrejoined)
        (hrejoined.stream.trans hat.stream.symm) ?_ rfl rfl rfl
      rw [hat.stream]
      exact Option.some_ne_none n'
    | streamInputReady =>
      rcases hinput with rfl | ⟨-, rfl⟩
      · exact .good rfl h
      · simp only [connectionHandlers, hserver, Bool.false_and, Bool.and_false]
        refine .bad rfl ?_
        cases hknown : isKnownProtocol (readHello input).1 with
        | false =>
          rw [Option.map_some, Option.getD_some, handle, handleHello_unknown input hknown]
          exact not_oneAttempt (hsecured hat.stream).cleanupTimer.cleanupConnection
        | true => exact handleHello_bad input hknown (.inr hserver)
    | socketDisconnected => exact .bad rfl hended
    | streamInputShutdown => exact .bad rfl hended
    | streamOutputShutdown => exact .bad rfl hended
    | streamOutputError => exact .bad rfl hended
    | _ => exact .good rfl h

/-! Timers -/

private theorem Kept.connectTimeout (h : Kept c) (n : Nat) (hmem : n ∈ c.resources.timers) :
    Decides (c.orderly (.connectTimeout n)) (c.dispatch .timer (.connectTimer n) []) := by
  obtain ⟨st, tm, sv, ka, reg, hat⟩ := h.stage.at
  have htimer : c.resources.timer = some n := hat.timer.trans (Option.mem_toFinset.mp (hat.timers ▸ hmem))
  have hhandler : c.resources.handlers .timer (.connectTimer n) = some .handleConnectTimeout := by
    rw [hat.timerHandlers]
    exact if_pos ⟨hat.timer.symm.trans htimer, rfl⟩
  have hstream : ∃ k, c.resources.stream = some k := by
    cases h.stage with
    | idle hat => cases hat.timer.symm.trans htimer
    | connecting k _ hat => exact ⟨k, hat.stream⟩
    | waiting k _ hat => exact ⟨k, hat.stream⟩
    | joined k _ _ _ _ hat => exact ⟨k, hat.stream⟩
  obtain ⟨k, hstream⟩ := hstream
  rw [dispatch_eq hhandler]
  rcases Bool.eq_false_or_eq_true c.useSecureNetwork with hsecure | hplain
  · have hstage : Stage true c.resources := hsecure ▸ h.stage
    refine .bad (not_orderly hsecure (by simp [keepsStream, hmem])) (not_oneAttempt ?_)
    exact (hstage.secureStream hstream).cleanupTimer.cleanupConnecting.cleanupConnection.cleanupStream
  · have hstage : Stage false c.resources := hplain ▸ h.stage
    refine .good (by rw [orderly_plain hplain]; rfl) ?_
    exact h.streamEnded .tornDown hstream (hstage.timedOut htimer) rfl rfl

private theorem Kept.keepAliveTimeout (h : Kept c) (n : Nat) (hmem : n ∈ c.resources.keepAliveTimers) :
    Decides (c.orderly (.keepAliveTimeout n)) (c.dispatch .timer (.keepAliveTimer n) []) := by
  obtain ⟨st, tm, sv, ka, reg, hat⟩ := h.stage.at
  have hka : c.resources.keepAliveTimer = some n :=
    hat.keepAliveTimer.trans (Option.mem_toFinset.mp (hat.keepAliveTimers ▸ hmem))
  have hhandler : c.resources.handlers .timer (.keepAliveTimer n) = some .handleKeepAliveAlarm := by
    rw [hat.keepAliveHandlers]
    exact if_pos ⟨hat.keepAliveTimer.symm.trans hka, rfl⟩
  have hstream : ∃ k, c.resources.stream = some k := by
    cases h.stage with
    | idle hat => cases hat.keepAliveTimer.symm.trans hka
    | connecting _ _ hat => cases hat.keepAliveTimer.symm.trans hka
    | waiting _ _ hat => cases hat.keepAliveTimer.symm.trans hka
    | joined k _ _ _ _ hat => exact ⟨k, hat.stream⟩
  obtain ⟨k, hstream⟩ := hstream
  have hpending : c.pending = true := Kept.pending_of_stream hstream
  rw [dispatch_eq hhandler]
  rcases h.cleanup_cases with ⟨hplain | hnone, hat⟩ | ⟨hsecure, -, hleaves⟩
  · refine .good (by rw [orderly_plain hplain]; rfl) ?_
    exact (h.disconnect hat c.suspended false).1 (by rw [hpending, Bool.true_or])
  · cases hnone.symm.trans hstream
  · exact .bad (not_orderly hsecure (by simp [keepsStream, hmem])) (not_oneAttempt hleaves)

private theorem Kept.resetKeepAliveAlarm (h : Kept c) (hserver : c.resources.server.isSome = true) :
    Kept { c with resources := c.resources.resetKeepAliveAlarm true } := by
  have hnone : c.resources.server ≠ none := Option.isSome_iff_ne_none.mp hserver
  cases h.stage with
  | idle hat => exact absurd hat.server hnone
  | connecting n m hat => exact absurd hat.server hnone
  | waiting n m hat => exact absurd hat.server hnone
  | joined n q k input hinput hat =>
    obtain ⟨k', hreset⟩ := hat.startKeepAliveAlarm
    refine h.continued .tornDown (.joined n q k' input hinput hreset) ?_ ?_ rfl rfl rfl
    · exact hreset.stream.trans hat.stream.symm
    · rw [hat.stream]
      exact Option.some_ne_none n

/-! Calls and answers that begin an attempt -/

/-- The host that an attempt uses the addresses of is its own. -/
private theorem Beginning.decides (h : Beginning c) (hown : c.resolvedIps ≠ [] → c.resolvedFor = c.target) (dial : Dial)
    {condition : Bool} (hcondition : condition = (!c.useSecureNetwork || dial ≠ .notConnecting)) :
    Decides condition (c.continueConnect dial) := by
  constructor
  · intro hok
    refine h.continueConnect hown fun hsecure => ?_
    rw [hcondition, hsecure, Bool.not_true, Bool.false_or] at hok
    exact of_decide_eq_true hok
  · intro hbad
    rw [hcondition] at hbad
    obtain ⟨hsecure, hdial⟩ := Bool.or_eq_false_iff.mp hbad
    obtain rfl : dial = .notConnecting := by simpa using hdial
    exact not_oneAttempt (h.leaves (by simpa using hsecure))

private theorem Kept.connect (h : Kept c) (addressIndex : Nat) (dial : Dial) :
    Decides (c.orderly (.connect addressIndex dial)) (c.connect addressIndex dial) := by
  rcases Option.eq_none_or_eq_some c.resources.stream with hstream | ⟨n, hstream⟩
  swap
  · have hsome : c.resources.stream.isSome = true := by rw [hstream]; rfl
    have hstays : c.connect addressIndex dial = c := if_pos hsome
    exact .good (by simp [orderly, inTurn, keepsStream, hsome]) (hstays.symm ▸ h)
  have hnone : c.resources.stream.isSome = false := by rw [hstream]; rfl
  rcases Bool.eq_false_or_eq_true c.suspended with hsuspended | hawake
  · have hwaits : c.connect addressIndex dial = { c with connectOnResume := true } :=
      (if_neg (by rw [hnone]; exact Bool.false_ne_true)).trans (if_pos hsuspended)
    refine .good (by simp [orderly, inTurn, keepsStream, hsuspended]) ?_
    rw [hwaits]
    exact h.marked c.hostname c.ready true
  have horderly : c.orderly (.connect addressIndex dial) =
      ((!c.lookingUp && (!c.hostname.isEmpty || c.resolvedIps.isEmpty)) &&
        (!c.useSecureNetwork || (dial ≠ .notConnecting || !c.hostname.isEmpty))) := by
    simp [orderly, inTurn, keepsStream, hnone, hawake]
  rw [connect_eq hstream hawake, horderly]
  rcases Bool.eq_false_or_eq_true c.lookingUp with hlook | hlook
  · -- the attempt that waits for its lookup is dropped
    refine .bad (by rw [hlook]; rfl) fun hone => ?_
    have hpending : c.pending = true := by rw [pending, hlook, Bool.or_true]
    have hbegun := h.began hpending
    have hsettled : c.toBegin.settled = true := by
      have hsettled := hone.ends.1
      split at hsettled
      · rwa [continueConnect_settled] at hsettled
      · exact hsettled
    simp [toBegin, hbegun.ne', h.ends_zero hpending hbegun] at hsettled
  have hbeginning := h.begin hstream hawake hlook
  rcases Bool.eq_false_or_eq_true c.hostname.isEmpty with hempty | hnamed
  · have htarget : c.toBegin.target = [] := List.isEmpty_iff.mp hempty
    rw [if_pos hempty, hlook, hempty, Bool.not_false, Bool.true_and, Bool.not_true, Bool.false_or, Bool.or_false]
    rcases Bool.eq_false_or_eq_true c.resolvedIps.isEmpty with hips | hips
    · have hnone : c.resolvedIps = [] := List.isEmpty_iff.mp hips
      refine hbeginning.decides (fun hnot => absurd hnone hnot) dial ?_
      rw [hips, Bool.true_and]
      rfl
    · refine .bad (by rw [hips, Bool.false_and]) fun hone => ?_
      have hborrowed := hone.addresses
      have hsome : c.toBegin.resolvedIps ≠ [] := fun hnot => (by
        have hnot : c.resolvedIps = [] := hnot
        rw [hnot] at hips
        cases hips)
      have hfor : c.toBegin.resolvedFor ≠ [] := h.resolved hsome
      rw [continueConnect_borrowed, htarget] at hborrowed
      simp [hsome, hfor] at hborrowed
  · have hne : c.hostname ≠ [] := fun hnot => (by rw [hnot] at hnamed; cases hnamed)
    rw [hnamed, if_neg Bool.false_ne_true]
    refine .good ?_ (hbeginning.lookUp rfl rfl hne)
    simp [hlook]

private theorem Kept.lookedUp (h : Kept c) {i : Nat} {answered : Lookup} (hanswered : c.lookups[i]? = some answered)
    (addresses : Option (List Str)) (dial : Dial) : Decides (c.orderly (.lookedUp i addresses dial))
      (ClientLife.lookedUp { c with lookups := c.lookups.eraseIdx i } answered addresses dial) := by
  have hmem : answered ∈ c.lookups := List.mem_of_getElem? hanswered
  have horderly : c.orderly (.lookedUp i addresses dial) =
      (!c.useSecureNetwork || (dial ≠ .notConnecting || addresses.all List.isEmpty || c.isLate answered)) := by
    simp [orderly, inTurn, keepsStream, hanswered]
  rw [horderly]
  unfold ClientLife.lookedUp
  split
  · rename_i hlate
    have hlate : c.isLate answered = true := hlate
    refine .good (by rw [hlate, Bool.or_true, Bool.or_true]) (h.unheard hanswered ?_)
    simp only [isLate, Bool.or_eq_true, decide_eq_true_eq] at hlate
    rcases hlate with (hne | hstream) | hsuspended
    · exact .inl hne
    · exact .inr (h.not_lookingUp (Option.isSome_iff_ne_none.mp hstream))
    · refine .inr (Bool.eq_false_iff.mpr fun hlook => ?_)
      cases (h.quiet hlook).2.symm.trans hsuspended
  · rename_i hheard
    have hlate : c.isLate answered = false := Bool.eq_false_iff.mpr hheard
    simp only [Bool.or_eq_true, decide_eq_true_eq, not_or, ne_eq, not_not] at hheard
    have hbeginning := h.answered hanswered hheard.1.1
    have hfails : Kept (ClientLife.sendEnd { c with lookups := c.lookups.eraseIdx i }) :=
      hbeginning.ended hbeginning.idle
    rw [hlate, Bool.or_false]
    cases addresses with
    | none => exact .good (by simp) hfails
    | some addresses =>
      cases addresses with
      | nil => exact .good (by simp) hfails
      | cons ip ips =>
        refine Beginning.decides ?_ (fun _ => (h.lookups answered hmem).2 hheard.1.1) dial (by simp)
        exact { hbeginning with resolved := fun _ => h.named answered hmem }

private theorem Kept.resume (h : Kept c) (dial : Dial) : Decides (c.orderly (.resume dial)) (c.handleResume dial) := by
  rw [handleResume]
  cases hsuspended : c.suspended with
  | false => exact .good (by simp [orderly, inTurn, keepsStream, hsuspended]) h
  | true =>
    have hstream := h.suspended hsuspended
    have hlook : c.lookingUp = false := by
      refine Bool.eq_false_iff.mpr fun hlook => ?_
      cases (h.quiet hlook).2.symm.trans hsuspended
    have hawake : ∀ connectOnResume, Kept { c with suspended := false, connectOnResume := connectOnResume } :=
      fun _ => ⟨h.stage, h.lookups, h.once, h.named, h.resolved, fun hnot => ⟨hstream, rfl⟩,
        fun _ => hstream, h.addresses, h.hello, h.settled, h.ends, h.began⟩
    cases hconnect : c.connectOnResume with
    | false => exact .good (by simp [orderly, inTurn, keepsStream, hconnect]) (hawake false)
    | true =>
      have horderly : orderly { c with suspended := false, connectOnResume := false } (.connect 0 dial) =
          c.orderly (.resume dial) := by
        have hlook : ClientLife.lookingUp { c with suspended := false, connectOnResume := false } = false := hlook
        simp [orderly, inTurn, keepsStream, hstream, hlook, hsuspended, hconnect]
      exact horderly ▸ (hawake false).connect 0 dial

private theorem Decides.always {move : ClientMove} (hturn : c.inTurn move = true) (hkeeps : c.keepsStream move = true)
    (h : Kept t) : Decides (c.orderly move) t :=
  .good (by rw [orderly, hturn, hkeeps, Bool.or_true, Bool.and_true]) h

private theorem kept_step (h : Kept c) (move : ClientMove) : Decides (c.orderly move) (step c move) := by
  cases move with
  | setServerAddress hostname => exact .always rfl rfl (h.marked hostname c.ready c.connectOnResume)
  | connect addressIndex dial => exact h.connect addressIndex dial
  | lookedUp lookup addresses dial =>
    rw [step]
    split
    · rename_i hnone
      exact .always rfl (by simp [keepsStream, hnone]) h
    · rename_i answered hanswered
      exact h.lookedUp hanswered addresses dial
  | streamEvent type n input =>
    rw [step]
    split
    · rename_i hmem
      rcases Bool.eq_false_or_eq_true c.useSecureNetwork with hsecure | hplain
      · exact h.secureEvent hsecure type n input hmem
      · exact h.plainEvent hplain type n input hmem
    · rename_i hmem
      obtain ⟨st, tm, sv, ka, reg, hat⟩ := h.stage.at
      have hnone : c.resources.handlers type (.stream n) = none := by
        rw [hat.streamHandlers, if_neg]
        rwa [hat.streams, Option.mem_toFinset] at hmem
      refine .always ?_ ?_ h
      · simp [inTurn, hnone]
      · simp [keepsStream, hnone]
  | connectTimeout timer =>
    rw [step]
    split
    · exact h.connectTimeout timer ‹_›
    · exact .always rfl (by simpa [keepsStream]) h
  | keepAliveTimeout timer =>
    rw [step]
    split
    · exact h.keepAliveTimeout timer ‹_›
    · exact .always rfl (by simpa [keepsStream]) h
  | resetKeepAliveAlarm =>
    rw [step]
    split
    · exact .always rfl rfl (h.resetKeepAliveAlarm ‹_›)
    · exact .always rfl rfl h
  | handshakeComplete =>
    rw [step]
    split
    · exact .always rfl rfl (h.marked c.hostname true c.connectOnResume)
    · exact .always rfl rfl h
  | disconnect hasMessage => exact h.tearDown rfl rfl c.suspended false
  | refuseConnection hasMessage => exact h.refuseConnection hasMessage
  | suspend => exact h.suspend
  | resume dial => exact h.resume dial

/-- Every attempt is one at a time, and has one end, exactly when the client is not told to begin
or to end one that there is not, and no secure stream is deleted. -/
theorem always_oneAttempt_iff (useSecureNetwork : Bool) (hostname : Str) (moves : List ClientMove) :
    Always OneAttempt (runTrace step (start useSecureNetwork hostname) moves) ↔
      EachStep Orderly (start useSecureNetwork hostname) (runTrace step (start useSecureNetwork hostname) moves) := by
  rw [← eachStep_state_iff OneAttempt (start useSecureNetwork hostname)]
  refine (Trace.eachStep_iff Kept ?_ ?_ (trace_runTrace step _ moves) (kept_start useSecureNetwork hostname)).symm
  · rintro c move t hc rfl
    refine ⟨fun hgood => ((kept_step hc move).1 hgood).oneAttempt, fun hone => ?_⟩
    by_contra hbad
    exact (kept_step hc move).2 (Bool.eq_false_iff.mpr hbad) hone
  · rintro c move t hc rfl hgood
    exact (kept_step hc move).1 hgood

/-- A secure stream is deleted when the connect timer runs out, its handler is not. -/
theorem secure_handler_outlives_stream : ¬ Always OneAttempt (runTrace step (start true "host".toList)
    [.connect 0 .connecting, .lookedUp 0 (some ["10.0.0.1".toList]) .connecting,
      .streamEvent .dataSocketSecureConnected 0 [], .connectTimeout 1]) := by
  intro h
  simp only [runTrace, always_cons] at h
  obtain ⟨-, -, -, hone, -⟩ := h
  have hgone := (hone.handlers .dataSocketSecureConnected).1 0 (by decide)
  exact absurd hgone (by decide)

end ClientLife
end Synergy
