import Synergy.Net.HandshakeSteps

/-! How a call of a handshake ends: it is to go on, it has failed, or it has come to its end
and the peer has been checked. -/
namespace Synergy
open DataSocket SecureSocket
variable {server : Bool} {s t u v : DataSocket} {entries : List SocketEntry}

/-- A socket in a handshake: what its job says of it, and that it is not done for. -/
structure Shaking (server : Bool) (s : DataSocket) : Prop where
  guarded : Guarded server s
  unready : s.secureReady = false
  unrefused : ¬ Refused s.log
  up : server = false → s.connected = true ∧ pending s = 0

namespace Shaking

theorem of_connect (h : Guarded server s) (hruns : runs .serviceConnect s) :
    Shaking server s ∧ (server = true → s.securityLevel ≠ .peerAuth) := by
  obtain ⟨job, hjob, hservice⟩ := hruns
  have hside := h.job job hjob
  rw [hservice] at hside
  refine ⟨⟨h, hside.1, fun hrefused => ?_, ?_⟩, ?_⟩
  · rw [(h.refused hrefused).2.1.1] at hjob
    cases hjob
  · rintro rfl
    exact hside.2
  · rintro rfl
    exact hside.2

theorem of_accept (h : Guarded server s) (hruns : runs .serviceAccept s) : Shaking server s ∧ server = true := by
  obtain ⟨job, hjob, hservice⟩ := hruns
  have hside := h.job job hjob
  rw [hservice] at hside
  refine ⟨⟨h, hside.1, fun hrefused => ?_, fun hs => ?_⟩, hside.2⟩
  · rw [(h.refused hrefused).2.1.1] at hjob
    cases hjob
  · exact Bool.noConfusion (hside.2.symm.trans hs)

theorem unfinished (h : Shaking server s) : ¬ Finished server s := by
  rintro (hrefused | ⟨hs, -, hdown⟩)
  · exact h.unrefused hrefused
  · exact Bool.noConfusion (hdown.symm.trans (h.up hs).1)

/-- The handshake goes on within a frame. -/
theorem step (h : Shaking server s) (f : Frame SocketEntry.Idle s t)
    (hinput : (t.inputBuffer, t.readPaused) = (s.inputBuffer, s.readPaused)) (hjob : t.job = s.job ∨ t.job = none) :
    Shaking server t := by
  simp only [Prod.mk.injEq] at hinput
  have hmembers := f.members
  simp only [Prod.mk.injEq] at hmembers
  obtain ⟨hempty, hpaused⟩ := h.guarded.unready h.unready
  refine ⟨?_, hmembers.2.2.2.2.1.trans h.unready, f.unverdict.refused_iff.not.mpr h.unrefused, fun hs => ?_⟩
  · refine h.guarded.frame f.unverdict (secured_of_frame h.guarded.secured f) ?_ ?_ ?_ fun j hj => ?_
    · exact fun _ => ⟨hinput.1.trans hempty, hinput.2.trans hpaused⟩
    · exact fun hsome => absurd (hinput.1.trans hempty) hsome
    · exact fun hdone => absurd hdone h.unfinished
    · rcases hjob with hjob | hjob
      · exact (f.jobOk_iff j.service).mpr (h.guarded.job j (hjob ▸ hj))
      · rw [hjob] at hj
        cases hj
  · rw [hmembers.2.2.1, f.pending]
    exact h.up hs

theorem accepts (h : Shaking true s) : Guarded true (startAccept s) := by
  have hframe : Frame SocketEntry.Idle s (startAccept s) := .of_eq rfl rfl rfl
  refine h.guarded.frame hframe.unverdict h.guarded.secured h.guarded.unready h.guarded.buffered
    (fun hdone => absurd hdone h.unfinished) fun j hj => ?_
  cases hj
  exact ⟨h.unready, rfl⟩

/-- The connection of the library is made, for the job of a handshake. -/
theorem createSSL (h : Shaking server s) (hjob : ∀ j, s.job = some j → JobOk server (createSSL s) j.service) :
    Shaking server (createSSL s) ∧ hasSsl (SecureSocket.createSSL s) = true := by
  obtain ⟨ssl, hssl⟩ := Option.isSome_iff_exists.mp h.guarded.context
  have hhas : hasSsl (SecureSocket.createSSL s) = true := by
    unfold hasSsl SecureSocket.createSSL
    rw [hssl]
    rfl
  refine ⟨⟨⟨?_, h.guarded.socket, h.guarded.secured, fun hready => ?_, h.guarded.unready, h.guarded.buffered,
    fun hrefused => absurd hrefused h.unrefused, hjob, h.guarded.accepted, fun hs => ?_⟩, h.unready, h.unrefused, h.up⟩,
    hhas⟩
  · unfold SecureSocket.createSSL
    rw [hssl]
    rfl
  · exact Bool.noConfusion (h.unready.symm.trans hready)
  · obtain ⟨hone, hdown, -⟩ := h.guarded.asked hs
    refine ⟨hone, hdown, fun _ => ⟨(h.up hs).2, fun hc => ?_⟩⟩
    exact Bool.noConfusion (hc.symm.trans (h.up hs).1)

end Shaking

/-- What the end of a handshake leaves as it was. -/
def session (s : DataSocket) : SecurityLevel × Bool × Bool × Option Ssl × Bool × List EventTypes × Bytes :=
  (s.securityLevel, s.socket, s.connected, s.ssl, s.watching, s.queue, s.inputBuffer)

/-- The handshake has come to its end and the checks have been passed. -/
theorem guarded_succeeded (h : Shaking server u) (hssl : hasSsl u = true) (hsession : session v = session u)
    (hready : v.secureReady = true) (hlog : v.log = u.log ++ entries) (hunused : ∀ e ∈ entries, e.uses = false)
    (hauth : Authenticated server u.securityLevel v.log) (hclean : ¬ Refused v.log) {event : EventTypes}
    (hevent : event ≠ .dataSocketConnected) :
    Guarded server (({ v with readable := true, writable := true }.sendEvent event).setJob
      (newJob ({ v with readable := true, writable := true }.sendEvent event))) := by
  unfold session at hsession
  simp only [Prod.mk.injEq] at hsession
  obtain ⟨hlevel, hsocket, hconnected, hcontext, hwatching, hqueue, hbuffer⟩ := hsession
  have hssl' : hasSsl v = true := by
    unfold hasSsl at hssl ⊢
    rwa [hcontext]
  have hsent : ∀ e ∈ [SocketEntry.sent event], e.verdict = false := by simp [SocketEntry.verdict]
  have hclean' : ¬ Refused (v.log ++ [.sent event]) := (refused_append hsent).not.mpr hclean
  have hpending : pending ({ v with readable := true, writable := true }.sendEvent event) = pending u := by
    rw [(serves_sendEvent _ hevent).frame.pending]
    exact congrArg (List.count _) hqueue
  refine ⟨hcontext ▸ h.guarded.context, hsocket.trans h.guarded.socket, ?_, fun _ => ⟨hssl', ?_⟩, fun hunready => ?_,
    fun _ => rfl, fun hrefused => absurd hrefused hclean', fun j hj => ?_,
    fun hs => hwatching.trans (h.guarded.accepted hs), fun hs => ?_⟩
  · change Secured server v.securityLevel (v.log ++ [.sent event])
    rw [hlevel, secured_concat]
    refine ⟨?_, fun _ => ⟨hauth, hclean⟩⟩
    rw [hlog]
    exact h.guarded.secured.append hunused
  · left
    change Authenticated server v.securityLevel (v.log ++ [.sent event])
    rw [hlevel]
    exact hauth.append _
  · exact Bool.noConfusion (hready.symm.trans hunready)
  · have haccept : ¬ MidAccept server ({ v with readable := true, writable := true }.sendEvent event) :=
      not_midAccept_of_ready hready
    refine jobOk_newJob haccept (fun hs _ => ⟨hpending.trans (h.up hs).2, fun hdown => ?_⟩) hj
    exact Bool.noConfusion (hdown.symm.trans (hconnected.trans (h.up hs).1))
  · have hnone := hpending.trans (h.up hs).2
    refine ⟨hnone.le.trans (Nat.zero_le 1), fun _ => hnone, fun _ => ⟨hnone, fun hdown => ?_⟩⟩
    exact Bool.noConfusion (hdown.symm.trans (hconnected.trans (h.up hs).1))

/-- The handshake has come to its end, and the peer is turned away. -/
theorem guarded_failed (h : Shaking server u) (hssl : hasSsl u = true) (hsession : session v = session u)
    (hready : v.secureReady = false → server = true ∧ v.securityLevel = .peerAuth ∧ v.readPaused = false)
    (hchecked : v.secureReady = true → Authenticated server u.securityLevel v.log ∨ Refused v.log)
    (hdown : v.readable = false ∧ v.writable = false) (hlog : v.log = u.log ++ entries)
    (hunused : ∀ e ∈ entries, e.uses = false) (f : Frame SocketEntry.Idle v t)
    (hinput : (t.readable, t.writable, t.inputBuffer, t.readPaused) =
      (v.readable, v.writable, v.inputBuffer, v.readPaused)) : Guarded server (t.setJob none) := by
  unfold session at hsession
  simp only [Prod.mk.injEq] at hsession hinput
  obtain ⟨hlevel, hsocket, hconnected, hcontext, hwatching, hqueue, hbuffer⟩ := hsession
  have hmembers := f.members
  simp only [Prod.mk.injEq] at hmembers
  have hempty : t.inputBuffer = [] := (hinput.2.2.1.trans hbuffer).trans (h.guarded.unready h.unready).1
  have hssl' : hasSsl t = true := by
    rw [f.hasSsl_eq]
    unfold hasSsl at hssl ⊢
    rwa [hcontext]
  have hstill : Still (t.setJob none) := ⟨rfl, hinput.1.trans hdown.1, hinput.2.1.trans hdown.2⟩
  have hsecured : Secured server v.securityLevel v.log := by
    rw [hlevel, hlog]
    exact h.guarded.secured.append hunused
  have hunscheduled : Frame SocketEntry.Idle v (t.setJob none) := f.trans (.of_eq rfl rfl rfl)
  refine ⟨?_, ?_, secured_of_frame hsecured hunscheduled, fun ht => ⟨hssl', ?_⟩, fun ht => ⟨hempty, ?_⟩,
    fun hsome => absurd hempty hsome, fun _ => ⟨hssl', hstill, fun ht => ?_⟩, (fun j hj => nomatch hj), fun hs => ?_,
    fun hs => ?_⟩
  · change t.ssl.isSome = true
    rw [hmembers.2.2.2.1, hcontext]
    exact h.guarded.context
  · exact (hmembers.2.1.trans hsocket).trans h.guarded.socket
  · obtain ⟨more, hmore, -⟩ := f.log
    change Authenticated server t.securityLevel t.log ∨ Refused t.log
    rw [hmembers.1, hlevel, f.unverdict.refused_iff, hmore]
    exact (hchecked (hmembers.2.2.2.2.1.symm.trans ht)).imp (fun hauth => hauth.append more) id
  · exact hinput.2.2.2.trans (hready (hmembers.2.2.2.2.1.symm.trans ht)).2.2
  · obtain ⟨hs, hpeer, -⟩ := hready (hmembers.2.2.2.2.1.symm.trans ht)
    exact ⟨hs, hmembers.1.trans hpeer⟩
  · exact (hmembers.2.2.2.2.2.trans hwatching).trans (h.guarded.accepted hs)
  · have hnone : pending t = 0 := by
      rw [f.pending]
      exact (congrArg (List.count _) hqueue).trans (h.up hs).2
    exact ⟨hnone.le.trans (Nat.zero_le 1), fun _ => hnone, fun _ => ⟨hnone, fun _ => hstill⟩⟩

/-- How a call to the library ends: the status, and what the service makes of the socket. -/
inductive Outcome (server : Bool) (level : SecurityLevel) (event : EventTypes) : Int × DataSocket → Prop
  | failed {t : DataSocket} (h : Guarded server (t.setJob none)) : Outcome server level event (-1, t)
  | retried {t : DataSocket} (h : Shaking server t) (hlevel : t.securityLevel = level) : Outcome server level event (0, t)
  | succeeded {t : DataSocket}
      (h : Guarded server (({ t with readable := true, writable := true }.sendEvent event).setJob
        (newJob ({ t with readable := true, writable := true }.sendEvent event)))) : Outcome server level event (1, t)

/-- A code that is neither fatal nor to be retried is that of a success. -/
theorem code_of_done {code : SslError} (hfatal : ¬ (checkResult code u).2.fatal = true)
    (hretry : ¬ (checkResult code u).1 = true) : code = .none ∧ (checkResult code u).2 = setFlags code u := by
  rw [checkResult_eq] at hfatal hretry ⊢
  split at hfatal
  next h => exact absurd h hfatal
  next h =>
    rw [if_neg h] at hretry ⊢
    refine ⟨?_, rfl⟩
    cases code <;> simp_all [SslError.isFatal, SslError.isRetry]

theorem Shaking.check (h : Shaking server u) (code : SslError) : Shaking server (checkResult code u).2 := by
  refine h.step (frame_checkResult code u) ?_ (.inl ?_)
  all_goals
    rw [checkResult_eq]
    split <;> rfl

theorem level_checkResult (code : SslError) (u : DataSocket) :
    (checkResult code u).2.securityLevel = u.securityLevel :=
  congrArg Prod.fst (frame_checkResult code u).members

/-- A retry, and a failure before the handshake has come to its end. -/
theorem Shaking.notReady (h : Shaking server u) : Shaking server { u with secureReady := false } := by
  have hready := h.unready
  refine h.step (.of_eq rfl rfl ?_) rfl (.inl rfl)
  rw [hready]

/-- The handshake is done and the fingerprint has been looked up. -/
theorem verified_members {code : SslError} (database : FingerprintDatabase) (handshake : Handshake) (ready : Bool)
    (hv : (verifyCertFingerprint database handshake { finished (setFlags code u) with secureReady := ready }).2 = v) :
    session v = session u ∧ v.secureReady = ready ∧ v.readPaused = u.readPaused ∧
      v.log = u.log ++ [.handshakeDone, .verified database (handshake.trusted database)] ∧
      (v.readable, v.writable) = ((setFlags code u).readable, (setFlags code u).writable) := by
  rw [← hv]
  exact ⟨rfl, rfl, rfl, List.append_assoc _ _ _, rfl⟩

theorem disconnect_input (s : DataSocket) :
    ((disconnect s).readable, (disconnect s).writable, (disconnect s).inputBuffer, (disconnect s).readPaused) =
      (s.readable, s.writable, s.inputBuffer, s.readPaused) := by
  simp only [disconnect, sendEvent, note]

theorem setFlags_down (hdown : u.readable = false ∧ u.writable = false) :
    ((setFlags .none u).readable, (setFlags .none u).writable) = (false, false) := by
  simp [setFlags, hdown]

/-- Only the answer that has just been given can be a refusal. -/
theorem not_refused_verified (h : ¬ Refused u.log) (database : FingerprintDatabase) :
    ¬ Refused (u.log ++ [.handshakeDone, .verified database true]) := by
  rintro ⟨database', hmem⟩
  rcases List.mem_append.mp hmem with hmem | hmem
  · exact h ⟨database', hmem⟩
  · simp at hmem

theorem outcome_secureConnect (h : Shaking server u) (hssl : hasSsl u = true) {s : DataSocket} (hmade : createSSL s = u)
    (hs : Shaking server s) (hside : server = true → u.securityLevel ≠ .peerAuth)
    (hdown : u.readable = false ∧ u.writable = false) (handshake : Handshake) :
    Outcome server u.securityLevel .dataSocketSecureConnected (secureConnect handshake s) := by
  have hauth : Authenticated server u.securityLevel (u.log ++ [.handshakeDone, .verified .trustedServers true]) :=
    ⟨by simp, fun _ => by simp, fun hs hlevel => absurd hlevel (hside hs)⟩
  unfold secureConnect
  rw [hmade]
  simp only
  split_ifs with hcertificate hfatal hretry htrusted
  · have hinput : ((disconnect s).inputBuffer, (disconnect s).readPaused) = (s.inputBuffer, s.readPaused) := by
      simp only [disconnect, sendEvent, note]
    have hjob : (disconnect s).job = s.job := by
      simp only [disconnect, sendEvent, note]
    exact .failed (hs.step (frame_disconnect s) hinput (.inl hjob)).guarded.unschedule
  · exact .failed (h.check handshake.code).guarded.unschedule
  · exact .retried (h.check handshake.code).notReady (level_checkResult _ _)
  · obtain ⟨hcode, hchecked⟩ := code_of_done hfatal hretry
    have htrusted : handshake.trusted .trustedServers = true := (Bool.and_eq_true_iff.mp htrusted).1
    rw [hchecked]
    generalize hv : (verifyCertFingerprint _ _ _).2 = v
    obtain ⟨hsession, hready, -, hlog, -⟩ := verified_members _ _ _ hv
    rw [htrusted] at hlog
    refine .succeeded (guarded_succeeded h hssl hsession hready hlog (by decide) ?_ ?_ (by decide))
    · rwa [hlog]
    · rw [hlog]
      exact not_refused_verified h.unrefused _
  · obtain ⟨hcode, hchecked⟩ := code_of_done hfatal hretry
    rw [hchecked]
    generalize hv : (verifyCertFingerprint _ _ _).2 = v
    obtain ⟨hsession, hready, -, hlog, hflags⟩ := verified_members _ _ _ hv
    rw [hcode, setFlags_down hdown, Prod.mk.injEq] at hflags
    refine .failed ?_
    refine guarded_failed h hssl hsession (fun hunready => ?_) (fun _ => ?_) hflags hlog ?_ (frame_disconnect v)
      (disconnect_input v)
    · exact Bool.noConfusion (hready.symm.trans hunready)
    · -- the peer is not trusted, or it is and its certificate cannot be shown
      rw [hlog]
      cases handshake.trusted .trustedServers with
      | true => exact .inl hauth
      | false => exact .inr ⟨.trustedServers, by simp⟩
    · simp [SocketEntry.uses]

theorem outcome_secureAccept (h : Shaking true u) (hssl : hasSsl u = true) {s : DataSocket} (hmade : createSSL s = u)
    (hdown : u.readable = false ∧ u.writable = false) (handshake : Handshake) :
    Outcome true u.securityLevel .clientListenerAccepted (secureAccept handshake s) := by
  unfold secureAccept
  rw [hmade]
  simp only
  split_ifs with hfatal hretry hlevel htrusted
  · exact .failed (h.check handshake.code).notReady.guarded.unschedule
  · exact .retried (h.check handshake.code).notReady (level_checkResult _ _)
  · obtain ⟨hcode, hchecked⟩ := code_of_done hfatal hretry
    have htrusted : handshake.trusted .trustedClients = true := htrusted
    rw [hchecked]
    generalize hv : (verifyCertFingerprint _ _ _).2 = v
    obtain ⟨hsession, -, -, hlog, -⟩ := verified_members _ _ u.secureReady hv
    rw [htrusted] at hlog
    have hsession' : session { v with secureReady := true } = session u := hsession
    refine .succeeded (guarded_succeeded h hssl hsession' rfl hlog (by decide) ?_ ?_ (by decide))
    · rw [hlog]
      exact ⟨by simp, fun hs => Bool.noConfusion hs, fun _ _ => by simp⟩
    · rw [hlog]
      exact not_refused_verified h.unrefused _
  · obtain ⟨hcode, hchecked⟩ := code_of_done hfatal hretry
    have htrusted : handshake.trusted .trustedClients = false := by simpa [verifyCertFingerprint] using htrusted
    have hlevel : u.securityLevel = .peerAuth := (level_checkResult handshake.code u).symm.trans hlevel
    rw [hchecked]
    generalize hv : (verifyCertFingerprint _ _ _).2 = v
    obtain ⟨hsession, hready, hpaused, hlog, hflags⟩ := verified_members _ _ u.secureReady hv
    rw [hcode, setFlags_down hdown, Prod.mk.injEq] at hflags
    refine .failed ?_
    refine guarded_failed h hssl hsession (fun _ => ⟨rfl, ?_, ?_⟩) (fun hready' => ?_) hflags hlog ?_
      (frame_disconnect v) (disconnect_input v)
    · exact (congrArg Prod.fst hsession).trans hlevel
    · exact hpaused.trans (h.guarded.unready h.unready).2
    · exact Bool.noConfusion ((hready.trans h.unready).symm.trans hready')
    · simp [SocketEntry.uses]
  · obtain ⟨hcode, hchecked⟩ := code_of_done hfatal hretry
    have hlevel : u.securityLevel ≠ .peerAuth := fun hu => hlevel ((level_checkResult handshake.code u).trans hu)
    rw [hchecked]
    have hsession : session { finished (setFlags handshake.code u) with secureReady := true } = session u := rfl
    have hdone : ∀ e ∈ [SocketEntry.handshakeDone], e.verdict = false := by decide
    refine .succeeded (guarded_succeeded h hssl hsession rfl rfl (by decide) ?_ ?_ (by decide))
    · exact ⟨List.mem_append_right _ List.mem_cons_self, fun hs => Bool.noConfusion hs, fun _ hu => absurd hu hlevel⟩
    · exact (refused_append hdone).not.mpr h.unrefused

/-- The job of the handshake is allowed with the connection of the library made, too. -/
theorem guarded_serviceConnect (h : Guarded server s) (handshake : Handshake) (hruns : runs .serviceConnect s) :
    Guarded server (serviceConnect handshake s) := by
  obtain ⟨hshaking, hside⟩ := Shaking.of_connect h hruns
  have hreset : Shaking server (resetFlags s) := hshaking.step (.of_eq rfl rfl rfl) rfl (.inl rfl)
  obtain ⟨hmade, hssl⟩ := hreset.createSSL fun j hj => by
    obtain ⟨job, hjob, hservice⟩ := hruns
    obtain rfl : job = j := Option.some.inj (hjob.symm.trans hj)
    rw [hservice]
    refine ⟨hreset.unready, ?_⟩
    cases server with
    | true => exact hside rfl
    | false => exact hreset.up rfl
  have houtcome := outcome_secureConnect hmade hssl rfl hreset hside ⟨rfl, rfl⟩ handshake
  unfold serviceConnect
  generalize secureConnect handshake (resetFlags s) = result at houtcome ⊢
  cases houtcome with
  | failed hfailed => exact hfailed
  | succeeded hsucceeded => exact hsucceeded
  | @retried t hretried hlevel =>
    have hflags : Shaking server (if !t.readable && !t.writable then { t with writable := true } else t) :=
      hretried.step (.ite (.of_eq rfl rfl rfl) .rfl) (by split <;> rfl) (.inl (by split <;> rfl))
    refine guarded_startConnect hflags.guarded hflags.unready ?_
    cases server with
    | true =>
      have hlevel' : (if !t.readable && !t.writable then { t with writable := true } else t).securityLevel =
          t.securityLevel := by split <;> rfl
      change _ ≠ _
      rw [hlevel', hlevel]
      exact hside rfl
    | false => exact hflags.up rfl

theorem guarded_serviceAccept (h : Guarded server s) (handshake : Handshake) (hruns : runs .serviceAccept s) :
    Guarded server (serviceAccept handshake s) := by
  obtain ⟨hshaking, rfl⟩ := Shaking.of_accept h hruns
  have hreset : Shaking true (resetFlags s) := hshaking.step (.of_eq rfl rfl rfl) rfl (.inl rfl)
  obtain ⟨hmade, hssl⟩ := hreset.createSSL fun j hj => by
    obtain ⟨job, hjob, hservice⟩ := hruns
    obtain rfl : job = j := Option.some.inj (hjob.symm.trans hj)
    rw [hservice]
    exact ⟨hreset.unready, rfl⟩
  have houtcome := outcome_secureAccept hmade hssl rfl ⟨rfl, rfl⟩ handshake
  unfold serviceAccept
  generalize secureAccept handshake (resetFlags s) = result at houtcome ⊢
  cases houtcome with
  | @failed t hfailed =>
    have hsent : Frame SocketEntry.Idle (t.setJob none) ((t.setJob none).sendEvent .clientListenerDisconnectedOnAccept) :=
      frame_sendEvent _ ⟨rfl, rfl⟩ (by decide)
    exact hfailed.same hsent rfl
  | succeeded hsucceeded => exact hsucceeded
  | @retried t hretried hlevel =>
    have hflags : Shaking true (if !t.readable && !t.writable then { t with readable := true } else t) :=
      hretried.step (.ite (.of_eq rfl rfl rfl) .rfl) (by split <;> rfl) (.inl (by split <;> rfl))
    exact hflags.accepts

end Synergy
