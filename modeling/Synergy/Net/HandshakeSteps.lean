import Synergy.Net.HandshakePhases

/-! The steps that connect a secure socket, serve it and run its handshake keep what
holds of it. -/
namespace Synergy
open DataSocket SecureSocket
variable {server : Bool} {s t : DataSocket}

theorem pending_sendEvent_connected (s : DataSocket) : pending (s.sendEvent .dataSocketConnected) = pending s + 1 := by
  unfold pending sendEvent
  rw [List.count_append]
  rfl

/-- The connection of a socket goes down, and with it whatever it polls for. -/
theorem guarded_disconnected (h : Guarded server s) (f : Frame SocketEntry.Idle s t)
    (hpaused : t.secureReady = false → t.readPaused = false) (hpending : server = false → pending s = 0) :
    Guarded server (t.onDisconnected.setJob (newJob t.onDisconnected)) := by
  have hjob : newJob t.onDisconnected = none := newJob_of_down rfl rfl fun hup => Bool.noConfusion hup
  have hssl : hasSsl t = hasSsl s := f.hasSsl_eq
  have hrefused := f.unverdict.refused_iff
  have hsecured := secured_of_frame h.secured f
  obtain ⟨⟨entries, hlog, -⟩, hmembers, hcount⟩ := f
  simp only [Prod.mk.injEq] at hmembers
  obtain ⟨hlevel, hsocket, -, hcontext, hready, hwatching⟩ := hmembers
  rw [hjob]
  refine ⟨hcontext ▸ h.context, hsocket.trans h.socket, hsecured, fun ht => ?_, fun ht => ⟨rfl, hpaused ht⟩,
    fun hsome => absurd rfl hsome, fun ht => ?_, (fun j hj => nomatch hj), fun hs => hwatching.trans (h.accepted hs),
    fun hs => ?_⟩
  · obtain ⟨hhas, hchecked⟩ := h.ready (hready.symm.trans ht)
    change hasSsl t = true ∧ (Authenticated server t.securityLevel t.log ∨ Refused t.log)
    rw [hlevel, hlog]
    refine ⟨hssl.trans hhas, hchecked.imp (fun hauth => hauth.append entries) ?_⟩
    exact fun ⟨database, hmem⟩ => ⟨database, List.mem_append_left _ hmem⟩
  · obtain ⟨hhas, -, hlevel'⟩ := h.refused (hrefused.mp ht)
    refine ⟨hssl.trans hhas, ⟨rfl, rfl, rfl⟩, ?_⟩
    change t.secureReady = false → server = true ∧ t.securityLevel = .peerAuth
    rw [hready, hlevel]
    exact hlevel'
  · have hnone : pending t = 0 := hcount.trans (hpending hs)
    exact ⟨hnone.le.trans (Nat.zero_le 1), fun _ => hnone, fun _ => ⟨hnone, fun _ => ⟨rfl, rfl, rfl⟩⟩⟩

/-- A socket is connected: a client that was down, or an accepted one in no handshake that
has to check its peer. -/
theorem guarded_connected (h : Guarded server s) (hlive : ¬ Refused s.log)
    (hside : if server then ¬ MidAccept server s else s.connected = false ∧ hasSsl s = false) :
    Guarded server ((s.sendEvent .dataSocketConnected).onConnected.setJob
      (newJob (s.sendEvent .dataSocketConnected).onConnected)) := by
  have hnew : ∀ e ∈ [SocketEntry.sent .dataSocketConnected], e.verdict = false := by decide
  have hrefused : ¬ Refused (s.sendEvent .dataSocketConnected).log := (refused_append hnew).not.mpr hlive
  refine ⟨h.context, h.socket, h.secured.append (by decide), fun hready => ?_, h.unready, fun _ => rfl,
    fun hrefused' => absurd hrefused' hrefused, fun j hj => ?_, h.accepted, ?_⟩
  · obtain ⟨hhas, hchecked⟩ := h.ready hready
    exact ⟨hhas, hchecked.imp (fun hauth => hauth.append _) fun hrefused => absurd hrefused hlive⟩
  · refine jobOk_newJob (s := (s.sendEvent .dataSocketConnected).onConnected) ?_ ?_ hj
    · rintro ⟨rfl, hmid⟩
      exact hside ⟨rfl, hmid⟩
    · rintro rfl hhas
      exact Bool.noConfusion (hside.2.symm.trans hhas)
  · rintro rfl
    have hone : pending (s.sendEvent .dataSocketConnected) = 1 := by
      rw [pending_sendEvent_connected, (h.asked rfl).2.1 hside.1]
    refine ⟨Nat.le_of_eq hone, fun hdown => Bool.noConfusion hdown, fun hhas => ?_⟩
    exact Bool.noConfusion (hside.2.symm.trans hhas)

/-- A client is told to connect while its connection is up or its handshake has not begun. -/
theorem guarded_connect (h : Guarded false s) (answer : ArchConnect) (hup : s.connected = true ∨ hasSsl s = false) :
    Guarded false (SecureSocket.connect answer s) := by
  have hwatch : Guarded false { s with watching := true } :=
    ⟨h.context, h.socket, h.secured, h.ready, h.unready, h.buffered, h.refused, h.job, fun hs => Bool.noConfusion hs, h.asked⟩
  unfold SecureSocket.connect TCPSocket.connect
  simp only
  split
  next => exact hwatch.same (frame_sendEvent _ ⟨rfl, rfl⟩ (by simp)) rfl
  next hidle =>
    have hdown : s.connected = false := by
      rw [h.socket] at hidle
      simpa using hidle
    have hssl : hasSsl s = false := hup.resolve_left (by rw [hdown]; decide)
    have hlive : ¬ Refused s.log := fun hrefused => Bool.noConfusion (hssl.symm.trans (h.refused hrefused).1)
    cases answer with
    | done => exact guarded_connected hwatch hlive ⟨hdown, hssl⟩
    | inProgress =>
      have hwritable : Guarded false { s with watching := true, writable := true } := by
        have hframe : Frame SocketEntry.Idle { s with watching := true }
            { s with watching := true, writable := true } := .of_eq rfl rfl rfl
        refine hwatch.frame hframe.unverdict h.secured h.unready h.buffered ?_ h.job
        rintro (hrefused | ⟨-, hhas, -⟩)
        · exact absurd hrefused hlive
        · exact Bool.noConfusion (hssl.symm.trans hhas)
      refine hwritable.renew (fun hmid => Bool.noConfusion hmid.1) ?_
      rintro (hrefused | ⟨-, hhas, -⟩)
      · exact absurd hrefused hlive
      · exact Bool.noConfusion (hssl.symm.trans hhas)
    | thrown => exact hwatch

theorem guarded_serviceConnecting (h : Guarded server s) (failure : Option String) (write : Bool)
    (hruns : runs .serviceConnecting s) : Guarded server (TCPSocket.serviceConnecting newJob failure write s) := by
  obtain ⟨job, hjob, hservice⟩ := hruns
  have hside := h.job job hjob
  rw [hservice] at hside
  have hlive : ¬ Refused s.log := fun hrefused => by
    rw [(h.refused hrefused).2.1.1] at hjob
    cases hjob
  cases failure with
  | some what =>
    refine guarded_disconnected h (frame_sendEvent s ⟨rfl, rfl⟩ (by simp)) (fun hready => (h.unready hready).2) fun hs => ?_
    subst hs
    exact (h.asked rfl).2.1 hside.1
  | none =>
    unfold TCPSocket.serviceConnecting
    simp only
    split_ifs
    · exact guarded_connected h hlive hside
    · exact h

/-- An event is taken from the queue. -/
theorem guarded_popped (h : Guarded server s) {queue : List EventTypes}
    (hqueue : queue.count .dataSocketConnected ≤ pending s) : Guarded server { s with queue := queue } := by
  refine ⟨h.context, h.socket, h.secured, h.ready, h.unready, h.buffered, h.refused, fun j hj => ?_, h.accepted,
    fun hs => ?_⟩
  · have hok := h.job j hj
    rcases j with ⟨service, read, write⟩
    cases service with
    | serviceConnect =>
      refine ⟨hok.1, ?_⟩
      cases server with
      | true => exact hok.2
      | false => exact ⟨hok.2.1, Nat.eq_zero_of_le_zero (hqueue.trans (Nat.le_of_eq hok.2.2))⟩
    | _ => exact hok
  · obtain ⟨hone, hdown, hbegun⟩ := h.asked hs
    refine ⟨hqueue.trans hone, fun hc => ?_, fun hhas => ⟨?_, (hbegun hhas).2⟩⟩
    · exact Nat.eq_zero_of_le_zero (hqueue.trans (Nat.le_of_eq (hdown hc)))
    · exact Nat.eq_zero_of_le_zero (hqueue.trans (Nat.le_of_eq (hbegun hhas).1))

/-- The handler of the connected event is run by a client whose handshake has not begun. -/
theorem guarded_dispatch (h : Guarded server s) : Guarded server (SecureSocket.methods.dispatch s) := by
  unfold SocketClass.dispatch
  split
  next => exact h
  next event queue hqueue =>
    have hle : queue.count .dataSocketConnected ≤ pending s := by
      unfold pending
      rw [hqueue]
      exact List.count_le_count_cons
    have hpopped := guarded_popped h hle
    simp only
    split
    next hhandled =>
      obtain ⟨rfl, hwatching⟩ := hhandled
      have hclient : server = false := by
        by_contra hs
        exact Bool.noConfusion (hwatching.symm.trans (h.accepted (by simpa using hs)))
      subst hclient
      obtain ⟨hone, hdown, hbegun⟩ := h.asked rfl
      have hcount : pending s = queue.count .dataSocketConnected + 1 := by
        unfold pending
        rw [hqueue, List.count_cons_self]
      have hup : s.connected = true := by
        by_contra hc
        have hnone := hdown (by simpa using hc)
        omega
      have hready : s.secureReady = false := by
        by_contra hready
        have hnone := (hbegun (h.ready (by simpa using hready)).1).1
        omega
      have hstart := guarded_startConnect hpopped hready ⟨hup, by
        change queue.count .dataSocketConnected = 0
        omega⟩
      change Guarded false (handleTCPConnected { s with queue := queue })
      unfold handleTCPConnected
      rw [if_neg (by simp [h.socket])]
      exact hstart
    next => exact hpopped

/-- The job goes. -/
theorem Guarded.unschedule (h : Guarded server s) : Guarded server (s.setJob none) := by
  have hframe : Frame SocketEntry.Idle s (s.setJob none) := .of_eq rfl rfl rfl
  exact h.frame hframe.unverdict h.secured h.unready h.buffered (fun hdone => ⟨rfl, (h.still hdone).2⟩)
    fun j hj => nomatch hj

/-- Before the handshake has come to its end nothing is written. -/
theorem tryWrite_unready (answer : SslWrite) (write : Bool) (h : s.secureReady = false) : ∃ buffer,
    TCPSocket.tryWrite (doWrite answer) write s = ({ s with writeBuffer := buffer }, .retry) := by
  unfold TCPSocket.tryWrite
  cases write with
  | false => exact ⟨s.writeBuffer, rfl⟩
  | true =>
    obtain ⟨buffer, hbuffer⟩ := exists_filled s
    refine ⟨buffer, ?_⟩
    have hdone : doWrite answer s = ({ s with writeBuffer := buffer }, .ok .retry) := by
      unfold doWrite
      simp only
      rw [hbuffer, if_pos (by simp [h])]
    rw [hdone]
    rfl

theorem tryRead_unready (incoming : List SslRead) (read : Bool) (h : s.secureReady = false) :
    TCPSocket.tryRead doRead read incoming s = (s, incoming, .retry) := by
  have hdone : doRead incoming s = ⟨s, incoming, .ok .retry⟩ := by
    unfold doRead
    rw [if_pos (by simp [h])]
  unfold TCPSocket.tryRead
  rw [hdone]
  split <;> rfl

theorem serves_tryWrite (answer : SslWrite) (write : Bool) (s : DataSocket) :
    Serves s (TCPSocket.tryWrite (doWrite answer) write s).1 := by
  have hok : ∃ result, (doWrite answer s).2 = .ok result := by
    unfold doWrite
    simp only
    split_ifs <;> exact ⟨_, rfl⟩
  obtain ⟨result, hok⟩ := hok
  rw [TCPSocket.tryWrite_of_ok hok]
  exact .ite (serves_doWrite answer s) .rfl

theorem serves_tryRead (incoming : List SslRead) (read : Bool) (s : DataSocket) :
    Serves s (TCPSocket.tryRead doRead read incoming s).1 := by
  cases read with
  | false => exact .rfl
  | true =>
    obtain ⟨⟨result, hok⟩, -⟩ := doRead_spec incoming s
    rw [TCPSocket.tryRead_of_ok hok]
    split_ifs with hreadable
    · exact serves_doRead incoming hreadable
    · exact .rfl

/-- A socket that is ready and has not failed a check is served. -/
theorem Guarded.serves (h : Guarded server s) (hs : Serves s t) (hready : s.secureReady = true)
    (hlive : ¬ Finished server s) : Guarded server t := by
  have hrefused : ¬ Refused s.log := fun hrefused => hlive (.inl hrefused)
  have hmembers := hs.frame.members
  simp only [Prod.mk.injEq] at hmembers
  refine h.frame hs.frame ?_ (fun hunready => ?_) (fun hsome => ?_) (fun hdone => absurd hdone hlive) fun j hj => ?_
  · obtain ⟨entries, hlog, hfine⟩ := hs.frame.log
    rw [hmembers.1, hlog]
    exact h.secured.append_of_authenticated ((h.ready hready).2.resolve_right hrefused) hrefused hfine
  · rw [hmembers.2.2.2.2.1, hready] at hunready
    exact Bool.noConfusion hunready
  · rcases hs.buffered with hbuffer | hreadable
    · exact hs.readable (h.buffered (hbuffer ▸ hsome))
    · exact hreadable
  · rw [hs.job] at hj
    exact (hs.frame.jobOk_iff j.service).mpr (h.job j hj)

theorem guarded_serviceConnected (h : Guarded server s) (read write error : Bool) (answer : SslWrite)
    (incoming : List SslRead) (hruns : runs .serviceConnected s) :
    Guarded server (TCPSocket.serviceConnected newJob doRead (doWrite answer) read write error incoming s).1 := by
  obtain ⟨job, hjob, hservice⟩ := hruns
  have hside := h.job job hjob
  rw [hservice] at hside
  unfold TCPSocket.serviceConnected
  cases error with
  | true =>
    refine guarded_disconnected h (frame_sendEvent s ⟨rfl, rfl⟩ (by decide)) (fun hready => (h.unready hready).2) fun hs => ?_
    subst hs
    have hready := (hside.resolve_left Bool.false_ne_true).1
    exact ((h.asked rfl).2.2 (h.ready hready).1).1
  | false =>
    rw [if_neg Bool.false_ne_true]
    cases hready : s.secureReady with
    | false =>
      obtain ⟨buffer, hwritten⟩ := tryWrite_unready answer write hready
      simp only [hwritten]
      rw [tryRead_unready (s := { s with writeBuffer := buffer }) incoming read hready]
      exact h.same (.of_eq rfl rfl rfl) rfl
    | true =>
      have hlive : ¬ Finished server s := h.live (.inr (.inr (by rw [hjob]; exact Option.some_ne_none _)))
      have hserves := (serves_tryWrite answer write s).trans (serves_tryRead incoming read _)
      have hserved := h.serves hserves hready hlive
      have hready' : (TCPSocket.tryRead doRead read incoming
          (TCPSocket.tryWrite (doWrite answer) write s).1).1.secureReady = true :=
        (congrArg (fun m => m.2.2.2.2.1) hserves.frame.members).trans hready
      unfold TCPSocket.nextJob
      simp only
      split_ifs
      · exact hserved.unschedule
      · exact hserved.renew (not_midAccept_of_ready hready') (hserves.frame.finished_iff.not.mpr hlive)
      · exact hserved

end Synergy
