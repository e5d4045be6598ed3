import Synergy.Net.HandshakeFrames

/-! What holds of a secure socket between the calls to it, and that careful calls keep it:
which handshake the job can be in, what a failed check leaves, and what a socket that is
ready has checked. -/
namespace Synergy
open DataSocket SecureSocket

/-- The services that the job can run. -/
def JobOk (server : Bool) (s : DataSocket) : Service → Prop
  | .serviceConnect => s.secureReady = false ∧
      if server then s.securityLevel ≠ .peerAuth else s.connected = true ∧ pending s = 0
  | .serviceAccept => s.secureReady = false ∧ server = true
  | .serviceConnecting => if server then ¬ MidAccept server s else s.connected = false ∧ hasSsl s = false
  | .serviceConnected => server = true ∨ s.secureReady = true ∧ s.connected = true

/-- Nothing is polled for. -/
def Still (s : DataSocket) : Prop := s.job = none ∧ s.readable = false ∧ s.writable = false

/-- A check has failed, or the connection of a client is down after its handshake began. -/
def Finished (server : Bool) (s : DataSocket) : Prop :=
  Refused s.log ∨ server = false ∧ hasSsl s = true ∧ s.connected = false

/-- What holds of an open socket. Data is held only while it is readable; a check that has
failed leaves it still; and a client has no connected event to handle once its handshake has
begun. -/
structure Guarded (server : Bool) (s : DataSocket) : Prop where
  context : s.ssl.isSome = true
  socket : s.socket = true
  secured : Secured server s.securityLevel s.log
  ready : s.secureReady = true → hasSsl s = true ∧ (Authenticated server s.securityLevel s.log ∨ Refused s.log)
  unready : s.secureReady = false → s.inputBuffer = [] ∧ s.readPaused = false
  buffered : s.inputBuffer ≠ [] → s.readable = true
  refused : Refused s.log → hasSsl s = true ∧ Still s ∧
    (s.secureReady = false → server = true ∧ s.securityLevel = .peerAuth)
  job : ∀ j, s.job = some j → JobOk server s j.service
  accepted : server = true → s.watching = false
  asked : server = false → pending s ≤ 1 ∧ (s.connected = false → pending s = 0) ∧
    (hasSsl s = true → pending s = 0 ∧ (s.connected = false → Still s))

/-- A closed socket does nothing more. -/
structure Closed (server : Bool) (s : DataSocket) : Prop where
  secured : Secured server s.securityLevel s.log
  socket : s.socket = false
  ssl : s.ssl = none
  fatal : s.fatal = true

variable {server : Bool} {s t : DataSocket}

theorem secured_of_frame (h : Secured server s.securityLevel s.log) (f : Frame SocketEntry.Idle s t) :
    Secured server t.securityLevel t.log := by
  obtain ⟨entries, hlog, hidle⟩ := f.log
  have hlevel : t.securityLevel = s.securityLevel := congrArg Prod.fst f.members
  rw [hlog, hlevel]
  exact h.append fun e he => (hidle e he).1

theorem Frame.refused_iff (f : Frame SocketEntry.Unverdict s t) : Refused t.log ↔ Refused s.log := by
  obtain ⟨entries, hlog, hfine⟩ := f.log
  rw [hlog]
  exact refused_append hfine

theorem Frame.hasSsl_eq {p : SocketEntry → Prop} (f : Frame p s t) : hasSsl t = hasSsl s := by
  obtain ⟨-, hmembers, -⟩ := f
  simp only [Prod.mk.injEq] at hmembers
  unfold hasSsl
  rw [hmembers.2.2.2.1]

/-- Which services are allowed depends on the frame alone. -/
theorem Frame.jobOk_iff {p : SocketEntry → Prop} (f : Frame p s t) (service : Service) :
    JobOk server t service ↔ JobOk server s service := by
  have hssl := f.hasSsl_eq
  obtain ⟨-, hmembers, hpending⟩ := f
  simp only [Prod.mk.injEq] at hmembers
  obtain ⟨hlevel, -, hconnected, -, hready, -⟩ := hmembers
  cases service <;> simp only [JobOk, MidAccept, hssl, hpending, hlevel, hconnected, hready]

theorem Frame.finished_iff (f : Frame SocketEntry.Unverdict s t) : Finished server t ↔ Finished server s := by
  have hconnected : t.connected = s.connected := congrArg (fun m => m.2.2.1) f.members
  unfold Finished
  rw [f.refused_iff, f.hasSsl_eq, hconnected]

namespace Guarded

/-- A step within a frame: what is left to be shown of the state after it. -/
theorem frame (h : Guarded server s) (f : Frame SocketEntry.Unverdict s t)
    (hsecured : Secured server t.securityLevel t.log)
    (hunready : t.secureReady = false → t.inputBuffer = [] ∧ t.readPaused = false)
    (hbuffered : t.inputBuffer ≠ [] → t.readable = true)
    (hstill : Finished server s → Still t) (hjob : ∀ j, t.job = some j → JobOk server t j.service) : Guarded server t := by
  have hrefused := f.refused_iff
  have hssl := f.hasSsl_eq
  obtain ⟨⟨entries, hlog, -⟩, hmembers, hpending⟩ := f
  simp only [Prod.mk.injEq] at hmembers
  obtain ⟨hlevel, hsocket, hconnected, hcontext, hready, hwatching⟩ := hmembers
  refine ⟨hcontext ▸ h.context, hsocket.trans h.socket, hsecured, fun ht => ?_, hunready, hbuffered, fun ht => ?_, hjob,
    fun hs => hwatching.trans (h.accepted hs), fun hs => ?_⟩
  · obtain ⟨hhas, hchecked⟩ := h.ready (hready.symm.trans ht)
    rw [hlevel, hlog]
    refine ⟨hssl.trans hhas, hchecked.imp (fun hauth => hauth.append entries) ?_⟩
    exact fun ⟨database, hmem⟩ => ⟨database, List.mem_append_left _ hmem⟩
  · obtain ⟨hhas, -, hlevel'⟩ := h.refused (hrefused.mp ht)
    rw [hready, hlevel]
    exact ⟨hssl.trans hhas, hstill (.inl (hrefused.mp ht)), hlevel'⟩
  · obtain ⟨hone, hdown, hbegun⟩ := h.asked hs
    rw [hpending, hconnected, hssl]
    exact ⟨hone, hdown, fun hhas => ⟨(hbegun hhas).1, fun hc => hstill (.inr ⟨hs, hhas, hc⟩)⟩⟩

theorem still (h : Guarded server s) (hdone : Finished server s) : Still s := by
  rcases hdone with hrefused | ⟨hs, hhas, hdown⟩
  · exact (h.refused hrefused).2.1
  · exact ((h.asked hs).2.2 hhas).2 hdown

/-- Only members change that no part of the invariant is about. -/
theorem same (h : Guarded server s) (f : Frame SocketEntry.Idle s t)
    (hmembers : (t.inputBuffer, t.readPaused, t.readable, t.writable, t.job) =
      (s.inputBuffer, s.readPaused, s.readable, s.writable, s.job)) : Guarded server t := by
  simp only [Prod.mk.injEq] at hmembers
  obtain ⟨hbuffer, hpaused, hreadable, hwritable, hjob⟩ := hmembers
  have hready : t.secureReady = s.secureReady := by
    have := f.members
    simp only [Prod.mk.injEq] at this
    exact this.2.2.2.2.1
  refine h.frame f.unverdict (secured_of_frame h.secured f) ?_ ?_ ?_ ?_
  · rw [hready, hbuffer, hpaused]
    exact h.unready
  · rw [hbuffer, hreadable]
    exact h.buffered
  · intro hdone
    rw [Still, hjob, hreadable, hwritable]
    exact h.still hdone
  · rw [hjob]
    exact fun j hj => (f.jobOk_iff j.service).mpr (h.job j hj)

end Guarded

/-- The job that a socket renews is allowed, but in the middle of accepting a client that has
to be checked. -/
theorem jobOk_newJob (haccept : ¬ MidAccept server s)
    (hclient : server = false → hasSsl s = true →
      pending s = 0 ∧ (s.connected = false → s.readable = false ∧ s.writable = false))
    {j : SocketJob} (h : newJob s = some j) : JobOk server s j.service := by
  unfold newJob at h
  split at h
  next hshaking =>
    simp only [Bool.and_eq_true, Bool.not_eq_true'] at hshaking
    split at h
    next hssl =>
      cases h
      refine ⟨hshaking.2, ?_⟩
      cases server with
      | true => exact fun hlevel => haccept ⟨rfl, hlevel, hssl, hshaking.2⟩
      | false => exact ⟨hshaking.1, (hclient rfl hssl).1⟩
    next => cases h
  next hshaking =>
    unfold TCPSocket.newJob at h
    split_ifs at h with hsocket hconnected hflags
    · cases h
      cases server with
      | true => exact haccept
      | false =>
        refine ⟨by simpa using hconnected, ?_⟩
        by_contra hssl
        have hdown := (hclient rfl (by simpa using hssl)).2 (by simpa using hconnected)
        simp [hdown.1, hdown.2] at hflags
    · simp only at h
      split_ifs at h
      cases h
      exact .inr ⟨by simp_all, by simpa using hconnected⟩

/-- With both flags down there is nothing to poll for. -/
theorem newJob_of_down (hreadable : s.readable = false) (hwritable : s.writable = false)
    (hopen : s.connected = true → s.readPaused = false ∧ s.secureReady = true) : newJob s = none := by
  unfold newJob TCPSocket.newJob
  simp only [hreadable, hwritable]
  cases hconnected : s.connected with
  | false => simp
  | true => simp [hopen hconnected]

/-- What the renewed job of a client asks for. -/
theorem Guarded.renewable (h : Guarded server s) (hs : server = false) (hhas : hasSsl s = true) :
    pending s = 0 ∧ (s.connected = false → s.readable = false ∧ s.writable = false) := by
  obtain ⟨hpending, hdown⟩ := (h.asked hs).2.2 hhas
  exact ⟨hpending, fun hc => (hdown hc).2⟩

theorem not_midAccept_of_ready (h : s.secureReady = true) : ¬ MidAccept server s :=
  fun hmid => Bool.noConfusion (h.symm.trans hmid.2.2.2)

theorem guarded_startConnect (h : Guarded server s) (hready : s.secureReady = false)
    (hside : if server then s.securityLevel ≠ .peerAuth else s.connected = true ∧ pending s = 0) :
    Guarded server (startConnect s) := by
  have hframe : Frame SocketEntry.Idle s (startConnect s) := .of_eq rfl rfl rfl
  refine h.frame hframe.unverdict (secured_of_frame h.secured hframe) h.unready h.buffered ?_ ?_
  · rintro (hrefused | ⟨rfl, -, hdown⟩)
    · obtain ⟨rfl, hlevel⟩ := (h.refused hrefused).2.2 hready
      exact absurd hlevel hside
    · exact Bool.noConfusion (hdown.symm.trans hside.1)
  · rintro j hj
    cases hj
    exact ⟨hready, hside⟩

theorem guarded_startAccept (h : Guarded server s) (hserver : server = true) (hssl : hasSsl s = false) :
    Guarded server (startAccept s) := by
  have hframe : Frame SocketEntry.Idle s (startAccept s) := .of_eq rfl rfl rfl
  refine h.frame hframe.unverdict (secured_of_frame h.secured hframe) h.unready h.buffered ?_ ?_
  · rintro (hrefused | ⟨hs, -⟩)
    · exact Bool.noConfusion (hssl.symm.trans (h.refused hrefused).1)
    · exact Bool.noConfusion (hserver.symm.trans hs)
  · rintro j hj
    cases hj
    refine ⟨?_, hserver⟩
    change s.secureReady = false
    by_contra hready
    exact Bool.noConfusion (hssl.symm.trans (h.ready (by simpa using hready)).1)

/-- A socket that is polled for anything is not finished. -/
theorem Guarded.live (h : Guarded server s) (hflags : s.readable = true ∨ s.writable = true ∨ s.job ≠ none) :
    ¬ Finished server s := by
  intro hdone
  obtain ⟨hjob, hreadable, hwritable⟩ := h.still hdone
  simp [hjob, hreadable, hwritable] at hflags

theorem Guarded.renew (h : Guarded server s) (haccept : ¬ MidAccept server s) (hlive : ¬ Finished server s) :
    Guarded server (s.setJob (newJob s)) := by
  have hframe : Frame SocketEntry.Idle s (s.setJob (newJob s)) := .of_eq rfl rfl rfl
  refine h.frame hframe.unverdict (secured_of_frame h.secured hframe) h.unready h.buffered
    (fun hdone => absurd hdone hlive) fun j hj => ?_
  exact jobOk_newJob (s := s) haccept h.renewable hj

theorem guarded_write (h : Guarded server s) (data : Bytes)
    (hcareful : s.writable = true ∧ data ≠ [] ∧ s.outputBuffer = [] → ¬ MidAccept server s) :
    Guarded server (TCPSocket.write newJob data s) := by
  have hwritten : Guarded server { s with outputBuffer := s.outputBuffer ++ data, flushed := false } :=
    h.same (.of_eq rfl rfl rfl) rfl
  unfold TCPSocket.write
  split_ifs with hwritable hempty hfirst
  · exact h.same (frame_sendEvent s ⟨rfl, rfl⟩ (by decide)) rfl
  · exact h
  · have hwritable : s.writable = true := by simpa using hwritable
    refine hwritten.renew (hcareful ⟨hwritable, by simpa using hempty, by simpa using hfirst⟩) ?_
    exact h.live (.inr (.inl hwritable))
  · exact hwritten

theorem guarded_shutdownInput (h : Guarded server s) (hcareful : s.readable = true → ¬ MidAccept server s) :
    Guarded server (TCPSocket.shutdownInput newJob s) := by
  unfold TCPSocket.shutdownInput
  split_ifs with hreadable
  · have hframe : Frame SocketEntry.Idle s (s.sendEvent .streamInputShutdown).onInputShutdown :=
      (frame_sendEvent s ⟨rfl, rfl⟩ (by decide)).trans (.of_eq rfl rfl rfl)
    have hlive : ¬ Finished server s := h.live (.inl hreadable)
    have hshut : Guarded server (s.sendEvent .streamInputShutdown).onInputShutdown := by
      refine h.frame hframe.unverdict (secured_of_frame h.secured hframe) (fun hready => ⟨rfl, (h.unready hready).2⟩)
        (fun hsome => absurd rfl hsome) (fun hdone => absurd hdone hlive) fun j hj => ?_
      exact (hframe.jobOk_iff j.service).mpr (h.job j hj)
    exact hshut.renew (hcareful hreadable) (hframe.unverdict.finished_iff.not.mpr hlive)
  · exact h

theorem guarded_shutdownOutput (h : Guarded server s) (hcareful : s.writable = true → ¬ MidAccept server s) :
    Guarded server (TCPSocket.shutdownOutput newJob s) := by
  unfold TCPSocket.shutdownOutput
  split_ifs with hwritable
  · have hframe : Frame SocketEntry.Idle s (s.sendEvent .streamOutputShutdown).onOutputShutdown :=
      (frame_sendEvent s ⟨rfl, rfl⟩ (by decide)).trans (.of_eq rfl rfl rfl)
    have hlive : ¬ Finished server s := h.live (.inr (.inl hwritable))
    have hshut : Guarded server (s.sendEvent .streamOutputShutdown).onOutputShutdown := by
      refine h.frame hframe.unverdict (secured_of_frame h.secured hframe) h.unready h.buffered
        (fun hdone => absurd hdone hlive) fun j hj => ?_
      exact (hframe.jobOk_iff j.service).mpr (h.job j hj)
    exact hshut.renew (hcareful hwritable) (hframe.unverdict.finished_iff.not.mpr hlive)
  · exact h

/-- Data is read while the socket is readable, so that no read hangs up. -/
theorem take_eq (h : s.inputBuffer ≠ [] → s.readable = true) (n : Nat) : TCPSocket.take n s =
    { s.note (.taken (s.inputBuffer.take n)) with
      inputBuffer := s.inputBuffer.drop n
      readPaused := s.readPaused && TCPSocket.inputBufferHighWater / 2 < (s.inputBuffer.drop n).length } := by
  unfold TCPSocket.take
  simp only
  refine if_neg fun hlast => ?_
  simp only [Bool.and_eq_true, Bool.not_eq_true', List.isEmpty_eq_false_iff] at hlast
  have hsome : s.inputBuffer ≠ [] := fun hnone => hlast.1.1.1 (by rw [hnone, List.take_nil])
  rw [h hsome] at hlast
  exact Bool.noConfusion hlast.1.2

theorem guarded_read (h : Guarded server s) (n : Nat) : Guarded server (TCPSocket.read newJob n s).2 := by
  have hframe : Frame SocketEntry.Idle s (TCPSocket.take n s) := by
    have hnote : Frame SocketEntry.Idle s (s.note (.taken (s.inputBuffer.take n))) := frame_note s ⟨rfl, rfl⟩
    rw [take_eq h.buffered]
    exact hnote.trans (.of_eq rfl rfl rfl)
  have htaken : Guarded server (TCPSocket.take n s) := by
    refine h.frame hframe.unverdict (secured_of_frame h.secured hframe) ?_ ?_ (fun hdone => ?_) fun j hj => ?_
    · rw [take_eq h.buffered]
      intro hready
      obtain ⟨hempty, hpaused⟩ := h.unready hready
      simp [hempty, hpaused]
    · rw [take_eq h.buffered]
      exact fun hsome => h.buffered fun hnone => hsome (by simp [hnone])
    · rw [take_eq h.buffered]
      exact h.still hdone
    · rw [take_eq h.buffered] at hj
      exact (hframe.jobOk_iff j.service).mpr (h.job j hj)
  unfold TCPSocket.read
  simp only
  split_ifs with hresumed
  · -- the reading was paused, so the socket is ready
    simp only [Bool.and_eq_true, Bool.not_eq_true'] at hresumed
    have hready : s.secureReady = true := by
      by_contra hready
      rw [(h.unready (by simpa using hready)).2] at hresumed
      exact Bool.noConfusion hresumed.1
    have hready' : (TCPSocket.take n s).secureReady = true := by
      rw [take_eq h.buffered]
      exact hready
    have hrenewed : Frame SocketEntry.Idle (TCPSocket.take n s)
        ((TCPSocket.take n s).setJob (newJob (TCPSocket.take n s))) := .of_eq rfl rfl rfl
    refine htaken.frame hrenewed.unverdict (secured_of_frame htaken.secured hrenewed) htaken.unready htaken.buffered
      (fun hdone => ?_) fun j hj => ?_
    · obtain ⟨-, hreadable, hwritable⟩ := htaken.still hdone
      exact ⟨newJob_of_down hreadable hwritable fun _ => ⟨hresumed.2, hready'⟩, hreadable, hwritable⟩
    · exact jobOk_newJob (s := TCPSocket.take n s) (not_midAccept_of_ready hready') htaken.renewable hj
  · exact htaken

end Synergy
