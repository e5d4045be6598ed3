import Synergy.Net.HandshakeOutcomes

/-! No application byte crosses a secure socket before its peer has been checked, in any run
of careful calls. -/
namespace Synergy
open DataSocket SecureSocket
variable {server : Bool} {s t : DataSocket}

/-- Closing a socket, open or not, frees its connection for good. -/
theorem closed_close (h : Secured server s.securityLevel s.log) : Closed server (SecureSocket.close s) := by
  have hlog : ∃ entries, (SecureSocket.close s).log = s.log ++ entries ∧ ∀ e ∈ entries, e.uses = false := by
    unfold SecureSocket.close TCPSocket.close
    simp only
    split
    · exact ⟨[.sent .socketDisconnected], rfl, by decide⟩
    · exact ⟨[], (List.append_nil _).symm, fun _ he => nomatch he⟩
  have hmembers : ((SecureSocket.close s).securityLevel, (SecureSocket.close s).ssl, (SecureSocket.close s).fatal) =
      (s.securityLevel, none, true) := by
    unfold SecureSocket.close TCPSocket.close
    simp only
    split <;> rfl
  obtain ⟨entries, hlog, hunused⟩ := hlog
  simp only [Prod.mk.injEq] at hmembers
  refine ⟨?_, rfl, hmembers.2.1, hmembers.2.2⟩
  rw [hmembers.1, hlog]
  exact h.append hunused

namespace Closed

/-- A step of a closed socket: nothing is used, and it stays closed. -/
theorem step (h : Closed server s) (hlog : ∃ entries, t.log = s.log ++ entries ∧ ∀ e ∈ entries, e.uses = false)
    (hmembers : (t.securityLevel, t.socket, t.ssl, t.fatal) = (s.securityLevel, s.socket, s.ssl, s.fatal)) :
    Closed server t := by
  obtain ⟨entries, hlog, hunused⟩ := hlog
  simp only [Prod.mk.injEq] at hmembers
  obtain ⟨hlevel, hsocket, hssl, hfatal⟩ := hmembers
  refine ⟨?_, hsocket.trans h.socket, hssl.trans h.ssl, hfatal.trans h.fatal⟩
  rw [hlevel, hlog]
  exact h.secured.append hunused

theorem same (h : Closed server s) (hlog : t.log = s.log)
    (hmembers : (t.securityLevel, t.socket, t.ssl, t.fatal) = (s.securityLevel, s.socket, s.ssl, s.fatal)) :
    Closed server t :=
  h.step ⟨[], by rw [hlog, List.append_nil], fun _ he => nomatch he⟩ hmembers

theorem sendEvent (h : Closed server s) {event : EventTypes} (hevent : (SocketEntry.sent event).uses = false) :
    Closed server (s.sendEvent event) :=
  h.step ⟨[.sent event], rfl, fun _ he => List.mem_singleton.mp he ▸ hevent⟩ rfl

theorem ite {c : Prop} [Decidable c] (h : Closed server s) (h' : Closed server t) :
    Closed server (if c then s else t) := by
  split
  · exact h
  · exact h'

theorem hasSsl (h : Closed server s) : hasSsl s = false := by
  unfold SecureSocket.hasSsl
  rw [h.ssl]
  rfl

theorem disconnect (h : Closed server s) : Closed server (disconnect s) := (h.sendEvent rfl).sendEvent rfl

/-- Whatever the library says, the socket is fatal. -/
theorem checkResult (h : Closed server s) (code : SslError) :
    Closed server (checkResult code s).2 ∧ (SecureSocket.checkResult code s).1 = false := by
  have hflags : Closed server (setFlags code s) := by
    refine h.same rfl ?_
    simp [setFlags, h.fatal]
  rw [checkResult_eq, h.fatal]
  exact ⟨hflags.disconnect, rfl⟩

theorem doWrite (h : Closed server s) (answer : SslWrite) :
    (∃ result, (doWrite answer s).2 = .ok result) ∧ Closed server (SecureSocket.doWrite answer s).1 := by
  obtain ⟨buffer, hbuffer⟩ := exists_filled s
  have hfill : Closed server { s with writeBuffer := buffer } := h.same rfl rfl
  have hwrite : secureWrite answer { s with writeBuffer := buffer } = (0, { s with writeBuffer := buffer }) :=
    if_neg (by rw [hfill.hasSsl]; exact Bool.false_ne_true)
  unfold SecureSocket.doWrite
  simp only
  rw [hbuffer, hwrite]
  split
  · exact ⟨⟨_, rfl⟩, hfill⟩
  · exact ⟨⟨_, rfl⟩, h.same rfl rfl⟩

theorem doRead (h : Closed server s) (incoming : List SslRead) :
    (∃ result, (doRead incoming s).result = .ok result) ∧ Closed server (SecureSocket.doRead incoming s).socket := by
  have hread : ∀ r, secureRead r s = (0, s) := fun r => if_neg (by rw [h.hasSsl]; exact Bool.false_ne_true)
  unfold SecureSocket.doRead
  simp only [hread]
  split
  · exact ⟨⟨_, rfl⟩, h⟩
  · exact ⟨⟨_, rfl⟩, h⟩

theorem serviceConnected (h : Closed server s) (read write error : Bool) (answer : SslWrite) (incoming : List SslRead) :
    Closed server (TCPSocket.serviceConnected newJob SecureSocket.doRead (SecureSocket.doWrite answer) read write error
      incoming s).1 := by
  unfold TCPSocket.serviceConnected
  simp only
  split
  · exact (h.sendEvent rfl).same rfl rfl
  · obtain ⟨⟨written, hwritten⟩, hwrite⟩ := h.doWrite answer
    have hwrote : Closed server (TCPSocket.tryWrite (SecureSocket.doWrite answer) write s).1 := by
      rw [TCPSocket.tryWrite_of_ok hwritten]
      exact hwrite.ite h
    have hread : Closed server (TCPSocket.tryRead SecureSocket.doRead read incoming
        (TCPSocket.tryWrite (SecureSocket.doWrite answer) write s).1).1 := by
      obtain ⟨⟨result, hresult⟩, hdone⟩ := hwrote.doRead incoming
      cases read with
      | false => exact hwrote
      | true =>
        rw [TCPSocket.tryRead_of_ok hresult]
        split_ifs
        · exact hdone
        · exact hwrote
    unfold TCPSocket.nextJob
    split_ifs
    · exact hread.same rfl rfl
    · exact hread.same rfl rfl
    · exact hread

theorem serviceConnect (h : Closed server s) (handshake : Handshake) : Closed server (serviceConnect handshake s) := by
  have hmade : Closed server (createSSL (resetFlags s)) := by
    refine h.same rfl ?_
    unfold createSSL resetFlags
    rw [h.ssl]
    rfl
  obtain ⟨hchecked, -⟩ := hmade.checkResult handshake.code
  have hconnect : (secureConnect handshake (resetFlags s)).1 = -1 ∧
      Closed server (secureConnect handshake (resetFlags s)).2 := by
    unfold secureConnect
    simp only
    rw [hchecked.fatal]
    split
    · exact ⟨rfl, (h.same (t := resetFlags s) rfl rfl).disconnect⟩
    · exact ⟨rfl, hchecked⟩
  unfold SecureSocket.serviceConnect
  simp only
  rw [hconnect.1]
  exact hconnect.2.same rfl rfl

theorem serviceAccept (h : Closed server s) (handshake : Handshake) : Closed server (serviceAccept handshake s) := by
  have hmade : Closed server (createSSL (resetFlags s)) := by
    refine h.same rfl ?_
    unfold createSSL resetFlags
    rw [h.ssl]
    rfl
  obtain ⟨hchecked, -⟩ := hmade.checkResult handshake.code
  have haccept : (secureAccept handshake (resetFlags s)).1 = -1 ∧
      Closed server (secureAccept handshake (resetFlags s)).2 := by
    unfold secureAccept
    simp only
    rw [if_pos hchecked.fatal]
    exact ⟨rfl, hchecked.same rfl rfl⟩
  unfold SecureSocket.serviceAccept
  simp only
  rw [haccept.1]
  exact (haccept.2.sendEvent rfl).same rfl rfl

/-- A closed socket stays closed. -/
theorem call {t : Linked SslRead} (h : Closed server t.socket) (c : SessionCall) :
    Closed server (sessionCall t c).socket := by
  rcases c with _ | _ | ⟨c | handshake | handshake⟩
  · exact h.same rfl rfl
  · exact h.same rfl rfl
  · cases c with
    | connect answer =>
      have hwatch : Closed server { t.socket with watching := true } := h.same rfl rfl
      change Closed server (TCPSocket.connect newJob answer { t.socket with watching := true })
      unfold TCPSocket.connect
      rw [if_pos (by simp [h.socket])]
      exact hwatch.sendEvent rfl
    | dispatch =>
      change Closed server (SecureSocket.methods.dispatch t.socket)
      unfold SocketClass.dispatch
      split
      · exact h
      · refine .ite ?_ (h.same rfl rfl)
        change Closed server (handleTCPConnected _)
        unfold handleTCPConnected
        rw [if_pos (by simp [h.socket])]
        exact h.same rfl rfl
    | serviceConnecting failure write =>
      cases failure with
      | some what => exact (h.sendEvent rfl).same rfl rfl
      | none => exact .ite ((h.sendEvent rfl).same rfl rfl) h
    | serviceConnected read write error answer => exact h.serviceConnected read write error answer t.incoming
    | read n =>
      have hpop : Closed server { t.socket.note (.taken (t.socket.inputBuffer.take n)) with
          inputBuffer := t.socket.inputBuffer.drop n
          readPaused := t.socket.readPaused &&
            TCPSocket.inputBufferHighWater / 2 < (t.socket.inputBuffer.drop n).length } :=
        h.step ⟨[.taken _], rfl, fun _ he => List.mem_singleton.mp he ▸ rfl⟩ rfl
      have htaken : Closed server (TCPSocket.take n t.socket) :=
        .ite ((hpop.sendEvent rfl).same rfl rfl) hpop
      exact .ite (htaken.same rfl rfl) htaken
    | write data => exact .ite (h.sendEvent rfl) (.ite h (.ite (h.same rfl rfl) (h.same rfl rfl)))
    | shutdownInput => exact .ite ((h.sendEvent rfl).same rfl rfl) h
    | shutdownOutput => exact .ite ((h.sendEvent rfl).same rfl rfl) h
    | close => exact closed_close h.secured
  · exact h.serviceConnect handshake
  · exact h.serviceAccept handshake

end Closed

/-- A socket that is open and guarded, or closed, is one or the other after a careful call. -/
theorem guarded_call {t : Linked SslRead} (h : Guarded server t.socket) (c : SessionCall)
    (hcareful : Careful server t.socket c) (hscheduled : Scheduled t.socket c) :
    Guarded server (sessionCall t c).socket ∨ Closed server (sessionCall t c).socket := by
  have hcareful := hcareful h.socket
  rcases c with _ | _ | ⟨c | handshake | handshake⟩
  · refine .inl (guarded_startConnect h hcareful.1 ?_)
    cases server with
    | true => exact hcareful.2
    | false => exact ⟨hcareful.2.1, List.count_eq_zero.mpr hcareful.2.2⟩
  · exact .inl (guarded_startAccept h hcareful.1 hcareful.2)
  · cases c with
    | connect answer =>
      obtain ⟨rfl, hup⟩ := hcareful
      exact .inl (guarded_connect h answer hup)
    | dispatch => exact .inl (guarded_dispatch h)
    | serviceConnecting failure write => exact .inl (guarded_serviceConnecting h failure write hscheduled)
    | serviceConnected read write error answer =>
      exact .inl (guarded_serviceConnected h read write error answer t.incoming hscheduled)
    | read n => exact .inl (guarded_read h n)
    | write data => exact .inl (guarded_write h data hcareful)
    | shutdownInput => exact .inl (guarded_shutdownInput h hcareful)
    | shutdownOutput => exact .inl (guarded_shutdownOutput h hcareful)
    | close => exact .inr (closed_close h.secured)
  · exact .inl (guarded_serviceConnect h handshake hscheduled)
  · exact .inl (guarded_serviceAccept h handshake hscheduled)

/-- A new socket, for a connection of its own or an accepted one. -/
def newSocket (server : Bool) (level : SecurityLevel) : DataSocket := if server then accepted level else client level

/-- A run of a new secure socket over any answers of the TLS library. -/
structure SecureSession where
  server : Bool
  securityLevel : SecurityLevel
  incoming : List SslRead
  calls : List SessionCall
  scheduled : Lib.EachStep (fun t c _ => Scheduled t.socket c) ⟨newSocket server securityLevel, incoming⟩
    (Lib.runTrace sessionCall ⟨newSocket server securityLevel, incoming⟩ calls)

namespace SecureSession
variable (r : SecureSession)

def start : Linked SslRead := ⟨newSocket r.server r.securityLevel, r.incoming⟩

def trace : List (SessionCall × Linked SslRead) := Lib.runTrace sessionCall r.start r.calls

/-- In every state of the run the connection has been used only after the checks. -/
def Secured : Prop :=
  Lib.Always (fun t => Synergy.Secured r.server t.socket.securityLevel t.socket.log) r.trace

def Careful : Prop := Lib.EachStep (fun t c _ => SecureSocket.Careful r.server t.socket c) r.start r.trace

end SecureSession

theorem guarded_newSocket (server : Bool) (level : SecurityLevel) : Guarded server (newSocket server level) := by
  have hnone : ¬ Refused [] := fun ⟨_, hmem⟩ => nomatch hmem
  cases server with
  | true =>
    refine ⟨rfl, rfl, secured_nil, fun h => Bool.noConfusion h, fun _ => ⟨rfl, rfl⟩, fun _ => rfl,
      fun h => absurd h hnone, fun j hj => ?_, fun _ => rfl, fun h => Bool.noConfusion h⟩
    cases hj
    exact .inl rfl
  | false =>
    exact ⟨rfl, rfl, secured_nil, fun h => Bool.noConfusion h, fun _ => ⟨rfl, rfl⟩, fun h => absurd rfl h,
      fun h => absurd h hnone, (fun j hj => nomatch hj), fun h => Bool.noConfusion h,
      fun _ => ⟨Nat.zero_le 1, fun _ => rfl, fun h => Bool.noConfusion h⟩⟩

/-- In a run of careful calls nothing is read, written or announced before the handshake is
done and the peer has been checked, and nothing after a check that has failed. -/
theorem SecureSession.careful_secured (r : SecureSession) (hcareful : r.Careful) : r.Secured := by
  have hsafe : Lib.Always (fun t => Guarded r.server t.socket ∨ Closed r.server t.socket) r.trace := by
    refine Lib.Trace.always _ ?_ ((Lib.trace_runTrace sessionCall r.start r.calls).restrict r.scheduled)
      (.inl (guarded_newSocket r.server r.securityLevel)) hcareful
    rintro t c t' (hguarded | hclosed) hcareful ⟨rfl, hscheduled⟩
    · exact guarded_call hguarded c hcareful hscheduled
    · exact .inr (hclosed.call c)
  intro x hx
  rcases hsafe x hx with hguarded | hclosed
  · exact hguarded.secured
  · exact hclosed.secured

/-- A client that connects, checks its server and reads a byte. -/
def connectedClient : SecureSession where
  server := false
  securityLevel := .encryptedTestOnly
  incoming := [.data 67 []]
  calls := [.call (.base (.connect .done)), .call (.base .dispatch),
    .call (.serviceConnect ⟨true, .none, fun _ => true, true⟩), .call (.base (.serviceConnected true false false (.wrote 0)))]
  scheduled := ⟨trivial, trivial, ⟨_, rfl, rfl⟩, ⟨_, rfl, rfl⟩, trivial⟩

theorem connectedClient_secured : connectedClient.Careful ∧ connectedClient.Secured := by
  have hcareful : connectedClient.Careful :=
    ⟨fun _ => ⟨rfl, .inr rfl⟩, fun _ => trivial, fun _ => trivial, fun _ => trivial, trivial⟩
  exact ⟨hcareful, connectedClient.careful_secured hcareful⟩

/-- A server that asks for the certificate of its peer shuts its input down in the middle of
the handshake: the handshake is gone on with as that of a client. -/
def shutWhileAccepting : SecureSession where
  server := true
  securityLevel := .peerAuth
  incoming := []
  calls := [.secureAccept, .call (.serviceAccept ⟨true, .wantRead, fun _ => false, true⟩),
    .call (.base .shutdownInput), .call (.serviceConnect ⟨true, .none, fun d => d = .trustedServers, true⟩)]
  scheduled := ⟨trivial, ⟨_, rfl, rfl⟩, trivial, ⟨_, rfl, rfl⟩, trivial⟩

theorem not_always_secured : ¬ ∀ r : SecureSession, r.Secured := by
  intro hall
  have hlast := hall shutWhileAccepting (shutWhileAccepting.trace.getLast (by decide)) (List.getLast_mem _)
  have huse := hlast [.sent .streamInputShutdown, .handshakeDone, .verified .trustedServers true]
    (.sent .dataSocketSecureConnected) [] rfl rfl
  exact absurd (huse.1.2.2 rfl rfl) (by decide)

end Synergy
