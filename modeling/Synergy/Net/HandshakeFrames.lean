import Mathlib.Data.List.Induction
import Synergy.Net.SecureReceived
import Synergy.Net.SecureSocket

/-! What a secure socket may read, write and announce, judged from what it has done before:
the handshake has been completed, the fingerprint check that its side and its security level
ask for has succeeded, and no check has failed. -/
namespace Synergy
open DataSocket

namespace SocketEntry

/-- Application bytes cross the TLS connection, or it is announced as secure. -/
def uses : SocketEntry → Bool
  | sslRead | sslWrite | sent .dataSocketSecureConnected | sent .clientListenerAccepted => true
  | _ => false

/-- The answer of a fingerprint check. -/
def verdict : SocketEntry → Bool
  | verified _ _ => true
  | _ => false

end SocketEntry

/-- The checks that the side and the security level ask for. -/
def Authenticated (server : Bool) (level : SecurityLevel) (log : List SocketEntry) : Prop :=
  .handshakeDone ∈ log ∧ (server = false → .verified .trustedServers true ∈ log) ∧
    (server = true → level = .peerAuth → .verified .trustedClients true ∈ log)

def Refused (log : List SocketEntry) : Prop := ∃ database, .verified database false ∈ log

/-- Whatever uses the connection comes after the checks, and not after a failed one. -/
def Secured (server : Bool) (level : SecurityLevel) (log : List SocketEntry) : Prop :=
  ∀ earlier entry later, log = earlier ++ entry :: later → entry.uses = true →
    Authenticated server level earlier ∧ ¬ Refused earlier

variable {server : Bool} {level : SecurityLevel} {log entries : List SocketEntry} {entry : SocketEntry}

theorem secured_nil : Secured server level [] := by
  intro earlier entry later h
  exact absurd h.symm (List.append_ne_nil_of_right_ne_nil _ (List.cons_ne_nil _ _))

theorem Authenticated.append (h : Authenticated server level log) (entries : List SocketEntry) :
    Authenticated server level (log ++ entries) := by
  obtain ⟨hdone, hclient, hserver⟩ := h
  refine ⟨List.mem_append_left _ hdone, fun hs => ?_, fun hs hl => ?_⟩
  · exact List.mem_append_left _ (hclient hs)
  · exact List.mem_append_left _ (hserver hs hl)

/-- Only the answer of a check makes a difference. -/
theorem refused_append (h : ∀ e ∈ entries, e.verdict = false) : Refused (log ++ entries) ↔ Refused log := by
  refine exists_congr fun database => ?_
  rw [List.mem_append, or_iff_left]
  exact fun hmem => Bool.noConfusion (h _ hmem)

theorem secured_concat : Secured server level (log ++ [entry]) ↔
    Secured server level log ∧ (entry.uses = true → Authenticated server level log ∧ ¬ Refused log) := by
  constructor
  · intro h
    refine ⟨fun earlier e later hlog => h earlier e (later ++ [entry]) ?_, h log entry [] rfl⟩
    rw [hlog, List.append_assoc, List.cons_append]
  · rintro ⟨hlog, hentry⟩ earlier e later hsplit huses
    rcases List.eq_nil_or_concat later with rfl | ⟨later, last, rfl⟩
    · obtain ⟨rfl, hlast⟩ := List.append_inj' hsplit rfl
      obtain rfl : entry = e := List.head_eq_of_cons_eq hlast
      exact hentry huses
    · rw [List.concat_eq_append, ← List.cons_append, ← List.append_assoc] at hsplit
      exact hlog earlier e later (List.append_inj' hsplit rfl).1 huses

/-- What is no use can be appended. -/
theorem Secured.append (h : Secured server level log) (hentries : ∀ e ∈ entries, e.uses = false) :
    Secured server level (log ++ entries) := by
  induction entries using List.reverseRecOn with
  | nil => rwa [List.append_nil]
  | append_singleton entries entry ih =>
    rw [← List.append_assoc, secured_concat]
    refine ⟨ih fun e he => hentries e (List.mem_append_left _ he), fun huses => ?_⟩
    rw [hentries entry (List.mem_append_right _ List.mem_cons_self)] at huses
    exact Bool.noConfusion huses

/-- After the checks anything can be appended but the answer of another one. -/
theorem Secured.append_of_authenticated (h : Secured server level log) (hauth : Authenticated server level log)
    (hrefused : ¬ Refused log) (hentries : ∀ e ∈ entries, e.verdict = false) :
    Secured server level (log ++ entries) := by
  induction entries using List.reverseRecOn with
  | nil => rwa [List.append_nil]
  | append_singleton entries entry ih =>
    have hinit : ∀ e ∈ entries, e.verdict = false := fun e he => hentries e (List.mem_append_left _ he)
    rw [← List.append_assoc, secured_concat]
    exact ⟨ih hinit, fun _ => ⟨hauth.append entries, (refused_append hinit).not.mpr hrefused⟩⟩

/-- What happens to a secure socket: the two calls that start a handshake, and the others. -/
inductive SessionCall
  | secureConnect
  | secureAccept
  | call (c : SecureCall)

namespace SecureSocket

/-- The handshake of a connected socket is started, over whatever job it has. -/
def startConnect (s : DataSocket) : DataSocket := s.setJob (some ⟨.serviceConnect, s.readable, s.writable⟩)

def startAccept (s : DataSocket) : DataSocket := s.setJob (some ⟨.serviceAccept, s.readable, s.writable⟩)

def sessionCall (t : Linked SslRead) : SessionCall → Linked SslRead
  | .secureConnect => { t with socket := startConnect t.socket }
  | .secureAccept => { t with socket := startAccept t.socket }
  | .call c => call t c

/-- A socket made for a connection to a server. -/
def client (level : SecurityLevel) : DataSocket := initSsl { securityLevel := level }

/-- A socket made for an accepted connection. While it is built, its job is that of a plain one. -/
def accepted (level : SecurityLevel) : DataSocket :=
  let s : DataSocket := onConnected { securityLevel := level }
  initSsl (s.setJob (TCPSocket.newJob s))

/-- The job of the socket runs the service. -/
def runs (service : Service) (s : DataSocket) : Prop := ∃ job, s.job = some job ∧ job.service = service

/-- The multiplexer calls the service of the job; anything else may be called at any time. -/
def Scheduled (s : DataSocket) : SessionCall → Prop
  | .call (.serviceConnect _) => runs .serviceConnect s
  | .call (.serviceAccept _) => runs .serviceAccept s
  | .call (.base (.serviceConnecting _ _)) => runs .serviceConnecting s
  | .call (.base (.serviceConnected _ _ _ _)) => runs .serviceConnected s
  | _ => True

/-- The accepting side is in a handshake whose end asks for the fingerprint of the client. -/
def MidAccept (server : Bool) (s : DataSocket) : Prop :=
  server = true ∧ s.securityLevel = .peerAuth ∧ hasSsl s = true ∧ s.secureReady = false

/-- A call that renews the job does not come in the middle of such a handshake; and a
handshake is started once, on its own side, for a connection that is up. A closed socket is
called as one likes. -/
def Careful (server : Bool) (s : DataSocket) (c : SessionCall) : Prop := s.socket = true →
  match c with
  | .secureConnect => s.secureReady = false ∧
      if server then s.securityLevel ≠ .peerAuth else s.connected = true ∧ .dataSocketConnected ∉ s.queue
  | .secureAccept => server = true ∧ hasSsl s = false
  | .call (.base (.connect _)) => server = false ∧ (s.connected = true ∨ hasSsl s = false)
  | .call (.base (.write data)) => s.writable = true ∧ data ≠ [] ∧ s.outputBuffer = [] → ¬ MidAccept server s
  | .call (.base .shutdownInput) => s.readable = true → ¬ MidAccept server s
  | .call (.base .shutdownOutput) => s.writable = true → ¬ MidAccept server s
  | _ => True

end SecureSocket
end Synergy

/-! What the calls to a secure socket leave as it is outside of a handshake. -/
namespace Synergy
open DataSocket

/-- An entry that neither uses the connection nor says whether the peer is trusted. -/
def SocketEntry.Idle (entry : SocketEntry) : Prop := entry.uses = false ∧ entry.verdict = false

def SocketEntry.Unverdict (entry : SocketEntry) : Prop := entry.verdict = false

/-- The connected events that are still to be handled. -/
def pending (s : DataSocket) : Nat := s.queue.count .dataSocketConnected

/-- The connection and the state of its handshake stay as they are, and the log grows by
entries of one kind. -/
structure Frame (p : SocketEntry → Prop) (s t : DataSocket) : Prop where
  log : ∃ entries, t.log = s.log ++ entries ∧ ∀ e ∈ entries, p e
  members : (t.securityLevel, t.socket, t.connected, t.ssl, t.secureReady, t.watching) =
    (s.securityLevel, s.socket, s.connected, s.ssl, s.secureReady, s.watching)
  pending : pending t = pending s

/-- A frame within which the socket stays readable, and gets data only while it is. -/
structure Serves (s t : DataSocket) : Prop where
  frame : Frame SocketEntry.Unverdict s t
  readable : s.readable = true → t.readable = true
  buffered : t.inputBuffer = s.inputBuffer ∨ t.readable = true
  job : t.job = s.job

variable {p q : SocketEntry → Prop} {s t u : DataSocket}

namespace Frame

theorem rfl : Frame p s s := ⟨⟨[], (List.append_nil _).symm, fun _ h => nomatch h⟩, Eq.refl _, Eq.refl _⟩

theorem trans (h : Frame p s t) (h' : Frame p t u) : Frame p s u := by
  obtain ⟨entries, hlog, hp⟩ := h.log
  obtain ⟨more, hlog', hp'⟩ := h'.log
  refine ⟨⟨entries ++ more, by rw [hlog', hlog, List.append_assoc], ?_⟩, h'.members.trans h.members,
    h'.pending.trans h.pending⟩
  exact fun e he => (List.mem_append.mp he).elim (hp e) (hp' e)

theorem imp (hpq : ∀ e, p e → q e) (h : Frame p s t) : Frame q s t := by
  obtain ⟨entries, hlog, hp⟩ := h.log
  exact ⟨⟨entries, hlog, fun e he => hpq e (hp e he)⟩, h.members, h.pending⟩

theorem unverdict (h : Frame SocketEntry.Idle s t) : Frame SocketEntry.Unverdict s t := h.imp fun _ h => h.2

/-- Members change that are none of the frame. -/
theorem of_eq (hlog : t.log = s.log) (hqueue : t.queue = s.queue)
    (hmembers : (t.securityLevel, t.socket, t.connected, t.ssl, t.secureReady, t.watching) =
      (s.securityLevel, s.socket, s.connected, s.ssl, s.secureReady, s.watching)) : Frame p s t :=
  ⟨⟨[], by rw [hlog, List.append_nil], fun _ h => nomatch h⟩, hmembers, by rw [Synergy.pending, hqueue, Synergy.pending]⟩

theorem ite {c : Prop} [Decidable c] (h : Frame p s t) (h' : Frame p s u) : Frame p s (if c then t else u) := by
  split
  · exact h
  · exact h'

end Frame

theorem frame_note (s : DataSocket) {entry : SocketEntry} (h : p entry) : Frame p s (s.note entry) :=
  ⟨⟨[entry], rfl, fun _ he => List.mem_singleton.mp he ▸ h⟩, rfl, rfl⟩

theorem frame_sendEvent (s : DataSocket) {event : EventTypes} (h : p (.sent event)) (hevent : event ≠ .dataSocketConnected) :
    Frame p s (s.sendEvent event) := by
  refine ⟨⟨[.sent event], rfl, fun _ he => List.mem_singleton.mp he ▸ h⟩, rfl, ?_⟩
  unfold pending sendEvent
  rw [List.count_append, List.count_singleton, if_neg (by simpa using hevent)]
  rfl

namespace Serves

theorem rfl : Serves s s := ⟨.rfl, id, .inl (Eq.refl _), Eq.refl _⟩

theorem trans (h : Serves s t) (h' : Serves t u) : Serves s u := by
  refine ⟨h.frame.trans h'.frame, fun hs => h'.readable (h.readable hs), ?_, h'.job.trans h.job⟩
  rcases h'.buffered with hbuffer | hreadable
  · rcases h.buffered with hbuffer' | hreadable
    · exact .inl (hbuffer.trans hbuffer')
    · exact .inr (h'.readable hreadable)
  · exact .inr hreadable

theorem ite {c : Prop} [Decidable c] (h : Serves s t) (h' : Serves s u) : Serves s (if c then t else u) := by
  split
  · exact h
  · exact h'

/-- Nothing is read. -/
theorem of_frame (h : Frame SocketEntry.Unverdict s t) (hreadable : s.readable = true → t.readable = true)
    (hbuffer : t.inputBuffer = s.inputBuffer) (hjob : t.job = s.job) : Serves s t :=
  ⟨h, hreadable, .inl hbuffer, hjob⟩

end Serves

/-- Members change that are neither those of the frame nor those of the input. -/
theorem serves_of_eq (hlog : t.log = s.log) (hqueue : t.queue = s.queue)
    (hinput : (t.readable, t.inputBuffer, t.job) = (s.readable, s.inputBuffer, s.job))
    (hmembers : (t.securityLevel, t.socket, t.connected, t.ssl, t.secureReady, t.watching) =
      (s.securityLevel, s.socket, s.connected, s.ssl, s.secureReady, s.watching)) : Serves s t := by
  simp only [Prod.mk.injEq] at hinput
  exact .of_frame (.of_eq hlog hqueue hmembers) (fun hs => hinput.1.trans hs) hinput.2.1 hinput.2.2

theorem serves_sendEvent (s : DataSocket) {event : EventTypes} (hevent : event ≠ .dataSocketConnected) :
    Serves s (s.sendEvent event) :=
  .of_frame (frame_sendEvent s (Eq.refl _) hevent) id rfl rfl

namespace SecureSocket

theorem frame_disconnect (s : DataSocket) : Frame SocketEntry.Idle s (disconnect s) :=
  (frame_sendEvent s ⟨rfl, rfl⟩ (by decide)).trans (frame_sendEvent _ ⟨rfl, rfl⟩ (by decide))

theorem frame_checkResult (code : SslError) (s : DataSocket) : Frame SocketEntry.Idle s (checkResult code s).2 := by
  have hflags : Frame SocketEntry.Idle s (setFlags code s) := .of_eq rfl rfl rfl
  rw [checkResult_eq]
  split
  · exact hflags.trans (frame_disconnect _)
  · exact hflags

theorem serves_checkResult (code : SslError) (s : DataSocket) : Serves s (checkResult code s).2 := by
  obtain ⟨-, hbuffer, -, -, hreadable⟩ := checkResult_snd code s
  refine .of_frame (frame_checkResult code s).unverdict (fun hs => ?_) hbuffer ?_
  · rw [hreadable, hs, Bool.true_or]
  · rw [checkResult_eq]
    split <;> rfl

theorem serves_secureRead (r : SslRead) (s : DataSocket) : Serves s (secureRead r s).2 := by
  have hnote : Serves s (s.note .sslRead) := .of_frame (frame_note s (Eq.refl _)) id rfl rfl
  unfold secureRead
  split
  · exact hnote.trans (serves_checkResult _ _)
  · exact .rfl

theorem serves_secureWrite (answer : SslWrite) (s : DataSocket) : Serves s (secureWrite answer s).2 := by
  have hnote : Serves s (s.note .sslWrite) := .of_frame (frame_note s (Eq.refl _)) id rfl rfl
  unfold secureWrite
  split
  · exact hnote.trans (serves_checkResult _ _)
  · exact .rfl

/-- Data is stored while the socket is readable. -/
theorem serves_store (piece : Bytes) (hs : s.readable = true) : Serves s (s.store piece) := by
  have hnote : Frame SocketEntry.Unverdict s (s.note (.stored piece)) := frame_note s (Eq.refl _)
  exact ⟨hnote.trans (.of_eq rfl rfl rfl), id, .inr hs, rfl⟩

theorem serves_slurp (incoming : List SslRead) {s : DataSocket} (piece : Bytes) (hs : s.readable = true) :
    Serves s (slurp s piece incoming).socket := by
  induction incoming generalizing s piece with
  | nil =>
    have hstore := serves_store piece hs
    unfold slurp
    simp only
    split
    · exact hstore.trans (serves_of_eq rfl rfl rfl rfl)
    · exact hstore.trans (serves_secureRead _ _)
  | cons r incoming ih =>
    have hstore := serves_store piece hs
    have hread := hstore.trans (serves_secureRead r _)
    unfold slurp
    simp only
    split_ifs
    · exact hstore.trans (serves_of_eq rfl rfl rfl rfl)
    · exact hread
    · exact hread.trans (ih r.bytes (hread.readable hs))
    · exact hread

theorem serves_announce {wasEmpty : Bool} {served : Served SslRead} (h : Serves s served.socket) :
    Serves s (announce wasEmpty served).socket := by
  rcases served with ⟨t, rest, result⟩
  unfold announce
  split
  · exact h
  · unfold TCPSocket.announce
    split
    next heq =>
      cases heq
      exact h.trans (.ite (serves_sendEvent _ (by decide)) .rfl)
    · exact h

/-- A read that gives no byte is a retry or fatal, so that the input never hangs up. -/
theorem serves_doRead (incoming : List SslRead) (hs : s.readable = true) :
    Serves s (doRead incoming s).socket := by
  unfold doRead
  rcases nextAnswer incoming with ⟨r, rest⟩
  have hread := serves_secureRead r s
  simp only
  split_ifs with hready hneg hzero hbytes
  · exact .rfl
  · exact hread
  · exact hread
  · exact hread.trans (serves_announce (serves_slurp rest r.bytes (hread.readable hs)))
  · have hpos : 0 < (secureRead r s).1 := by omega
    exact absurd (secureRead_pos hpos).2.2 hbytes

theorem serves_discardWrittenData (s : DataSocket) (n : Nat) : Serves s (s.discardWrittenData n) := by
  have hdrop : Serves s { s with outputBuffer := s.outputBuffer.drop n } := serves_of_eq rfl rfl rfl rfl
  unfold discardWrittenData
  simp only
  split
  · refine (hdrop.trans (serves_sendEvent _ ?_)).trans (serves_of_eq rfl rfl rfl rfl)
    decide
  · exact hdrop

theorem serves_doWrite (answer : SslWrite) (s : DataSocket) : Serves s (doWrite answer s).1 := by
  obtain ⟨buffer, hbuffer⟩ := exists_filled s
  have hfill : Serves s { s with writeBuffer := buffer } := serves_of_eq rfl rfl rfl rfl
  have hwrite := hfill.trans (serves_secureWrite answer _)
  unfold doWrite
  simp only
  rw [hbuffer]
  split_ifs
  · exact hfill
  · exact hwrite
  · exact hwrite.trans (serves_of_eq rfl rfl rfl rfl)
  · refine Serves.trans ?_ (serves_discardWrittenData _ _)
    exact hwrite.trans (serves_of_eq rfl rfl rfl rfl)
  · exact hwrite.trans (serves_of_eq rfl rfl rfl rfl)

end SecureSocket
end Synergy
