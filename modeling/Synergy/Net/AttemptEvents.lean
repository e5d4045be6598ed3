import Mathlib.Data.List.Count
import Synergy.Net.QtDataSocket

/-! The events with which a Qt socket resolves an attempt to connect or the handshake of an
accepted connection, counted over the signals that its transport gives. -/
namespace Synergy

/-- The events that resolve an attempt of a client, and those of an accepted socket. -/
def SocketEntry.resolves (serverSide : Bool) : SocketEntry → Bool
  | .sent .dataSocketConnected | .sent .dataSocketSecureConnected | .sent (.dataSocketConnectionFailed _) => !serverSide
  | .sent .clientListenerAccepted | .sent .clientListenerDisconnectedOnAccept => serverSide
  | _ => false

/-- The signals of a socket, in an order that it can give them: errors at any time, connected
or encrypted at most once, disconnected at most once and last. -/
structure Signals where
  early : List (SocketError × String)
  connection : Option (Option PeerCertificate × List (SocketError × String))
  disconnected : Bool

namespace QtDataSocket

def resolutions (s : QtDataSocket) : Nat := s.log.countP (SocketEntry.resolves s.serverSide)

def onErrors (s : QtDataSocket) (errors : List (SocketError × String)) : QtDataSocket :=
  errors.foldl (fun s e => s.step (.errorOccurred e.1 e.2)) s

/-- The run over the signals; `greet` is how the connection is reported. -/
def onSignals (s : QtDataSocket) (greet : Option PeerCertificate → Call) (signals : Signals) : QtDataSocket :=
  let s := s.onErrors signals.early
  let s :=
    match signals.connection with
    | none => s
    | some (peer, late) => (s.step (greet peer)).onErrors late
  if signals.disconnected then s.step .disconnected else s

variable {s : QtDataSocket}

/-- The errors that are fatal by what has been before or by themselves. -/
def fatalErrors : Bool → List (SocketError × String) → Nat
  | _, [] => 0
  | fatal, e :: errors =>
    let fatal := fatal || e.1.isFatal
    (if fatal then 1 else 0) + fatalErrors fatal errors

theorem fatalErrors_true (errors : List (SocketError × String)) : fatalErrors true errors = errors.length := by
  induction errors with
  | nil => rfl
  | cons e errors ih =>
    change 1 + fatalErrors true errors = _
    rw [ih, List.length_cons, Nat.add_comm]

theorem fatalErrors_cons_false (e : SocketError × String) (errors : List (SocketError × String)) :
    fatalErrors false (e :: errors) = if e.1.isFatal then errors.length + 1 else fatalErrors false errors := by
  have hcons : fatalErrors false (e :: errors) = (if e.1.isFatal then 1 else 0) + fatalErrors e.1.isFatal errors := rfl
  rw [hcons]
  cases e.1.isFatal with
  | false => exact Nat.zero_add _
  | true => exact (Nat.add_comm ..).trans (by rw [fatalErrors_true]; rfl)

theorem fatalErrors_eq_zero {errors : List (SocketError × String)} :
    fatalErrors false errors = 0 ↔ ∀ e ∈ errors, e.1.isFatal = false := by
  induction errors with
  | nil => simp [fatalErrors]
  | cons e errors ih =>
    rw [fatalErrors_cons_false, List.forall_mem_cons, ← ih]
    cases e.1.isFatal <;> simp

/-- One fatal error in all: the last one, with none before it. -/
theorem fatalErrors_eq_one {errors : List (SocketError × String)} : fatalErrors false errors = 1 ↔
    ∃ early last, errors = early ++ [last] ∧ (∀ e ∈ early, e.1.isFatal = false) ∧ last.1.isFatal := by
  induction errors with
  | nil => simp [fatalErrors]
  | cons e errors ih =>
    rw [fatalErrors_cons_false]
    cases hfatal : e.1.isFatal with
    | true =>
      rw [if_pos rfl]
      constructor
      · intro hone
        have hnil : errors = [] := List.length_eq_zero_iff.mp (Nat.succ_injective hone)
        exact ⟨[], e, by rw [hnil]; rfl, by simp, hfatal⟩
      · rintro ⟨early, last, heq, hearly, -⟩
        cases early with
        | nil =>
          obtain ⟨-, rfl⟩ := List.cons.inj heq
          rfl
        | cons first early =>
          obtain ⟨rfl, -⟩ := List.cons.inj heq
          exact absurd (hearly e List.mem_cons_self) (by simp [hfatal])
    | false =>
      rw [if_neg Bool.false_ne_true, ih]
      constructor
      · rintro ⟨early, last, rfl, hearly, hlast⟩
        exact ⟨e :: early, last, rfl, List.forall_mem_cons.mpr ⟨hfatal, hearly⟩, hlast⟩
      · rintro ⟨early, last, heq, hearly, hlast⟩
        cases early with
        | nil =>
          obtain ⟨rfl, -⟩ := List.cons.inj heq
          exact absurd (hfatal.symm.trans hlast) Bool.false_ne_true
        | cons first early =>
          obtain ⟨rfl, rfl⟩ := List.cons.inj heq
          exact ⟨early, last, rfl, (List.forall_mem_cons.mp hearly).2, hlast⟩

theorem onErrors_cons (s : QtDataSocket) (e : SocketError × String) (errors : List (SocketError × String)) :
    s.onErrors (e :: errors) = (s.onErrorOccurred e.1 e.2).onErrors errors := rfl

theorem resolutions_sendEvent (s : QtDataSocket) (event : EventTypes) :
    (s.sendEvent event).resolutions = s.resolutions + if (SocketEntry.sent event).resolves s.serverSide then 1 else 0 := by
  unfold resolutions sendEvent note
  rw [List.countP_append, List.countP_singleton]

/-- What decides how the signals to come are reported. -/
structure Standing (s : QtDataSocket) (serverSide resolved fatal : Bool) (count : Nat) : Prop where
  side : s.serverSide = serverSide
  resolved : s.resolved = resolved
  fatal : s.transport.fatalError = fatal
  count : s.resolutions = count

variable {serverSide resolved fatal : Bool} {count : Nat}

/-- An event is sent that resolves an attempt, or one that does not. -/
theorem Standing.sendEvent (h : Standing s serverSide resolved fatal count) (event : EventTypes) :
    Standing (s.sendEvent event) serverSide resolved fatal
      (count + if (SocketEntry.sent event).resolves serverSide then 1 else 0) :=
  ⟨h.side, h.resolved, h.fatal, by rw [resolutions_sendEvent, h.count, h.side]⟩

/-- Members change that do not matter here. -/
theorem Standing.setFatal (h : Standing s serverSide resolved fatal count) (b : Bool) :
    Standing { s with transport := { s.transport with fatalError := b } } serverSide resolved b count :=
  ⟨h.side, h.resolved, rfl, h.count⟩

theorem Standing.setResolved (h : Standing s serverSide resolved fatal count) :
    Standing { s with resolved := true } serverSide true fatal count :=
  ⟨h.side, rfl, h.fatal, h.count⟩

/-- A fatal error of a client is reported as long as the attempt is unresolved. -/
theorem Standing.handleError_client (h : Standing s false false fatal count) (message : String) (now : Bool) :
    Standing (s.handleError message now) false false fatal (count + if now then 1 else 0) := by
  unfold handleError
  cases now with
  | false => exact h
  | true =>
    rw [h.resolved, h.side]
    exact h.sendEvent (.dataSocketConnectionFailed message)

/-- A fatal error resolves an accepted socket that is not yet. -/
theorem Standing.handleError_server (h : Standing s true false fatal count) (message : String) (now : Bool) :
    Standing (s.handleError message now) true now fatal (count + if now then 1 else 0) := by
  unfold handleError
  cases now with
  | false => exact h
  | true =>
    rw [h.resolved, if_neg (by decide), if_pos (by decide), if_pos h.side]
    exact h.setResolved.sendEvent .clientListenerDisconnectedOnAccept

/-- Nothing that is resolved is reported again. -/
theorem Standing.handleError_resolved (h : Standing s serverSide true fatal count) (message : String) (now : Bool) :
    Standing (s.handleError message now) serverSide true fatal count := by
  unfold handleError
  cases now with
  | false => exact h
  | true =>
    rw [h.resolved]
    exact h.sendEvent .streamOutputError

theorem onErrors_cons_of (h : Standing s serverSide resolved fatal count) (e : SocketError × String)
    (errors : List (SocketError × String)) : s.onErrors (e :: errors) =
      ({ s with transport := { s.transport with fatalError := fatal || e.1.isFatal } }.handleError e.2
        (fatal || e.1.isFatal)).onErrors errors := by
  rw [onErrors_cons, onErrorOccurred, h.fatal]

/-- The errors of a client that is not resolved. -/
theorem Standing.onErrors_client (h : Standing s false false fatal count) (errors : List (SocketError × String)) :
    ∃ fatal', Standing (s.onErrors errors) false false fatal' (count + fatalErrors fatal errors) := by
  induction errors generalizing s fatal count with
  | nil => exact ⟨fatal, h⟩
  | cons e errors ih =>
    rw [onErrors_cons_of h, fatalErrors, ← Nat.add_assoc]
    exact ih ((h.setFatal _).handleError_client e.2 _)

theorem Standing.onErrors_resolved (h : Standing s serverSide true fatal count) (errors : List (SocketError × String)) :
    ∃ fatal', Standing (s.onErrors errors) serverSide true fatal' count := by
  induction errors generalizing s fatal with
  | nil => exact ⟨fatal, h⟩
  | cons e errors ih =>
    rw [onErrors_cons_of h]
    exact ih ((h.setFatal _).handleError_resolved e.2 _)

/-- The errors of an accepted socket that is not resolved: the first fatal one resolves it. -/
theorem Standing.onErrors_server (h : Standing s true false false count) (errors : List (SocketError × String)) :
    ∃ fatal', Standing (s.onErrors errors) true (errors.any (·.1.isFatal)) fatal'
      (count + if errors.any (·.1.isFatal) then 1 else 0) := by
  induction errors generalizing s with
  | nil => exact ⟨false, h⟩
  | cons e errors ih =>
    rw [onErrors_cons_of h, Bool.false_or, List.any_cons]
    have hfirst := (h.setFatal e.1.isFatal).handleError_server e.2 e.1.isFatal
    cases hnow : e.1.isFatal with
    | false =>
      rw [hnow] at hfirst
      rw [Bool.false_or]
      exact ih hfirst
    | true =>
      rw [hnow] at hfirst
      rw [Bool.true_or]
      exact hfirst.onErrors_resolved errors

/-- What a peer that is turned away leaves. -/
theorem Standing.handleTlsFailure (h : Standing s serverSide resolved fatal count) (message : String) :
    Standing (s.handleTlsFailure message) serverSide (serverSide || resolved) fatal (count + 1) := by
  have hfailed : Standing { s with clientFatal := true, disconnected := true } serverSide resolved fatal count :=
    ⟨h.side, h.resolved, h.fatal, h.count⟩
  unfold QtDataSocket.handleTlsFailure
  simp only
  cases serverSide with
  | false =>
    rw [if_neg (by rw [h.side]; decide)]
    have hsent := hfailed.sendEvent (.dataSocketConnectionFailed message)
    exact ⟨hsent.side, hsent.resolved, hsent.fatal, hsent.count⟩
  | true =>
    rw [if_pos h.side]
    have hsent := hfailed.setResolved.sendEvent .clientListenerDisconnectedOnAccept
    exact ⟨hsent.side, hsent.resolved, hsent.fatal, hsent.count⟩

theorem Standing.handleConnected_rejected (h : Standing s serverSide resolved fatal count) {peer : Option PeerCertificate}
    (hrejects : s.rejects peer) :
    Standing (s.handleConnected peer) serverSide (serverSide || resolved) fatal (count + 1) := by
  obtain ⟨message, hfailure⟩ := Option.isSome_iff_exists.mp hrejects.2
  rw [QtDataSocket.handleConnected, if_neg (by simp [hrejects.1]), hfailure]
  exact h.handleTlsFailure message

/-- A connection whose peer is not turned away resolves the attempt. -/
theorem Standing.handleConnected (h : Standing s serverSide resolved fatal count) (htls : serverSide → s.wantsTls)
    {peer : Option PeerCertificate} (hrejects : ¬ s.rejects peer) :
    Standing (s.handleConnected peer) serverSide true fatal (count + 1) := by
  unfold QtDataSocket.handleConnected
  cases hwants : s.wantsTls with
  | false =>
    have hside : serverSide = false := by
      by_contra hserver
      exact Bool.false_ne_true (hwants.symm.trans (htls (by simpa using hserver)))
    subst hside
    exact h.setResolved.sendEvent .dataSocketConnected
  | true =>
    have hfailure : s.tlsFailure peer = none := by
      by_contra hsome
      exact hrejects ⟨hwants, Option.isSome_iff_ne_none.mpr hsome⟩
    rw [hfailure]
    have hsent := h.setResolved.sendEvent
    cases serverSide with
    | false =>
      have hevent : (if s.serverSide then EventTypes.clientListenerAccepted else .dataSocketSecureConnected) =
          .dataSocketSecureConnected := if_neg (by rw [h.side]; decide)
      simp only [hevent]
      exact hsent .dataSocketSecureConnected
    | true =>
      have hevent : (if s.serverSide then EventTypes.clientListenerAccepted else .dataSocketSecureConnected) =
          .clientListenerAccepted := if_pos h.side
      simp only [hevent]
      exact hsent .clientListenerAccepted

/-- An accepted socket is resolved by its connection, whatever becomes of the peer. -/
theorem Standing.handleConnected_server (h : Standing s true resolved fatal count) (htls : s.wantsTls)
    (peer : Option PeerCertificate) : Standing (s.handleConnected peer) true true fatal (count + 1) := by
  by_cases hrejects : s.rejects peer
  · exact h.handleConnected_rejected hrejects
  · exact h.handleConnected (fun _ => htls) hrejects

/-- The end of a connection is reported only for an accepted socket that is not resolved. -/
theorem Standing.handleDisconnected (h : Standing s serverSide resolved fatal count)
    (htls : serverSide → resolved = false → s.wantsTls)
    (hopen : serverSide → resolved = false → s.disconnected = false) :
    s.handleDisconnected.resolutions = count + if serverSide && !resolved then 1 else 0 := by
  have hdown : Standing { s with disconnected := true } serverSide resolved fatal count :=
    ⟨h.side, h.resolved, h.fatal, h.count⟩
  unfold QtDataSocket.handleDisconnected
  split
  next hgone =>
    rw [h.count]
    cases serverSide with
    | false => rfl
    | true =>
      cases resolved with
      | true => rfl
      | false => exact absurd ((hopen rfl rfl).symm.trans hgone) Bool.false_ne_true
  next hhere =>
    have hcond : (s.serverSide && s.wantsTls && !s.resolved) = (serverSide && !resolved) := by
      rw [h.side, h.resolved]
      cases serverSide with
      | false => rfl
      | true =>
        cases resolved with
        | false => rw [htls rfl rfl, Bool.true_and]
        | true => rw [Bool.not_true, Bool.and_false, Bool.and_false]
    simp only
    split
    next hserver =>
      have hserver : (serverSide && !resolved) = true := hcond.symm.trans hserver
      obtain ⟨rfl, -⟩ := Bool.and_eq_true_iff.mp hserver
      rw [if_pos hserver]
      exact (hdown.sendEvent .clientListenerDisconnectedOnAccept).count
    next hother =>
      rw [if_neg fun h => hother (hcond.trans h)]
      exact ((hdown.sendEvent .streamInputShutdown).sendEvent .socketDisconnected).count.trans (by cases serverSide <;> rfl)

/-- Errors neither end a connection nor change what the socket is. -/
theorem onErrors_members (s : QtDataSocket) (errors : List (SocketError × String)) :
    ((s.onErrors errors).disconnected, (s.onErrors errors).securityLevel) = (s.disconnected, s.securityLevel) := by
  induction errors generalizing s with
  | nil => rfl
  | cons e errors ih =>
    rw [onErrors_cons, ih]
    unfold onErrorOccurred handleError
    simp only
    split_ifs <;> rfl

theorem rejects_congr {t : QtDataSocket} (hlevel : t.securityLevel = s.securityLevel) (hside : t.serverSide = s.serverSide)
    (peer : Option PeerCertificate) : t.rejects peer ↔ s.rejects peer := by
  have hdatabase : t.checkedDatabase = s.checkedDatabase := by
    unfold checkedDatabase
    rw [hlevel, hside]
  unfold rejects wantsTls tlsFailure tlsFailure.untrusted
  rw [hlevel, hdatabase]

/-- The end of the signals. -/
theorem Standing.finish (h : Standing s serverSide resolved fatal count)
    (htls : serverSide → resolved = false → s.wantsTls)
    (hopen : serverSide → resolved = false → s.disconnected = false) (disconnected : Bool) :
    (if disconnected then s.step .disconnected else s).resolutions =
      count + if disconnected && serverSide && !resolved then 1 else 0 := by
  cases disconnected with
  | false => exact h.count
  | true =>
    have hdown : Standing { s with transport := { s.transport with connected := false } } serverSide resolved fatal count :=
      ⟨h.side, h.resolved, h.fatal, h.count⟩
    exact hdown.handleDisconnected htls hopen

end QtDataSocket
end Synergy
