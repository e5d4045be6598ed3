import Synergy.Net.AttemptEvents

/-! How the attempts of Qt sockets to connect, and the handshakes of accepted ones, are
reported to the rest of the program. -/
namespace Synergy

/-- A client that connects. A TLS socket whose certificate cannot be loaded is not told to,
and gives no signals; any other gives at least one until its transport has come to an end. -/
structure ClientAttempt where
  securityLevel : SecurityLevel
  certificateLoads : Bool
  signals : Signals
  ended : signals.early ≠ [] ∨ signals.connection.isSome ∨ signals.disconnected

/-- An accepted TLS socket, with what the socket under its transport says of itself when it
is wrapped. -/
structure AcceptedSocket where
  securityLevel : SecurityLevel
  tls : securityLevel ≠ .plainText
  connectedState : Bool
  isEncrypted : Bool
  isOpen : Bool
  signals : Signals
  ended : signals.early ≠ [] ∨ signals.connection.isSome ∨ signals.disconnected ∨ connectedState = false

namespace ClientAttempt
variable (a : ClientAttempt)

def start : QtDataSocket := { securityLevel := a.securityLevel }

/-- The socket under the transport is told to connect. -/
def asked : Bool := !a.start.wantsTls || a.certificateLoads

def outcome : QtDataSocket :=
  let s := a.start.connect a.certificateLoads
  if a.asked then s.onSignals .connected a.signals else s

/-- One event comes of the attempt. -/
def Reported : Prop := a.asked ∧
  match a.signals.connection with
  | none => ∃ early last, a.signals.early = early ++ [last] ∧ (∀ e ∈ early, e.1.isFatal = false) ∧ last.1.isFatal
  | some (peer, late) => (∀ e ∈ a.signals.early, e.1.isFatal = false) ∧
      (¬ a.start.rejects peer ∨ ∀ e ∈ late, e.1.isFatal = false)

end ClientAttempt

namespace AcceptedSocket
variable (a : AcceptedSocket)

def start : QtDataSocket := .accepted a.securityLevel a.connectedState a.isEncrypted a.isOpen

/-- The connection of a socket that was encrypted before is replayed. -/
def outcome : QtDataSocket := a.start.onSignals (if a.isEncrypted then .replayed else .connected) a.signals

/-- One event comes of the handshake. -/
def Reported : Prop :=
  match a.signals.connection with
  | none => a.start.resolved = false ∧ ((∃ e ∈ a.signals.early, e.1.isFatal) ∨ a.signals.disconnected)
  | some _ => a.start.resolved ∨ ∀ e ∈ a.signals.early, e.1.isFatal = false

end AcceptedSocket

open QtDataSocket

/-- A client that is told to connect reports its fatal errors before the connection, the
connection, and the fatal errors after it when it turns the peer away. -/
theorem ClientAttempt.resolutions_of_asked (a : ClientAttempt) (hasked : a.asked = true) : a.outcome.resolutions =
    fatalErrors false a.signals.early +
      a.signals.connection.elim 0 fun c => 1 + if a.start.rejects c.1 then fatalErrors false c.2 else 0 := by
  have hconnect : a.start.connect a.certificateLoads = a.start := by
    unfold QtDataSocket.connect
    refine if_neg fun h => ?_
    unfold asked at hasked
    cases hwants : a.start.wantsTls <;> simp [hwants] at h hasked
    exact Bool.false_ne_true (h.symm.trans hasked)
  have hstart : Standing a.start false false false 0 := ⟨rfl, rfl, rfl, rfl⟩
  obtain ⟨fatal, hearly⟩ := hstart.onErrors_client a.signals.early
  unfold outcome onSignals
  simp only
  rw [if_pos hasked, hconnect]
  cases hconnection : a.signals.connection with
  | none =>
    rw [hearly.finish (fun h => nomatch h) (fun h => nomatch h), Nat.zero_add]
    cases a.signals.disconnected <;> rfl
  | some connection =>
    obtain ⟨peer, late⟩ := connection
    have hrejects : (a.start.onErrors a.signals.early).rejects peer ↔ a.start.rejects peer :=
      rejects_congr (congrArg Prod.snd (onErrors_members _ _)) (hearly.side.trans hstart.side.symm) peer
    have hup : Standing { a.start.onErrors a.signals.early with
        transport := { (a.start.onErrors a.signals.early).transport with connected := true, fatalError := false } }
        false false false (0 + fatalErrors false a.signals.early) :=
      ⟨hearly.side, hearly.resolved, rfl, hearly.count⟩
    have hnone : ∀ b : Bool, (if a.signals.disconnected && false && b then 1 else 0) = 0 := fun b => by
      rw [Bool.and_false, Bool.false_and]
      rfl
    by_cases hr : a.start.rejects peer
    · obtain ⟨_, hlate⟩ := (hup.handleConnected_rejected (hrejects.mpr hr)).onErrors_client late
      refine (hlate.finish (fun h => nomatch h) (fun h => nomatch h) _).trans ?_
      rw [hnone]
      simp only [Option.elim, if_pos hr]
      omega
    · obtain ⟨_, hlate⟩ :=
        (hup.handleConnected (fun h => nomatch h) fun h => hr (hrejects.mp h)).onErrors_resolved late
      refine (hlate.finish (fun h => nomatch h) (fun h => nomatch h) _).trans ?_
      rw [hnone]
      simp only [Option.elim, if_neg hr]
      omega

theorem ClientAttempt.resolved_once_iff (a : ClientAttempt) : a.outcome.resolutions = 1 ↔ a.Reported := by
  unfold Reported
  cases hasked : a.asked with
  | false =>
    have hquiet : (a.start.connect a.certificateLoads).resolutions = 0 := by
      unfold QtDataSocket.connect
      split <;> rfl
    rw [outcome, if_neg (by rw [hasked]; exact Bool.false_ne_true), hquiet]
    exact iff_of_false Nat.zero_ne_one fun h => Bool.false_ne_true h.1
  | true =>
    rw [a.resolutions_of_asked hasked, eq_self, true_and]
    cases hconnection : a.signals.connection with
    | none => exact fatalErrors_eq_one
    | some connection =>
      obtain ⟨peer, late⟩ := connection
      simp only [Option.elim]
      by_cases hr : a.start.rejects peer
      · rw [if_pos hr, ← fatalErrors_eq_zero, ← fatalErrors_eq_zero, or_iff_right (not_not.mpr hr)]
        omega
      · rw [if_neg hr, ← fatalErrors_eq_zero, and_iff_left (.inl hr)]
        omega

/-- An accepted socket reports a fatal error before its handshake if it is not resolved then,
the handshake, and without one its end if nothing has been reported. -/
theorem AcceptedSocket.resolutions_eq (a : AcceptedSocket) : a.outcome.resolutions =
    (if !a.start.resolved && a.signals.early.any (·.1.isFatal) then 1 else 0) + match a.signals.connection with
      | none => if a.signals.disconnected && !a.start.resolved && !a.signals.early.any (·.1.isFatal) then 1 else 0
      | some _ => 1 := by
  have htls : a.start.wantsTls = true := by
    have hlevel := a.tls
    unfold start accepted wantsTls
    cases h : a.securityLevel <;> simp_all
  have hearly : ∃ fatal, Standing (a.start.onErrors a.signals.early) true
      (a.start.resolved || a.signals.early.any (·.1.isFatal)) fatal
      (if !a.start.resolved && a.signals.early.any (·.1.isFatal) then 1 else 0) := by
    have hstart : Standing a.start true a.start.resolved false 0 := ⟨rfl, rfl, rfl, rfl⟩
    cases hresolved : a.start.resolved with
    | true => exact (hresolved ▸ hstart).onErrors_resolved _
    | false =>
      obtain ⟨fatal, h⟩ := (hresolved ▸ hstart).onErrors_server a.signals.early
      rw [Nat.zero_add] at h
      exact ⟨fatal, h⟩
  obtain ⟨fatal, hearly⟩ := hearly
  have hmembers := onErrors_members a.start a.signals.early
  simp only [Prod.mk.injEq] at hmembers
  have hwants : (a.start.onErrors a.signals.early).wantsTls = true := by
    rw [wantsTls, hmembers.2]
    exact htls
  unfold outcome onSignals
  simp only
  cases hconnection : a.signals.connection with
  | none =>
    rw [hearly.finish (fun _ _ => hwants) fun _ _ => hmembers.1, Bool.and_true, Bool.not_or, ← Bool.and_assoc]
  | some connection =>
    obtain ⟨peer, late⟩ := connection
    have hgreeted : ∃ fatal, Standing ((a.start.onErrors a.signals.early).step
        ((if a.isEncrypted then Call.replayed else Call.connected) peer)) true true fatal
        ((if !a.start.resolved && a.signals.early.any (·.1.isFatal) then 1 else 0) + 1) := by
      cases a.isEncrypted with
      | true => exact ⟨_, hearly.handleConnected_server hwants peer⟩
      | false =>
        have hup : Standing { a.start.onErrors a.signals.early with
            transport := { (a.start.onErrors a.signals.early).transport with connected := true, fatalError := false } }
            true _ false _ :=
          ⟨hearly.side, hearly.resolved, rfl, hearly.count⟩
        exact ⟨_, hup.handleConnected_server hwants peer⟩
    obtain ⟨_, hgreeted⟩ := hgreeted
    obtain ⟨_, hlate⟩ := hgreeted.onErrors_resolved late
    rw [hlate.finish (fun _ h => nomatch h) (fun _ h => nomatch h), Bool.not_true, Bool.and_false]
    rfl

theorem AcceptedSocket.resolved_once_iff (a : AcceptedSocket) : a.outcome.resolutions = 1 ↔ a.Reported := by
  have hany : a.signals.early.any (·.1.isFatal) = true ↔ ∃ e ∈ a.signals.early, e.1.isFatal := List.any_eq_true
  have hnone : a.signals.early.any (·.1.isFatal) = false ↔ ∀ e ∈ a.signals.early, e.1.isFatal = false := by
    rw [List.any_eq_false]
    exact forall₂_congr fun e _ => Bool.not_eq_true _ ▸ Iff.rfl
  unfold Reported
  rw [a.resolutions_eq]
  cases hconnection : a.signals.connection with
  | none =>
    simp only [← hany]
    cases a.start.resolved <;> cases a.signals.early.any (·.1.isFatal) <;> cases a.signals.disconnected <;> simp
  | some connection =>
    simp only [← hnone]
    cases a.start.resolved <;> cases a.signals.early.any (·.1.isFatal) <;> simp

/-- An attempt of a client or the handshake of an accepted socket. -/
inductive ConnectionAttempt
  | client (attempt : ClientAttempt)
  | accepted (socket : AcceptedSocket)

namespace ConnectionAttempt

/-- Exactly one event resolves the attempt. -/
def ResolvedOnce : ConnectionAttempt → Prop
  | client attempt => attempt.outcome.resolutions = 1
  | accepted socket => socket.outcome.resolutions = 1

def Reported : ConnectionAttempt → Prop
  | client attempt => attempt.Reported
  | accepted socket => socket.Reported

theorem resolvedOnce_iff (attempt : ConnectionAttempt) : attempt.ResolvedOnce ↔ attempt.Reported := by
  cases attempt with
  | client attempt => exact attempt.resolved_once_iff
  | accepted socket => exact socket.resolved_once_iff

/-- A connection that is refused. -/
def refused : ClientAttempt where
  securityLevel := .plainText
  certificateLoads := true
  signals := ⟨[(.connectionRefusedError, "Connection refused")], none, false⟩
  ended := .inl (List.cons_ne_nil _ _)

/-- A certificate that cannot be loaded. -/
def uncertified : ClientAttempt where
  securityLevel := .peerAuth
  certificateLoads := false
  signals := ⟨[], none, true⟩
  ended := .inr (.inr rfl)

/-- A fatal error that is followed by another. -/
def failedTwice : ClientAttempt where
  securityLevel := .plainText
  certificateLoads := true
  signals := ⟨[(.otherError, "Network unreachable"), (.otherError, "Host not found")], none, false⟩
  ended := .inl (List.cons_ne_nil _ _)

/-- An accepted socket whose handshake fails. -/
def brokenHandshake : AcceptedSocket where
  securityLevel := .peerAuth
  tls := by decide
  connectedState := true
  isEncrypted := false
  isOpen := true
  signals := ⟨[(.otherError, "Handshake failed")], none, true⟩
  ended := .inl (List.cons_ne_nil _ _)

/-- None of these is resolved by exactly one event. -/
theorem not_always_resolvedOnce : ¬ (client refused).ResolvedOnce ∧ ¬ (client uncertified).ResolvedOnce ∧
    ¬ (client failedTwice).ResolvedOnce ∧ ¬ (accepted brokenHandshake).ResolvedOnce := by
  unfold ResolvedOnce
  decide

end ConnectionAttempt
end Synergy
