import Synergy.Net.InputBuffer

/-! A secure socket loses nothing that it receives, but does not announce what it has read
into an empty buffer when the same slurp comes to the end of the stream. -/
namespace Synergy
open DataSocket

/-- After a slurp has stored `held` bytes, the next codes end it with a fatal one before the
high-water mark is reached. -/
def breaksOff (held : Nat) : List SslRead → Bool
  | [] => held < TCPSocket.inputBufferHighWater
  | r :: incoming =>
    held < TCPSocket.inputBufferHighWater &&
      (r.code.isFatal || (0 < r.bytes.length && breaksOff (held + r.bytes.length) incoming))

/-- The answers start with data, and the slurp of it breaks off. -/
def cutOff (incoming : List SslRead) : Bool :=
  let (r, incoming) := SecureSocket.nextAnswer incoming
  0 < r.bytes.length && breaksOff r.bytes.length incoming

namespace SecureSocket
variable {s t : DataSocket} {code : SslError} {count : Nat} {incoming : List SslRead}

theorem steady_disconnect (s : DataSocket) : Steady s (disconnect s) :=
  (steady_sendEvent s .socketDisconnected (by decide)).trans (steady_sendEvent _ .streamInputShutdown (by decide))

theorem steady_setFlags (code : SslError) (s : DataSocket) : Steady s (setFlags code s) := .of_eq rfl rfl

theorem checkResult_eq (code : SslError) (s : DataSocket) : checkResult code s =
    if s.fatal || code.isFatal then (false, disconnect (setFlags code s)) else (code.isRetry, setFlags code s) := rfl

theorem steady_checkResult (code : SslError) (s : DataSocket) : Steady s (checkResult code s).2 := by
  rw [checkResult_eq]
  split
  · exact (steady_setFlags code s).trans (steady_disconnect _)
  · exact steady_setFlags code s

/-- What the code does to the members that decide how the reading goes on. -/
theorem checkResult_snd (code : SslError) (s : DataSocket) :
    (checkResult code s).2.fatal = (s.fatal || code.isFatal) ∧ (checkResult code s).2.inputBuffer = s.inputBuffer ∧
      (checkResult code s).2.ssl = s.ssl ∧ (checkResult code s).2.secureReady = s.secureReady ∧
      (checkResult code s).2.readable = (s.readable || code = .wantRead) := by
  rw [checkResult_eq]
  split <;> exact ⟨rfl, rfl, rfl, rfl, rfl⟩

theorem statusOf_fst (code : SslError) (count : Nat) (s : DataSocket) :
    (statusOf code count s).1 = if s.fatal || code.isFatal then -1 else if code.isRetry then 0 else (count : Int) := by
  unfold statusOf
  simp only [(checkResult_snd code s).1]
  rw [checkResult_eq]
  cases s.fatal || code.isFatal <;> cases code.isRetry <;> rfl

theorem statusOf_snd (code : SslError) (count : Nat) (s : DataSocket) :
    (statusOf code count s).2 = (checkResult code s).2 := rfl

theorem steady_secureRead (r : SslRead) (s : DataSocket) : Steady s (secureRead r s).2 := by
  have hnote : Steady s (s.note .sslRead) := steady_note s rfl rfl fun _ h => nomatch h
  unfold secureRead
  split
  · exact hnote.trans (steady_checkResult _ _)
  · exact .rfl

/-- A read of a socket that is not fatal: its status, and what it leaves. -/
theorem secureRead_spec (r : SslRead) (hssl : hasSsl s = true) (hfatal : s.fatal = false) :
    (secureRead r s).1 = (if r.code.isFatal then -1 else (r.bytes.length : Int)) ∧
      (secureRead r s).2.inputBuffer = s.inputBuffer ∧ hasSsl (secureRead r s).2 = true ∧
      (secureRead r s).2.fatal = r.code.isFatal := by
  obtain ⟨hfatal', hbuffer, hssl', -⟩ := checkResult_snd r.code (s.note .sslRead)
  unfold secureRead
  rw [if_pos hssl, statusOf_snd]
  refine ⟨?_, hbuffer, ?_, hfatal'.trans ?_⟩
  · rw [statusOf_fst]
    cases r with
    | data first rest => simp [note, hfatal, SslRead.code, SslError.isFatal, SslError.isRetry, SslRead.bytes]
    | error code => cases code <;> simp [note, hfatal, SslRead.code, SslError.isFatal, SslError.isRetry, SslRead.bytes]
  · unfold hasSsl at hssl ⊢
    rw [hssl']
    exact hssl
  · simp [note, hfatal]

/-- Only a read of data through a connection that is not fatal has a positive status. -/
theorem secureRead_pos {r : SslRead} (h : 0 < (secureRead r s).1) :
    hasSsl s = true ∧ s.fatal = false ∧ 0 < r.bytes.length := by
  unfold secureRead at h
  split at h
  next hssl =>
    rw [statusOf_fst] at h
    cases hfatal : s.fatal with
    | true => simp [note, hfatal] at h
    | false =>
      refine ⟨hssl, rfl, ?_⟩
      split_ifs at h
      · simp at h
      · simp at h
      · exact_mod_cast h
  next => exact absurd h (lt_irrefl 0)

private theorem length_store (s : DataSocket) (piece : Bytes) :
    (s.store piece).inputBuffer.length = s.inputBuffer.length + piece.length := List.length_append

/-- What is stored, followed by anything. -/
private theorem receivedBytes_stored_ne {piece : Bytes} (hpiece : piece ≠ []) (entries : List SocketEntry) :
    receivedBytes (.stored piece :: entries) ≠ [] := fun h => hpiece (List.append_eq_nil_iff.mp h).1

/-- A piece that is stored when the mark is not reached, and the read after it. -/
private theorem grows_stored_read (r : SslRead) (s : DataSocket) (piece : Bytes) :
    ∃ entries, Grows s (secureRead r (s.store piece)).2 (.stored piece :: entries) ∧
      .sent .streamInputReady ∉ SocketEntry.stored piece :: entries := by
  obtain ⟨entries, hgrows, -, hunready⟩ := steady_secureRead r (s.store piece)
  exact ⟨entries, (grows_store s piece).trans hgrows, by simpa using hunready⟩

/-- The slurp stores what it reads and announces nothing itself; it may be broken off. -/
theorem slurp_spec (incoming : List SslRead) (s : DataSocket) {piece : Bytes} (hpiece : piece ≠ []) (hssl : hasSsl s = true)
    (hfatal : s.fatal = false) : ∃ entries, Grows s (slurp s piece incoming).socket entries ∧
      receivedBytes entries ≠ [] ∧ .sent .streamInputReady ∉ entries ∧ (slurp s piece incoming).result =
        .ok (if breaksOff (s.inputBuffer.length + piece.length) incoming then .break else .retry) := by
  induction incoming generalizing s piece with
  | nil =>
    unfold slurp
    simp only
    split
    next hfull =>
      rw [length_store] at hfull
      refine ⟨_, (grows_store s piece).follow rfl rfl, receivedBytes_stored_ne hpiece [], by simp, ?_⟩
      simp [breaksOff, Nat.not_lt.mpr hfull]
    next hfull =>
      rw [length_store] at hfull
      obtain ⟨entries, hgrows, hunready⟩ := grows_stored_read (.error .zeroReturn) s piece
      refine ⟨_, hgrows, receivedBytes_stored_ne hpiece entries, hunready, ?_⟩
      simp [(secureRead_spec (.error .zeroReturn) (s := s.store piece) hssl hfatal).1, breaksOff,
        Nat.lt_of_not_le hfull, SslRead.code, SslError.isFatal]
  | cons r incoming ih =>
    unfold slurp
    simp only
    split
    next hfull =>
      rw [length_store] at hfull
      refine ⟨_, (grows_store s piece).follow rfl rfl, receivedBytes_stored_ne hpiece [], by simp, ?_⟩
      simp [breaksOff, Nat.not_lt.mpr hfull]
    next hfull =>
      rw [length_store] at hfull
      obtain ⟨hstatus, hbuffer, hssl', hfatal'⟩ := secureRead_spec r (s := s.store piece) hssl hfatal
      obtain ⟨entries, hgrows, hunready⟩ := grows_stored_read r s piece
      rw [hstatus]
      cases hcode : r.code.isFatal with
      | true =>
        refine ⟨_, hgrows, receivedBytes_stored_ne hpiece entries, hunready, ?_⟩
        simp [breaksOff, Nat.lt_of_not_le hfull, hcode]
      | false =>
        rw [if_neg Bool.false_ne_true, if_neg (by omega : ¬ (r.bytes.length : Int) < 0)]
        split
        next hmore =>
          -- another piece: the slurp goes on with it
          have hmore : 0 < r.bytes.length := by simpa using hmore
          rw [hcode] at hfatal'
          obtain ⟨more, hgrows', -, hunready', hresult⟩ := ih _ (List.length_pos_iff.mp hmore) hssl' hfatal'
          refine ⟨_, hgrows.trans hgrows', receivedBytes_stored_ne hpiece _, ?_, ?_⟩
          · exact fun h => (List.mem_append.mp h).elim hunready hunready'
          · rw [hresult, hbuffer, length_store]
            simp [breaksOff, Nat.lt_of_not_le hfull, hcode, hmore]
        next hmore =>
          have hmore : ¬ 0 < r.bytes.length := fun h => hmore (.inl h)
          refine ⟨_, hgrows, receivedBytes_stored_ne hpiece entries, hunready, ?_⟩
          simp [breaksOff, hcode, hmore]

/-- After a slurp the data is announced, unless the slurp was broken off. -/
private theorem announce_spec {wasEmpty broken : Bool} {served : Served SslRead} {entries : List SocketEntry}
    (hresult : served.result = .ok (if broken then .break else .retry)) (h : Grows s served.socket entries)
    (hsome : receivedBytes entries ≠ []) (hunready : .sent .streamInputReady ∉ entries)
    (hempty : wasEmpty = s.inputBuffer.isEmpty) : (∃ result, (announce wasEmpty served).result = .ok result) ∧
      Fed (broken = true) s (announce wasEmpty served).socket := by
  rcases served with ⟨t, rest, result⟩
  obtain rfl : result = .ok (if broken then .break else .retry) := hresult
  cases broken with
  | true => exact ⟨⟨_, rfl⟩, _, h, fun _ => ⟨fun hready => absurd (hready hsome) hunready, fun hnot => absurd rfl hnot⟩⟩
  | false =>
    refine ⟨⟨_, rfl⟩, ?_⟩
    cases wasEmpty with
    | true =>
      refine ⟨_, h.trans (grows_sendEvent t .streamInputReady), fun _ => ⟨fun _ => Bool.false_ne_true, fun _ _ => ?_⟩⟩
      exact List.mem_append_right _ List.mem_cons_self
    | false =>
      refine ⟨_, h, fun hnone => ?_⟩
      rw [hnone] at hempty
      cases hempty

/-- A read announces what comes into an empty buffer, unless the slurp is broken off. -/
theorem doRead_spec (incoming : List SslRead) (s : DataSocket) :
    (∃ result, (doRead incoming s).result = .ok result) ∧
      Fed (s.secureReady ∧ hasSsl s ∧ s.fatal = false ∧ cutOff incoming) s (doRead incoming s).socket := by
  unfold doRead cutOff
  rcases nextAnswer incoming with ⟨r, rest⟩
  have hsteady := steady_secureRead r s
  cases hready : s.secureReady with
  | false => exact ⟨⟨_, rfl⟩, Steady.rfl.fed (by simp)⟩
  | true =>
    simp only [Bool.not_true, Bool.false_eq_true, if_false]
    by_cases hread : hasSsl s = true ∧ s.fatal = false ∧ 0 < r.bytes.length
    · obtain ⟨hssl, hfatal, hmore⟩ := hread
      obtain ⟨hstatus, hbuffer, hssl', hfatal'⟩ := secureRead_spec r hssl hfatal
      have hcode : r.code.isFatal = false := by
        cases r with
        | data first more => rfl
        | error code => exact absurd hmore (Nat.lt_irrefl 0)
      rw [hcode] at hstatus hfatal'
      have hpos : 0 < (secureRead r s).1 := by
        rw [hstatus, if_neg Bool.false_ne_true]
        exact_mod_cast hmore
      rw [if_neg (by omega), if_neg (by omega), if_pos hmore]
      obtain ⟨entries, hgrows, hsome, hunready, hresult⟩ :=
        slurp_spec rest (secureRead r s).2 (List.length_pos_iff.mp hmore) hssl' hfatal'
      obtain ⟨hok, more, hgrows', hmissed⟩ := announce_spec hresult hgrows hsome hunready rfl
      refine ⟨hok, Fed.after ⟨more, hgrows', fun hempty => ?_⟩ hsteady⟩
      rw [hmissed hempty, hempty]
      simp [hssl, hfatal, hmore]
    · have hnot : ¬ (True ∧ hasSsl s = true ∧ s.fatal = false ∧
          (decide (0 < r.bytes.length) && breaksOff r.bytes.length rest) = true) := by
        rintro ⟨-, hssl, hfatal, hcut⟩
        exact hread ⟨hssl, hfatal, of_decide_eq_true (Bool.and_eq_true_iff.mp hcut).1⟩
      split
      · exact ⟨⟨_, rfl⟩, hsteady.fed hnot⟩
      · rw [if_pos (by
          have := mt secureRead_pos hread
          omega)]
        exact ⟨⟨_, rfl⟩, hsteady.fed hnot⟩

/-- A write calls the library. -/
def writes (s : DataSocket) : Bool := writeSize s ≠ 0 && s.secureReady && hasSsl s

/-- What a write leaves as it is, and when the socket is readable after it. -/
structure Written (answer : SslWrite) (s t : DataSocket) : Prop where
  steady : Steady s t
  secureReady : t.secureReady = s.secureReady
  ssl : hasSsl t = hasSsl s
  fatal : t.fatal = s.fatal
  readable : t.readable = (s.readable || (writes s && answer.code = .wantRead))

/-- Members change after a write that do not decide how the reading goes on. -/
theorem Written.follow {answer : SslWrite} {u : DataSocket} (h : Written answer s t) (hsteady : Steady t u)
    (hmembers : (u.secureReady, u.ssl, u.fatal, u.readable) = (t.secureReady, t.ssl, t.fatal, t.readable)) :
    Written answer s u := by
  simp only [Prod.mk.injEq] at hmembers
  obtain ⟨hready, hssl, hfatal, hreadable⟩ := hmembers
  refine ⟨h.steady.trans hsteady, hready.trans h.secureReady, ?_, hfatal.trans h.fatal, hreadable.trans h.readable⟩
  rw [← h.ssl, hasSsl, hssl, hasSsl]

/-- The write buffer, filled unless it is to be written again. -/
theorem exists_filled (s : DataSocket) : ∃ buffer,
    (if s.writeRetry || writeSize s = 0 then s else { s with writeBuffer := s.outputBuffer }) =
      { s with writeBuffer := buffer } := by
  split
  · exact ⟨s.writeBuffer, rfl⟩
  · exact ⟨s.outputBuffer, rfl⟩

theorem steady_handshakeDone (s : DataSocket) : Steady s (finished s) := steady_note s rfl rfl fun _ h => nomatch h

theorem steady_verifyCertFingerprint (database : FingerprintDatabase) (h : Handshake) (s : DataSocket) :
    Steady s (verifyCertFingerprint database h s).2 :=
  steady_note s rfl rfl fun _ h => nomatch h

theorem steady_secureConnect (h : Handshake) (s : DataSocket) : Steady s (secureConnect h s).2 := by
  have hchecked : Steady s (checkResult h.code (createSSL s)).2 :=
    (Steady.of_eq (s := s) (t := createSSL s) rfl rfl).trans (steady_checkResult _ _)
  have hverified : Steady s
      (verifyCertFingerprint .trustedServers h { finished (checkResult h.code (createSSL s)).2 with secureReady := true }).2 := by
    refine Steady.trans ?_ (steady_verifyCertFingerprint ..)
    exact (hchecked.trans (steady_handshakeDone _)).follow rfl rfl
  unfold secureConnect
  simp only
  split_ifs
  · exact steady_disconnect s
  · exact hchecked
  · exact hchecked.follow rfl rfl
  · exact hverified
  · exact hverified.trans (steady_disconnect _)

theorem steady_secureAccept (h : Handshake) (s : DataSocket) : Steady s (secureAccept h s).2 := by
  have hchecked : Steady s (checkResult h.code (createSSL s)).2 :=
    (Steady.of_eq (s := s) (t := createSSL s) rfl rfl).trans (steady_checkResult _ _)
  have hfinished := hchecked.trans (steady_handshakeDone _)
  have hverified := hfinished.trans (steady_verifyCertFingerprint .trustedClients h _)
  unfold secureAccept
  simp only
  split_ifs
  · exact hchecked.follow rfl rfl
  · exact hchecked.follow rfl rfl
  · exact hverified.follow rfl rfl
  · exact hverified.trans (steady_disconnect _)
  · exact hfinished.follow rfl rfl

/-- A handshake succeeds: both flags are set and the event is sent. -/
private theorem steady_ready (h : Steady s t) {event : EventTypes} (hevent : event ≠ .streamInputReady)
    (job : Option SocketJob) :
    Steady s (({ t with readable := true, writable := true }.sendEvent event).setJob job) := by
  have hflags : Steady s { t with readable := true, writable := true } := h.follow rfl rfl
  exact (hflags.trans (steady_sendEvent _ event hevent)).follow rfl rfl

theorem steady_serviceConnect (h : Handshake) (s : DataSocket) : Steady s (serviceConnect h s) := by
  have hreset : Steady s (resetFlags s) := .of_eq rfl rfl
  have hconnect := hreset.trans (steady_secureConnect h _)
  unfold serviceConnect
  simp only
  split_ifs
  · exact hconnect.follow rfl rfl
  · exact steady_ready hconnect (by decide) _
  all_goals exact hconnect.follow rfl rfl

theorem steady_serviceAccept (h : Handshake) (s : DataSocket) : Steady s (serviceAccept h s) := by
  have hreset : Steady s (resetFlags s) := .of_eq rfl rfl
  have haccept := hreset.trans (steady_secureAccept h _)
  unfold serviceAccept
  simp only
  split_ifs
  · exact (haccept.trans (steady_sendEvent _ .clientListenerDisconnectedOnAccept (by decide))).follow rfl rfl
  · exact steady_ready haccept (by decide) _
  all_goals exact haccept.follow rfl rfl

theorem steady_dispatch (s : DataSocket) : Steady s (SecureSocket.methods.dispatch s) := by
  unfold SocketClass.dispatch
  split
  · exact .rfl
  · refine .ite ?_ (.of_eq rfl rfl)
    exact .ite (.of_eq rfl rfl) (.of_eq rfl rfl)

/-- The lower layer ends in order: no call but a read meets a fatal code or an error. -/
def Orderly : SecureCall → Prop
  | .base (.serviceConnecting failure _) => failure = none
  | .base (.serviceConnected _ _ error answer) => error = false ∧ answer.code.isFatal = false
  | _ => True

/-- What a call other than a read of the stream does to the input. -/
theorem call_steady {t : Linked SslRead} {c : SecureCall} (hc : Orderly c) (hread : ∀ read write error answer,
    c ≠ .base (.serviceConnected read write error answer)) :
    if c.closes then NoneReceived t.socket (call t c).socket else Steady t.socket (call t c).socket := by
  cases c with
  | serviceConnect h => exact steady_serviceConnect h t.socket
  | serviceAccept h => exact steady_serviceAccept h t.socket
  | base c =>
    cases c with
    | connect answer =>
      have hwatch : Steady t.socket { t.socket with watching := true } := .of_eq rfl rfl
      exact hwatch.trans (TCPSocket.steady_connect _ answer _)
    | dispatch => exact steady_dispatch t.socket
    | serviceConnecting failure write =>
      obtain rfl : failure = none := hc
      exact TCPSocket.steady_serviceConnecting _ write t.socket
    | serviceConnected read write error answer => exact absurd rfl (hread read write error answer)
    | read n => exact TCPSocket.steady_read _ n t.socket
    | write data => exact TCPSocket.steady_write _ data t.socket
    | shutdownInput => exact TCPSocket.noneReceived_shutdownInput _ t.socket
    | shutdownOutput => exact TCPSocket.steady_shutdownOutput _ t.socket
    | close => exact (Steady.of_eq (t := freeSSL t.socket) rfl rfl).noneReceived.trans (TCPSocket.noneReceived_close _)

end SecureSocket
end Synergy
