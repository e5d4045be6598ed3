import Mathlib.Data.List.Chain
import Synergy.Net.OutputOrder

/-! The output of secure sockets, and of data sockets altogether: what is written is sent in order and once, until the
output is given up or the connection is fatal. -/
namespace Synergy
open DataSocket

namespace SecureSocket
variable {s t : DataSocket} {bytes : Bytes}

theorem hires_newJob (hsocket : s.socket = true) (hready : s.secureReady = true) : Hires SecureSocket.newJob s := by
  intro t hs hr
  have hjob : SecureSocket.newJob t = TCPSocket.newJob t := if_neg (by simp [hr, hready])
  rw [hjob]
  exact TCPSocket.hires_newJob hsocket t hs hr

/-! ### Calls to the TLS library -/

theorem unwritten_setFlags (code : SslError) (s : DataSocket) : Unwritten s (setFlags code s) where
  socket := rfl
  secureReady := rfl
  ssl := rfl
  outputBuffer := rfl
  retry := rfl
  fatal := fun h => by simp [setFlags, h]
  writable := fun h => by simp [setFlags, h]
  connected := fun _ => rfl
  disconnected := id

theorem unwritten_checkResult (code : SslError) (s : DataSocket) :
    Unwritten s (checkResult code s).2 ∧ (checkResult code s).2.job = s.job := by
  have hsent (u : DataSocket) : Idle u (disconnect u) := (idle_sendEvent u _).trans (idle_sendEvent _ _)
  rw [checkResult_eq]
  split
  · exact ⟨(unwritten_setFlags code s).trans (hsent _).toUnwritten, rfl⟩
  · exact ⟨unwritten_setFlags code s, rfl⟩

theorem statusOf_neg {code : SslError} {count : Nat} (h : (statusOf code count s).1 < 0) :
    (statusOf code count s).2.fatal = true := by
  rw [statusOf_snd, (checkResult_snd code s).1]
  rw [statusOf_fst] at h
  by_contra hnot
  rw [if_neg hnot] at h
  split_ifs at h
  · exact absurd h (lt_irrefl 0)
  · exact absurd h (Int.natCast_nonneg count).not_gt

theorem unwritten_secureRead (r : SslRead) (s : DataSocket) :
    Unwritten s (secureRead r s).2 ∧ (secureRead r s).2.job = s.job ∧
      ((secureRead r s).1 < 0 → (secureRead r s).2.fatal = true) := by
  have hnote : Idle s (s.note .sslRead) := .of_eq rfl rfl rfl
  obtain ⟨hchecked, hjob⟩ := unwritten_checkResult r.code (s.note .sslRead)
  unfold secureRead
  split
  · exact ⟨hnote.toUnwritten.trans hchecked, hjob, statusOf_neg⟩
  · exact ⟨Idle.rfl.toUnwritten, rfl, fun h => absurd h (lt_irrefl 0)⟩

theorem unwritten_secureWrite (answer : SslWrite) (s : DataSocket) : Unwritten s (secureWrite answer s).2 := by
  have hnote : Idle s (s.note .sslWrite) := .of_eq rfl rfl rfl
  unfold secureWrite
  split
  · exact hnote.toUnwritten.trans (unwritten_checkResult answer.code (s.note .sslWrite)).1
  · exact Idle.rfl.toUnwritten

/-- What a read leaves: the output as it was, and a socket that is fatal when the chain of jobs is broken off. -/
structure ReadOnly (s : DataSocket) (served : Served SslRead) : Prop where
  unwritten : Unwritten s served.socket
  job : served.socket.job = s.job
  fatal : served.result = .ok .break → served.socket.fatal = true
  ok : ∃ result, served.result = .ok result

theorem slurp_readOnly (incoming : List SslRead) (s : DataSocket) (piece : Bytes) :
    ReadOnly s (slurp s piece incoming) := by
  have hstored (s : DataSocket) (piece : Bytes) : Unwritten s (s.store piece) :=
    (Idle.of_eq rfl rfl rfl : Idle s (s.store piece)).toUnwritten
  have hpaused (s : DataSocket) (piece : Bytes) : Unwritten s { s.store piece with readPaused := true } :=
    (Idle.of_eq rfl rfl rfl : Idle s { s.store piece with readPaused := true }).toUnwritten
  induction incoming generalizing s piece with
  | nil =>
    obtain ⟨hread, hjob, hfatal⟩ := unwritten_secureRead (.error .zeroReturn) (s.store piece)
    unfold slurp
    simp only
    split
    · exact ⟨hpaused s piece, rfl, fun hbreak => (by cases hbreak), _, rfl⟩
    · refine ⟨(hstored s piece).trans hread, hjob, fun hbreak => ?_, _, rfl⟩
      by_contra hnot
      rw [if_neg (mt hfatal hnot)] at hbreak
      cases hbreak
  | cons r incoming ih =>
    obtain ⟨hread, hjob, hfatal⟩ := unwritten_secureRead r (s.store piece)
    unfold slurp
    simp only
    split_ifs with hfull hbroken hmore
    · exact ⟨hpaused s piece, rfl, fun hbreak => (by cases hbreak), _, rfl⟩
    · exact ⟨(hstored s piece).trans hread, hjob, fun _ => hfatal hbroken, _, rfl⟩
    · obtain ⟨hrest, hrestjob, hrestfatal, hok⟩ := ih (secureRead r (s.store piece)).2 r.bytes
      exact ⟨((hstored s piece).trans hread).trans hrest, hrestjob.trans hjob, hrestfatal, hok⟩
    · exact ⟨(hstored s piece).trans hread, hjob, fun hbreak => (by cases hbreak), _, rfl⟩

theorem ReadOnly.announce {served : Served SslRead} (h : ReadOnly s served) (wasEmpty : Bool) :
    ReadOnly s (announce wasEmpty served) := by
  obtain ⟨hsaid, hsaidjob, hsaidresult⟩ := TCPSocket.announce_idle wasEmpty served
  obtain ⟨result, hok⟩ := h.ok
  unfold SecureSocket.announce
  split
  · exact h
  next hnot =>
    refine ⟨h.unwritten.trans hsaid.toUnwritten, hsaidjob.trans h.job, fun hbreak => ?_, ?_⟩
    · exact absurd hbreak (hsaidresult fun hbroken => hnot hbroken)
    · rcases served with ⟨u, rest, r⟩
      obtain rfl : r = .ok result := hok
      exact ⟨_, rfl⟩

theorem doRead_readOnly (incoming : List SslRead) (s : DataSocket) : ReadOnly s (doRead incoming s) := by
  unfold doRead
  rcases nextAnswer incoming with ⟨r, rest⟩
  obtain ⟨hread, hjob, hfatal⟩ := unwritten_secureRead r s
  simp only
  split_ifs with hready hbroken hzero hmore
  · exact ⟨Idle.rfl.toUnwritten, rfl, nofun, _, rfl⟩
  · exact ⟨hread, hjob, fun _ => hfatal hbroken, _, rfl⟩
  · exact ⟨hread, hjob, nofun, _, rfl⟩
  · obtain ⟨hslurp, hslurpjob, hslurpfatal, hok⟩ :=
      (slurp_readOnly rest (secureRead r s).2 r.bytes).announce (secureRead r s).2.inputBuffer.isEmpty
    exact ⟨hread.trans hslurp, hslurpjob.trans hjob, hslurpfatal, hok⟩
  · obtain ⟨hhung, hhungjob⟩ := idle_inputHungUp (secureRead r s).2
    exact ⟨hread.trans hhung.toUnwritten, hhungjob.trans hjob, nofun, _, rfl⟩

theorem tryRead_unwritten (read : Bool) (incoming : List SslRead) (s : DataSocket) :
    Unwritten s (TCPSocket.tryRead doRead read incoming s).1 ∧
      (TCPSocket.tryRead doRead read incoming s).1.job = s.job ∧
      ((TCPSocket.tryRead doRead read incoming s).2.2 = .break →
        (TCPSocket.tryRead doRead read incoming s).1.fatal = true) := by
  obtain ⟨hread, hjob, hfatal, result, hok⟩ := doRead_readOnly incoming s
  cases read with
  | false => exact ⟨Idle.rfl.toUnwritten, rfl, nofun⟩
  | true =>
    rw [TCPSocket.tryRead_of_ok hok]
    split
    · exact ⟨hread, hjob, fun h => hfatal (hok.trans (congrArg Except.ok h))⟩
    · exact ⟨Idle.rfl.toUnwritten, rfl, nofun⟩

/-! ### Writes -/

/-- A connection is open. -/
structure Ready (s : DataSocket) : Prop where
  socket : s.socket = true
  connected : s.connected = true
  secureReady : s.secureReady = true
  ssl : hasSsl s = true
  writable : s.writable = true
  fatal : s.fatal = false

/-- A connection has ended. -/
structure Ended (s : DataSocket) : Prop where
  socket : s.socket = true
  secureReady : s.secureReady = true
  closed : s.connected = false ∨ s.fatal = true

theorem Ended.unwritten (h : Ended s) (hs : Unwritten s t) : Ended t :=
  ⟨hs.socket.trans h.socket, hs.secureReady.trans h.secureReady, h.closed.imp hs.disconnected hs.fatal⟩

theorem Ended.life (h : Ended s) (hs : t.life = s.life) : Ended t := by
  simp only [DataSocket.life, Prod.mk.injEq] at hs
  obtain ⟨hsocket, hready, -, hfatal, -, hconnected⟩ := hs
  exact ⟨hsocket.trans h.socket, hready.trans h.secureReady, h.closed.imp hconnected.trans hfatal.trans⟩

/-- The job that follows does not bring a connection back. -/
theorem Ended.nextJob (h : Ended s) (w r : JobResult) : Ended (TCPSocket.nextJob SecureSocket.newJob w r s) := by
  refine h.life ?_
  unfold TCPSocket.nextJob
  split_ifs
  · rfl
  · rfl
  · rfl

theorem Ready.unwritten (h : Ready s) (hs : Unwritten s t) (hfatal : t.fatal = false) : Ready t where
  socket := hs.socket.trans h.socket
  connected := (hs.connected h.writable).trans h.connected
  secureReady := hs.secureReady.trans h.secureReady
  ssl := by rw [hasSsl, hs.ssl, ← hasSsl, h.ssl]
  writable := hs.writable h.writable
  fatal := hfatal

/-- What is to be written again is at the front of the output. -/
def Retried (s : DataSocket) : Prop :=
  s.writeRetry = true →
    s.writeBuffer ≠ [] ∧ s.writeRetrySize = s.writeBuffer.length ∧ s.writeBuffer <+: s.outputBuffer

theorem offered_ready (h : Ready s) (hretry : Retried s) :
    (offered s = none ∧ s.writeRetry = false ∧ s.outputBuffer = []) ∨
      ∃ bytes, offered s = some bytes ∧ bytes = (if s.writeRetry then s.writeBuffer else s.outputBuffer) ∧
        writeSize s = bytes.length ∧ bytes ≠ [] ∧ bytes <+: s.outputBuffer := by
  have hoffered (hsize : writeSize s ≠ 0) :
      offered s = some ((if s.writeRetry then s.writeBuffer else s.outputBuffer).take (writeSize s)) :=
    if_neg (by simp [hsize, h.secureReady, h.ssl])
  cases hagain : s.writeRetry with
  | true =>
    obtain ⟨hsome, hlength, hfront⟩ := hretry hagain
    have hsize : writeSize s = s.writeBuffer.length := by rw [writeSize, if_pos hagain, hlength]
    refine .inr ⟨s.writeBuffer, ?_, rfl, hsize, hsome, hfront⟩
    rw [hoffered (hsize.trans_ne (mt List.length_eq_zero_iff.mp hsome)), hagain, if_pos rfl, hsize, List.take_length]
  | false =>
    have hsize : writeSize s = s.outputBuffer.length := by
      rw [writeSize, if_neg (by rw [hagain]; exact Bool.false_ne_true)]
    by_cases hempty : s.outputBuffer = []
    · exact .inl ⟨if_pos (by simp [hsize, hempty]), rfl, hempty⟩
    · refine .inr ⟨s.outputBuffer, ?_, rfl, hsize, hempty, List.prefix_rfl⟩
      rw [hoffered (hsize.trans_ne (mt List.length_eq_zero_iff.mp hempty)), hagain, if_neg Bool.false_ne_true, hsize,
        List.take_length]

/-- A write through an open connection. -/
theorem secureWrite_ready (answer : SslWrite) (hssl : hasSsl s = true) (hfatal : s.fatal = false) :
    (answer.code.isFatal = true ∧ (secureWrite answer s).1 = -1 ∧ (secureWrite answer s).2.fatal = true) ∨
      (secureWrite answer s = (if answer.code.isRetry then 0 else (answer.count : Int),
        setFlags answer.code (s.note .sslWrite)) ∧ answer.code.isFatal = false) := by
  have hfst := statusOf_fst answer.code answer.count (s.note .sslWrite)
  have hsnd := statusOf_snd answer.code answer.count (s.note .sslWrite)
  have hnote : (s.note .sslWrite).fatal = false := hfatal
  have hwrite : secureWrite answer s = statusOf answer.code answer.count (s.note .sslWrite) := if_pos hssl
  rw [hwrite]
  rw [hnote, Bool.false_or] at hfst
  rw [checkResult_eq, hnote, Bool.false_or] at hsnd
  cases hcode : answer.code.isFatal with
  | true =>
    rw [hcode, if_pos rfl] at hfst hsnd
    refine .inl ⟨rfl, hfst, ?_⟩
    rw [hsnd]
    simp [disconnect, sendEvent, note, setFlags, hcode]
  | false =>
    rw [hcode, if_neg Bool.false_ne_true] at hfst hsnd
    exact .inr ⟨Prod.ext hfst hsnd, rfl⟩

/-- The calls of a write, once the bytes to write are in the write buffer. -/
private theorem doWrite_called (h : Ready s) (hretry : Retried s) (hoffered : offered s = some bytes)
    (answer : SslWrite) :
    doWrite answer s =
      let written := secureWrite answer { s with writeBuffer := bytes }
      if written.1 < 0 then (written.2, .ok .break)
      else if written.1 = 0 then ({ written.2 with writeRetry := true, writeRetrySize := bytes.length }, .ok .new)
      else
        let t := { written.2 with writeRetry := false }
        if 0 < answer.count then (t.discardWrittenData answer.count, .ok .new) else (t, .ok .retry) := by
  rcases offered_ready h hretry with ⟨hnone, -⟩ | ⟨_, hsome, hbytes, hsize, hne, -⟩
  · cases hnone.symm.trans hoffered
  · obtain rfl : bytes = _ := Option.some.inj (hoffered.symm.trans hsome)
    have hpos : writeSize s ≠ 0 := hsize.trans_ne (mt List.length_eq_zero_iff.mp hne)
    have hfilled : (if s.writeRetry || writeSize s = 0 then s else { s with writeBuffer := s.outputBuffer }) =
        { s with writeBuffer := bytes } := by
      rw [hbytes]
      by_cases hagain : s.writeRetry = true
      · rw [if_pos (by simp [hagain]), if_pos hagain]
      · rw [if_neg (by simp [hagain, hpos]), if_neg hagain]
    unfold doWrite
    simp only
    rw [hfilled, if_neg (by simp [hpos, h.secureReady]), hsize]

/-- A write ends the connection, is to be repeated, or takes from the output. -/
theorem doWrite_ready (h : Ready s) (hretry : Retried s) (hoffered : offered s = some bytes) (answer : SslWrite) :
    (∃ t, doWrite answer s = (t, .ok .break) ∧ Ended t) ∨
      ∃ t, doWrite answer s = (t, .ok .new) ∧ Ready t ∧
        ((answer.count = 0 ∧ t.outputBuffer = s.outputBuffer ∧ t.retry = (true, bytes.length, bytes)) ∨
          (answer.code.isRetry = false ∧ t.outputBuffer = s.outputBuffer.drop answer.count ∧ t.writeRetry =
              false)) := by
  rw [doWrite_called h hretry hoffered]
  have hset (code : SslError) : Unwritten { s with writeBuffer := bytes }
      (setFlags code (note { s with writeBuffer := bytes } .sslWrite)) :=
    (Idle.of_eq rfl rfl rfl : Idle { s with writeBuffer := bytes } (note { s with writeBuffer := bytes } .sslWrite)
      ).toUnwritten.trans (unwritten_setFlags code _)
  have hready : Ready { s with writeBuffer := bytes } := ⟨h.socket, h.connected, h.secureReady, h.ssl, h.writable,
      h.fatal⟩
  rcases secureWrite_ready answer hready.ssl hready.fatal with ⟨-, hstatus, hfatal⟩ | ⟨hwritten, hcode⟩
  · left
    dsimp only
    rw [hstatus, if_pos (by decide)]
    have hwritten := unwritten_secureWrite answer { s with writeBuffer := bytes }
    exact ⟨_, rfl, hwritten.socket.trans h.socket, hwritten.secureReady.trans h.secureReady, .inr hfatal⟩
  · right
    rw [hwritten]
    dsimp only
    have hflagged : Ready (setFlags answer.code (note { s with writeBuffer := bytes } .sslWrite)) :=
      hready.unwritten (hset _) (by simp [setFlags, note, h.fatal, hcode])
    rw [if_neg (by split <;> omega)]
    by_cases hzero : answer.count = 0
    · rw [if_pos (by rw [hzero]; exact ite_self _)]
      refine ⟨_, rfl, ⟨hflagged.socket, hflagged.connected, hflagged.secureReady, hflagged.ssl, hflagged.writable,
        hflagged.fatal⟩, .inl ⟨hzero, rfl, rfl⟩⟩
    · have hnone : answer.code.isRetry = false := by
        cases answer with
        | wrote n => rfl
        | error code => exact absurd rfl hzero
      rw [hnone, if_neg Bool.false_ne_true, if_neg (by exact_mod_cast hzero), if_pos (Nat.pos_of_ne_zero hzero)]
      obtain ⟨hlife, hcopy, hbuffer⟩ := TCPSocket.discardWrittenData_spec
        { setFlags answer.code (note { s with writeBuffer := bytes } .sslWrite) with writeRetry := false } answer.count
      simp only [life, Prod.mk.injEq] at hlife
      obtain ⟨hsocket, hsecure, hssl, hfatal, hwritable, hconnected⟩ := hlife
      refine ⟨_, rfl, ⟨hsocket.trans hflagged.socket, hconnected.trans hflagged.connected,
        hsecure.trans hflagged.secureReady, ?_, hwritable.trans hflagged.writable, hfatal.trans hflagged.fatal⟩,
        .inr ⟨rfl, hbuffer, congrArg Prod.fst hcopy⟩⟩
      rw [hasSsl, hssl]
      exact hflagged.ssl

/-! ### The account of a secure socket -/

/-- What holds of a secure socket between the calls while its connection is open. -/
structure Flows (o : Sending SslRead) : Prop where
  ready : Ready o.link.socket
  retried : Retried o.link.socket
  waits : o.link.socket.Waits
  accounted : o.Accounted
  repeats : o.Repeats
  last : ∀ last ∈ o.offers.getLast?, last.2 = true →
    o.link.socket.writeRetry = true ∧ last.1 = o.link.socket.writeBuffer

/-- The reading of a service, and the job after it. -/
private theorem served_ready {w : JobResult} (h : Ready s) (hw : w ≠ .break) (hwaits : w = .retry → s.Waits)
    (read : Bool) (incoming : List SslRead) :
    let served := TCPSocket.tryRead doRead read incoming s
    let t := TCPSocket.nextJob SecureSocket.newJob w served.2.2 served.1
    Ended t ∨ Ready t ∧ Unwritten s t ∧ t.Waits := by
  obtain ⟨hread, hjob, hbreak⟩ := tryRead_unwritten read incoming s
  generalize TCPSocket.tryRead doRead read incoming s = served at hread hjob hbreak
  simp only
  cases hfatal : served.1.fatal with
  | true =>
    have hended : Ended served.1 :=
      ⟨hread.socket.trans h.socket, hread.secureReady.trans h.secureReady, .inr hfatal⟩
    exact .inl (hended.nextJob _ _)
  | false =>
    have hready := h.unwritten hread hfatal
    have hr : served.2.2 ≠ .break := fun hr => absurd (hfatal.symm.trans (hbreak hr)) Bool.false_ne_true
    obtain ⟨hnext, hnextwaits⟩ := TCPSocket.nextJob_idle (hires_newJob hready.socket hready.secureReady) hw hr
      fun hw' _ => (hwaits hw').unwritten hread hjob fun _ => h.writable
    exact .inr ⟨hready.unwritten hnext.toUnwritten (hnext.sameFatal.trans hfatal), hread.trans hnext.toUnwritten,
      hnextwaits⟩

theorem Retried.unwritten (h : Retried s) (hs : Unwritten s t) : Retried t := by
  have hretry := hs.retry
  simp only [retry, Prod.mk.injEq] at hretry
  obtain ⟨hagain, hsize, hcopy⟩ := hretry
  intro ht
  rw [hsize, hcopy, hs.outputBuffer]
  exact h (hagain.symm.trans ht)

/-- Nothing is offered. -/
theorem Flows.unwritten {o : Sending SslRead} (h : Flows o) (hs : Unwritten o.link.socket t) (hready : Ready t)
    (hwaits : t.Waits) (incoming : List SslRead) : Flows { o with link := ⟨t, incoming⟩ } where
  ready := hready
  retried := h.retried.unwritten hs
  waits := hwaits
  accounted := by
    rw [Sending.Accounted, hs.outputBuffer]
    exact h.accounted
  repeats := h.repeats
  last := by
    have hretry := hs.retry
    simp only [retry, Prod.mk.injEq] at hretry
    obtain ⟨hagain, -, hcopy⟩ := hretry
    intro last hlast htrue
    obtain ⟨h1, h2⟩ := h.last last hlast htrue
    exact ⟨hagain.trans h1, h2.trans hcopy.symm⟩

/-- Bytes are offered, and taken or to be offered again. -/
theorem Flows.offered {o : Sending SslRead} (h : Flows o) (hoffered : offered o.link.socket = some bytes)
    (answer : SslWrite) (hcount : answer.count ≤ bytes.length) (hready : Ready t) (hwaits : t.Waits)
    (hs : (answer.count = 0 ∧ t.outputBuffer = o.link.socket.outputBuffer ∧ t.retry = (true, bytes.length, bytes)) ∨
      (answer.code.isRetry = false ∧ t.outputBuffer = o.link.socket.outputBuffer.drop answer.count ∧
        t.writeRetry = false)) (incoming : List SslRead) :
    Flows { o with
      link := ⟨t, incoming⟩
      accepted := o.accepted ++ bytes.take answer.count
      offers := o.offers ++ [(bytes, answer.code.isRetry)] } := by
  rcases offered_ready h.ready h.retried with ⟨hnone, -⟩ | ⟨_, hsome, hbytes, -, hne, hfront⟩
  · cases hnone.symm.trans hoffered
  obtain rfl : bytes = _ := Option.some.inj (hoffered.symm.trans hsome)
  have hrepeats : (o.offers ++ [(bytes, answer.code.isRetry)]).IsChain
      fun first next => first.2 = true → next.1 = first.1 := by
    refine List.isChain_append.mpr ⟨h.repeats, List.isChain_singleton _, fun last hlast next hnext hagain => ?_⟩
    obtain rfl : next = (bytes, answer.code.isRetry) := (Option.some.inj hnext).symm
    obtain ⟨hretry, hsame⟩ := h.last last hlast hagain
    rw [hsame, hbytes, if_pos hretry]
  have hlast (last : Bytes × Bool) (hmem : last ∈ (o.offers ++ [(bytes, answer.code.isRetry)]).getLast?) :
      last = (bytes, answer.code.isRetry) := by
    rw [List.getLast?_concat] at hmem
    exact (Option.some.inj hmem).symm
  rcases hs with ⟨hzero, hbuffer, hretry⟩ | ⟨hnot, hbuffer, hretry⟩
  · simp only [retry, Prod.mk.injEq] at hretry
    obtain ⟨hagain, hsize, hcopy⟩ := hretry
    refine ⟨hready, fun _ => ?_, hwaits, ?_, hrepeats, fun last hmem _ => ?_⟩
    · rw [hcopy, hsize, hbuffer]
      exact ⟨hne, rfl, hfront⟩
    · rw [Sending.Accounted, hzero, List.take_zero, List.append_nil, hbuffer]
      exact h.accounted
    · rw [hlast last hmem]
      exact ⟨hagain, hcopy.symm⟩
  · refine ⟨hready, fun hagain => ?_, hwaits, ?_, hrepeats, fun last hmem hagain => ?_⟩
    · exact absurd (hretry.symm.trans hagain) Bool.false_ne_true
    · obtain ⟨rest, hrest⟩ := hfront
      have htake : bytes.take answer.count = o.link.socket.outputBuffer.take answer.count := by
        rw [← hrest, List.take_append_of_le_length hcount]
      rw [Sending.Accounted, hbuffer, htake, List.append_assoc, List.take_append_drop]
      exact h.accounted
    · rw [hlast last hmem] at hagain
      exact absurd (hnot.symm.trans hagain) Bool.false_ne_true

/-- More is written. -/
theorem Flows.written {o : Sending SslRead} (h : Flows o) (data : Bytes) : Flows
    (Sending.step sender o (.write data)) := by
  have hnew : Hires SecureSocket.newJob o.link.socket := hires_newJob h.ready.socket h.ready.secureReady
  obtain ⟨hbuffer, hwaits⟩ := TCPSocket.write_accepted hnew h.ready.writable h.waits data
  obtain ⟨hlife, hretry⟩ := TCPSocket.write_life SecureSocket.newJob data o.link.socket
  simp only [life, Prod.mk.injEq] at hlife
  simp only [retry, Prod.mk.injEq] at hretry
  obtain ⟨hsocket, hsecure, hssl, hfatal, hwritable, hconnected⟩ := hlife
  obtain ⟨hagain, hsize, hcopy⟩ := hretry
  have hwritten : (Sending.step sender o (.write data)).written = o.written ++ data := if_pos h.ready.writable
  refine ⟨⟨hsocket.trans h.ready.socket, hconnected.trans h.ready.connected, hsecure.trans h.ready.secureReady, ?_,
    hwritable.trans h.ready.writable, hfatal.trans h.ready.fatal⟩, fun ht => ?_, hwaits, ?_, h.repeats,
    fun last hmem htrue => ?_⟩
  · exact (congrArg (·.any (·.ssl)) hssl).trans h.ready.ssl
  · obtain ⟨hne, hlength, hfront⟩ := h.retried (hagain.symm.trans ht)
    have hfront' : o.link.socket.writeBuffer <+: o.link.socket.outputBuffer ++ data :=
      hfront.trans (List.prefix_append _ _)
    rw [← hcopy] at hne hlength hfront'
    rw [← hbuffer] at hfront'
    exact ⟨hne, hsize.trans hlength, hfront'⟩
  · rw [Sending.Accounted, hwritten, ← h.accounted, List.append_assoc]
    exact congrArg (o.accepted ++ ·) hbuffer
  · obtain ⟨hlast, hsame⟩ := h.last last hmem htrue
    exact ⟨hagain.trans hlast, hsame.trans hcopy.symm⟩

/-- A service goes on with the account, or ends the connection. -/
theorem Flows.served {o : Sending SslRead} (h : Flows o) (read write : Bool) (answer : SslWrite)
    (hc : Sending.Possible sender o (.serviceConnected read write false answer)) :
    Flows (Sending.step sender o (.serviceConnected read write false answer)) ∨
      Ended (Sending.step sender o (.serviceConnected read write false answer)).link.socket := by
  have hlink {t : DataSocket} {w : JobResult}
      (hw : TCPSocket.tryWrite (doWrite answer) write o.link.socket = (t, w)) :
      sender.methods.call o.link (.serviceConnected read write false answer) =
        ⟨TCPSocket.nextJob SecureSocket.newJob w (TCPSocket.tryRead doRead read o.link.incoming t).2.2
          (TCPSocket.tryRead doRead read o.link.incoming t).1,
          (TCPSocket.tryRead doRead read o.link.incoming t).2.1⟩ :=
    congrArg (fun served => (⟨served.1, served.2⟩ : Linked SslRead)) (TCPSocket.serviceConnected_of_write hw _ _)
  have hskipped (hnone : Sending.offered sender o.link.socket write false = none)
      (hw : TCPSocket.tryWrite (doWrite answer) write o.link.socket = (o.link.socket, .retry)) :
      Flows (Sending.step sender o (.serviceConnected read write false answer)) ∨
        Ended (Sending.step sender o (.serviceConnected read write false answer)).link.socket := by
    rw [Sending.step, hnone, hlink hw]
    simp only [Option.getD_none, List.take_nil, List.append_nil, Option.map_none, Option.toList_none]
    rcases served_ready (w := .retry) h.ready (by decide) (fun _ => h.waits) read o.link.incoming with
      hended | ⟨hready, hunwritten, hwaits⟩
    · exact .inr hended
    · exact .inl (h.unwritten hunwritten hready hwaits _)
  cases write with
  | false => exact hskipped rfl rfl
  | true =>
    rcases offered_ready h.ready h.retried with ⟨hnone, hretry, hempty⟩ | ⟨bytes, hsome, -⟩
    · have hsize : writeSize o.link.socket = 0 := by
        rw [writeSize, hretry, if_neg Bool.false_ne_true, hempty]
        rfl
      have hwrite : doWrite answer o.link.socket = (o.link.socket, .ok .retry) := by
        unfold doWrite
        simp only
        rw [hsize, if_pos (by simp), if_pos (by simp)]
      refine hskipped hnone ?_
      rw [TCPSocket.tryWrite, hwrite]
      rfl
    · have hcount : answer.count ≤ bytes.length := by
        have hc : answer.count ≤ ((SecureSocket.offered o.link.socket).getD []).length := hc
        rwa [hsome] at hc
      have hoffered : Sending.offered sender o.link.socket true false = some bytes := hsome
      rcases doWrite_ready h.ready h.retried hsome answer with ⟨t, hwrite, hended⟩ | ⟨t, hwrite, hready, hs⟩
      · have hw : TCPSocket.tryWrite (doWrite answer) true o.link.socket = (t, .break) := by
          rw [TCPSocket.tryWrite, hwrite]
          rfl
        rw [Sending.step, hlink hw]
        exact .inr ((hended.unwritten (tryRead_unwritten read o.link.incoming t).1).nextJob _ _)
      · have hw : TCPSocket.tryWrite (doWrite answer) true o.link.socket = (t, .new) := by
          rw [TCPSocket.tryWrite, hwrite]
          rfl
        rw [Sending.step, hoffered, hlink hw]
        rcases served_ready (w := .new) hready (by decide) (fun h => absurd h (by decide)) read o.link.incoming with
          hended | ⟨hready', hunwritten, hwaits⟩
        · exact .inr hended
        · refine .inl (h.offered hsome answer hcount hready' hwaits ?_ _)
          have hbuffer := hunwritten.outputBuffer
          have hcopy := hunwritten.retry
          rcases hs with ⟨hzero, hsame, hretry⟩ | ⟨hnot, hdrop, hretry⟩
          · exact .inl ⟨hzero, hbuffer.trans hsame, hcopy.trans hretry⟩
          · exact .inr ⟨hnot, hbuffer.trans hdrop, (congrArg Prod.fst hcopy).trans hretry⟩

end SecureSocket

/-! ### Runs -/

namespace Sending
variable {R W : Type}

/-- The states of a run. -/
def states (v : Sender R W) (o : Sending R) (calls : List (OutputCall W)) : List (Sending R) :=
  o :: (Lib.runTrace (step v) o calls).map Prod.snd

end Sending

/-- A run of a plain socket that has been connected. -/
structure PlainOutput where
  socket : DataSocket
  incoming : List ArchRead
  calls : List (OutputCall ArchWrite)
  opened : socket.socket = true ∧ socket.writable = true ∧ socket.job = TCPSocket.newJob socket
  possible : Lib.EachStep (fun o c _ => Sending.Possible TCPSocket.sender o c) (.start socket incoming)
    (Lib.runTrace (Sending.step TCPSocket.sender) (.start socket incoming) calls)

/-- A run of a secure socket whose handshake has succeeded. -/
structure SecureOutput where
  socket : DataSocket
  incoming : List SslRead
  calls : List (OutputCall SslWrite)
  opened : SecureSocket.Ready socket ∧ socket.writeRetry = false ∧ socket.job = SecureSocket.newJob socket
  possible : Lib.EachStep (fun o c _ => Sending.Possible SecureSocket.sender o c) (.start socket incoming)
    (Lib.runTrace (Sending.step SecureSocket.sender) (.start socket incoming) calls)

def PlainOutput.states (r : PlainOutput) : List (Sending ArchRead) :=
  Sending.states TCPSocket.sender (.start r.socket r.incoming) r.calls

def SecureOutput.states (r : SecureOutput) : List (Sending SslRead) :=
  Sending.states SecureSocket.sender (.start r.socket r.incoming) r.calls

end Synergy
