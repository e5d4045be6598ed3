import Synergy.Net.QtDataSocket

/-! The Qt socket announces everything that it receives, but what its reader has not taken
when the peer closes is never returned. -/
namespace Synergy
namespace QtNetworkTransport

/-- The offset is inside the buffer, unless there is nothing in it. -/
def Inside (t : QtNetworkTransport) : Prop := t.readOffset < t.readBuffer.length ∨ t.readBuffer = [] ∧ t.readOffset = 0

variable {t : QtNetworkTransport}

theorem Inside.pending_eq_nil_iff (h : t.Inside) : t.pending = [] ↔ t.readBuffer = [] ∧ t.readOffset = 0 := by
  unfold pending
  rw [List.drop_eq_nil_iff]
  rcases h with h | ⟨hbuffer, hoffset⟩
  · refine iff_of_false (by omega) ?_
    rintro ⟨hbuffer, -⟩
    rw [hbuffer] at h
    exact absurd h (Nat.not_lt_zero _)
  · exact iff_of_true (by rw [hbuffer, hoffset]; rfl) ⟨hbuffer, hoffset⟩

theorem Inside.append (h : t.Inside) {data : Bytes} (hdata : data ≠ []) : (t.append data).Inside := by
  have hpos : 0 < data.length := List.length_pos_iff.mpr hdata
  have hlength : (t.append data).readBuffer.length = t.readBuffer.length + data.length := List.length_append
  have hoffset : (t.append data).readOffset = t.readOffset := rfl
  left
  rw [hlength, hoffset]
  rcases h with h | ⟨-, hnone⟩ <;> omega

theorem Inside.pending_append (h : t.Inside) (data : Bytes) : (t.append data).pending = t.pending ++ data := by
  have hoffset : (t.append data).readOffset = t.readOffset := rfl
  refine List.drop_append_of_le_length ?_
  rw [hoffset]
  rcases h with h | ⟨-, hnone⟩ <;> omega

/-- Consuming what a read returns leaves the rest pending. -/
theorem Inside.consume (h : t.Inside) {n : Nat} (hn : n ≤ t.readBuffer.length - t.readOffset) :
    (t.consume n).Inside ∧ (t.consume n).pending = t.pending.drop n ∧ (t.consume n).connected = t.connected := by
  have hle : t.readOffset + n ≤ t.readBuffer.length := by
    rcases h with h | ⟨-, hoffset⟩ <;> omega
  have hpending : t.pending.drop n = t.readBuffer.drop (t.readOffset + n) := List.drop_drop
  unfold QtNetworkTransport.consume
  simp only
  split
  next hall =>
    refine ⟨.inr ⟨rfl, rfl⟩, ?_, rfl⟩
    rw [hpending, hall, List.drop_length]
    rfl
  next hsome =>
    split
    · refine ⟨.inl ?_, hpending.symm, rfl⟩
      simp only [List.length_drop]
      omega
    · refine ⟨.inl ?_, hpending.symm, rfl⟩
      simp only
      omega

/-- A read returns what is pending, if the transport is connected, and leaves the rest. -/
theorem Inside.read (h : t.Inside) (hconnected : t.pending ≠ [] → t.connected = true) (n : Nat) :
    (t.read n).1 = t.pending.take n ∧ (t.read n).2.Inside ∧ (t.read n).2.pending = t.pending.drop n ∧
      (t.read n).2.connected = t.connected := by
  have hlength : t.pending.length = t.readBuffer.length - t.readOffset := List.length_drop
  unfold QtNetworkTransport.read
  split
  next hnone =>
    have hempty : t.pending = [] := by
      by_contra hsome
      have hle : t.readBuffer.length ≤ t.readOffset := by simpa [hconnected hsome] using hnone
      exact hsome (List.drop_eq_nil_of_le hle)
    refine ⟨by rw [hempty, List.take_nil], h, by rw [hempty, List.drop_nil], rfl⟩
  next hsome =>
    obtain ⟨hinside, hpending, hconnected'⟩ := h.consume (Nat.min_le_right n _)
    rw [← hlength] at hinside hpending hconnected' ⊢
    exact ⟨List.take_eq_take_min.symm, hinside, hpending.trans List.drop_eq_drop_min.symm, hconnected'⟩

end QtNetworkTransport

namespace QtDataSocket

/-- What loses data: the end of the connection, or of its handshake, before the reader has
taken what is pending, and data that comes without a connection. -/
def Loses (s : QtDataSocket) : Call → Prop
  | .disconnected => s.transport.pending ≠ []
  | .readyRead data => data ≠ [] ∧ s.transport.connected = false
  | .connected peer | .replayed peer => s.transport.pending ≠ [] ∧ s.rejects peer
  | _ => False

/-- The state of a socket that has lost nothing. -/
structure Holding (s : QtDataSocket) : Prop where
  inside : s.transport.Inside
  connected : s.transport.pending ≠ [] → s.transport.connected = true
  accounted : receivedBytes s.log = returnedBytes s.log ++ s.transport.pending
  inputOpen : s.inputShutdown = false

variable {s t : QtDataSocket} {peer : Option PeerCertificate}

theorem Holding.read (h : Holding s) (n : Nat) : (s.read n).1 = s.transport.pending.take n := by
  unfold QtDataSocket.read
  rw [if_neg (by simp [h.inputOpen])]
  exact (h.inside.read h.connected n).1

theorem Holding.readable (h : Holding s) : stream.Readable s := StreamSocket.readable_of_buffered h.accounted h.read

/-- Only events are added to the log. -/
def Tells (s t : QtDataSocket) : Prop :=
  t.inputShutdown = s.inputShutdown ∧ ∃ events : List EventTypes, t.log = s.log ++ events.map .sent

theorem Tells.of_eq (hinput : t.inputShutdown = s.inputShutdown) (hlog : t.log = s.log) : Tells s t :=
  ⟨hinput, [], by rw [hlog, List.map_nil, List.append_nil]⟩

theorem receivedBytes_sent (events : List EventTypes) : receivedBytes (events.map .sent) = [] := by
  induction events with
  | nil => rfl
  | cons event events ih => exact ih

theorem returnedBytes_sent (events : List EventTypes) : returnedBytes (events.map .sent) = [] := by
  induction events with
  | nil => rfl
  | cons event events ih => exact ih

/-- The transport keeps its read buffer. -/
theorem Holding.of_tells (h : Holding s) (htells : Tells s t)
    (hbuffer : t.transport.readBuffer = s.transport.readBuffer) (hoffset : t.transport.readOffset = s.transport.readOffset)
    (hconnected : s.transport.pending ≠ [] → t.transport.connected = true) : Holding t := by
  obtain ⟨hinput, events, hlog⟩ := htells
  have hpending : t.transport.pending = s.transport.pending := by
    rw [QtNetworkTransport.pending, hbuffer, hoffset, QtNetworkTransport.pending]
  refine ⟨?_, by rwa [hpending], ?_, hinput.trans h.inputOpen⟩
  · have hinside := h.inside
    unfold QtNetworkTransport.Inside at hinside ⊢
    rwa [hbuffer, hoffset]
  · rw [hlog, receivedBytes_append, returnedBytes_append, receivedBytes_sent, returnedBytes_sent, List.append_nil,
      List.append_nil, hpending, h.accounted]

theorem tells_handleTlsFailure (s : QtDataSocket) (message : String) : Tells s (s.handleTlsFailure message) := by
  unfold handleTlsFailure
  simp only
  split
  · exact ⟨rfl, [.clientListenerDisconnectedOnAccept], rfl⟩
  · exact ⟨rfl, [.dataSocketConnectionFailed message], rfl⟩

theorem tells_handleConnected (s : QtDataSocket) (peer : Option PeerCertificate) : Tells s (s.handleConnected peer) := by
  unfold handleConnected
  split
  · exact ⟨rfl, [.dataSocketConnected], rfl⟩
  · split
    · exact tells_handleTlsFailure s _
    · exact ⟨rfl, [_], rfl⟩

/-- A peer that is turned away costs the transport, and no other does. -/
theorem handleConnected_transport (s : QtDataSocket) (peer : Option PeerCertificate) :
    (s.rejects peer → (s.handleConnected peer).transport = s.transport.close) ∧
      (¬ s.rejects peer → (s.handleConnected peer).transport = s.transport) := by
  unfold rejects handleConnected
  split
  next hplain => exact ⟨fun h => absurd h.1 (by simpa using hplain), fun _ => rfl⟩
  next htls =>
    have htls : s.wantsTls = true := by simpa using htls
    split
    next message hfailure =>
      refine ⟨fun _ => ?_, fun h => absurd ⟨htls, by rw [hfailure]; rfl⟩ h⟩
      unfold handleTlsFailure
      simp only
      split <;> rfl
    next hfailure => exact ⟨fun h => absurd h.2 (by rw [hfailure]; exact Bool.false_ne_true), fun _ => rfl⟩

theorem tells_handleDisconnected (s : QtDataSocket) :
    Tells s s.handleDisconnected ∧ s.handleDisconnected.transport = s.transport := by
  unfold handleDisconnected
  split
  · exact ⟨.of_eq rfl rfl, rfl⟩
  · simp only
    split
    · exact ⟨⟨rfl, [.clientListenerDisconnectedOnAccept], rfl⟩, rfl⟩
    · refine ⟨⟨rfl, [.streamInputShutdown, .socketDisconnected], ?_⟩, rfl⟩
      exact List.append_assoc ..

theorem tells_handleError (s : QtDataSocket) (message : String) (fatal : Bool) :
    Tells s (s.handleError message fatal) ∧ (s.handleError message fatal).transport = s.transport := by
  unfold handleError
  split_ifs
  · exact ⟨.of_eq rfl rfl, rfl⟩
  · exact ⟨⟨rfl, [.clientListenerDisconnectedOnAccept], rfl⟩, rfl⟩
  · exact ⟨⟨rfl, [.dataSocketConnectionFailed message], rfl⟩, rfl⟩
  · exact ⟨⟨rfl, [.streamOutputError], rfl⟩, rfl⟩

theorem Holding.handleConnected (h : Holding s) (hkeeps : ¬ (s.transport.pending ≠ [] ∧ s.rejects peer)) :
    Holding (s.handleConnected peer) := by
  obtain ⟨hrejects, hkept⟩ := handleConnected_transport s peer
  by_cases hr : s.rejects peer
  · have hnone : s.transport.pending = [] := by
      by_contra hsome
      exact hkeeps ⟨hsome, hr⟩
    refine h.of_tells (tells_handleConnected s peer) ?_ ?_ fun hsome => absurd hnone hsome
    · rw [hrejects hr, (h.inside.pending_eq_nil_iff.mp hnone).1]
      rfl
    · rw [hrejects hr]
      rfl
  · refine h.of_tells (tells_handleConnected s peer) ?_ ?_ ?_
    all_goals rw [hkept hr]
    exact h.connected

theorem write_members (t : QtNetworkTransport) (data : Bytes) (written : Nat) :
    ((t.write data written).readBuffer, (t.write data written).readOffset, (t.write data written).connected) =
      (t.readBuffer, t.readOffset, t.connected) := by
  unfold QtNetworkTransport.write
  split_ifs <;> rfl

theorem Holding.write (h : Holding s) (data : Bytes) (written : Nat) : Holding (s.write data written) := by
  have hmembers := write_members s.transport data written
  simp only [Prod.mk.injEq] at hmembers
  obtain ⟨hbuffer, hoffset, hconnected⟩ := hmembers
  have hwritten : Holding { s with transport := s.transport.write data written } :=
    h.of_tells (.of_eq rfl rfl) hbuffer hoffset fun hsome => hconnected.trans (h.connected hsome)
  unfold QtDataSocket.write
  split
  · exact h.of_tells ⟨rfl, [.streamOutputError], rfl⟩ rfl rfl h.connected
  · simp only
    split
    · exact hwritten.of_tells ⟨rfl, [.streamOutputError], rfl⟩ rfl rfl hwritten.connected
    · exact hwritten

theorem Holding.onReadyRead (h : Holding s) {data : Bytes} (hup : data ≠ [] → s.transport.connected = true) :
    Holding (s.onReadyRead data) := by
  unfold QtDataSocket.onReadyRead
  split
  · exact h
  next hdata =>
    have hdata : data ≠ [] := by simpa using hdata
    have hpending := h.inside.pending_append data
    refine ⟨h.inside.append hdata, fun _ => hup hdata, ?_, h.inputOpen⟩
    change receivedBytes ((s.log ++ [.stored data]) ++ [.sent .streamInputReady]) = returnedBytes
      ((s.log ++ [.stored data]) ++ [.sent .streamInputReady]) ++ (s.transport.append data).pending
    rw [receivedBytes_append, receivedBytes_append, returnedBytes_append, returnedBytes_append, h.accounted, hpending]
    simp [receivedBytes, returnedBytes, SocketEntry.received, SocketEntry.returned]

theorem Holding.afterRead (h : Holding s) (n : Nat) : Holding (s.read n).2 := by
  obtain ⟨hdata, hinside, hpending, hconnected⟩ := h.inside.read h.connected n
  unfold QtDataSocket.read
  rw [if_neg (by simp [h.inputOpen])]
  refine ⟨hinside, fun hsome => ?_, ?_, h.inputOpen⟩
  · refine hconnected.trans (h.connected fun hnone => hsome ?_)
    change (s.transport.read n).2.pending = []
    rw [hpending, hnone, List.drop_nil]
  · change receivedBytes (s.log ++ [.taken (s.transport.read n).1]) =
      returnedBytes (s.log ++ [.taken (s.transport.read n).1]) ++ (s.transport.read n).2.pending
    rw [hpending, hdata, receivedBytes_append, returnedBytes_append, h.accounted]
    simp [receivedBytes, returnedBytes, SocketEntry.received, SocketEntry.returned]

/-- A step that loses nothing and does not end the reading. -/
theorem Holding.step (h : Holding s) {a : Call} (hopen : a.closes = false) (hkeeps : ¬ Loses s a) :
    Holding (s.step a) := by
  cases a with
  | connect certificateLoads =>
    unfold QtDataSocket.step QtDataSocket.connect
    simp only
    split
    · exact h.of_tells (.of_eq rfl rfl) rfl rfl h.connected
    · exact h
  | connected peer =>
    have hup : Holding { s with transport := { s.transport with connected := true, fatalError := false } } :=
      h.of_tells (.of_eq rfl rfl) rfl rfl fun _ => rfl
    exact hup.handleConnected hkeeps
  | replayed peer => exact h.handleConnected hkeeps
  | disconnected =>
    have hnone : s.transport.pending = [] := by
      by_contra hsome
      exact hkeeps hsome
    have hdown : Holding { s with transport := { s.transport with connected := false } } :=
      h.of_tells (.of_eq rfl rfl) rfl rfl fun hsome => absurd hnone hsome
    obtain ⟨htells, htransport⟩ := tells_handleDisconnected
      { s with transport := { s.transport with connected := false } }
    refine hdown.of_tells htells ?_ ?_ fun hsome => absurd hnone hsome
    all_goals exact congrArg _ htransport
  | readyRead data => exact h.onReadyRead fun hdata => by_contra fun hdown => hkeeps ⟨hdata, by simpa using hdown⟩
  | errorOccurred error message =>
    have hflag : Holding { s with
        transport := { s.transport with fatalError := s.transport.fatalError || error.isFatal } } :=
      h.of_tells (.of_eq rfl rfl) rfl rfl h.connected
    obtain ⟨htells, htransport⟩ := tells_handleError { s with
      transport := { s.transport with fatalError := s.transport.fatalError || error.isFatal } } message
      (s.transport.fatalError || error.isFatal)
    refine hflag.of_tells htells ?_ ?_ fun hsome => ?_
    · exact congrArg _ htransport
    · exact congrArg _ htransport
    · exact (congrArg _ htransport).trans (h.connected hsome)
  | bytesWritten bytes =>
    refine h.of_tells (.of_eq rfl rfl) ?_ ?_ ?_
    all_goals
      unfold QtDataSocket.step QtNetworkTransport.onBytesWritten
      simp only
      split
    all_goals first | rfl | exact h.connected
  | read n => exact h.afterRead n
  | write data written => exact h.write data written
  | shutdownInput => cases hopen
  | shutdownOutput => exact h.of_tells (.of_eq rfl rfl) rfl rfl h.connected
  | close => cases hopen

end QtDataSocket
end Synergy
