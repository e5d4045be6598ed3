import Synergy.Net.SecureSocket

/-! What the calls to a data socket do to its input buffer. `Grows` is a call that keeps the
account: what the reader gets and what is held after it are what was held and what it
receives. A quiet call receives nothing. -/
namespace Synergy
open DataSocket

structure Grows (s s' : DataSocket) (entries : List SocketEntry) : Prop where
  log : s'.log = s.log ++ entries
  buffer : returnedBytes entries ++ s'.inputBuffer = s.inputBuffer ++ receivedBytes entries

/-- Nothing is received; the input may be flushed. -/
def NoneReceived (s s' : DataSocket) : Prop := ∃ entries, s'.log = s.log ++ entries ∧ receivedBytes entries = []

/-- Nothing is received, lost or announced. -/
def Steady (s s' : DataSocket) : Prop := ∃ entries, Grows s s' entries ∧ receivedBytes entries = [] ∧
  .sent .streamInputReady ∉ entries

variable {s t u : DataSocket} {entries more : List SocketEntry}

theorem Grows.trans (h : Grows s t entries) (h' : Grows t u more) : Grows s u (entries ++ more) := by
  refine ⟨by rw [h'.log, h.log, List.append_assoc], ?_⟩
  rw [returnedBytes_append, receivedBytes_append, List.append_assoc, h'.buffer, ← List.append_assoc, h.buffer, List.append_assoc]

theorem Grows.of_eq (hlog : t.log = s.log) (hbuffer : t.inputBuffer = s.inputBuffer) : Grows s t [] :=
  ⟨by rw [hlog, List.append_nil], by simp [hbuffer, returnedBytes, receivedBytes]⟩

/-- Members change that are neither the log nor the buffer. -/
theorem Grows.follow (h : Grows s t entries) (hlog : u.log = t.log) (hbuffer : u.inputBuffer = t.inputBuffer) :
    Grows s u entries := by
  simpa using h.trans (of_eq hlog hbuffer)

theorem Steady.of_eq (hlog : t.log = s.log) (hbuffer : t.inputBuffer = s.inputBuffer) : Steady s t :=
  ⟨[], .of_eq hlog hbuffer, by rfl, List.not_mem_nil⟩

theorem Steady.trans (h : Steady s t) (h' : Steady t u) : Steady s u := by
  obtain ⟨entries, hgrows, hnone, hunready⟩ := h
  obtain ⟨more, hgrows', hnone', hunready'⟩ := h'
  refine ⟨entries ++ more, hgrows.trans hgrows', by rw [receivedBytes_append, hnone, hnone']; rfl, ?_⟩
  exact fun h => (List.mem_append.mp h).elim hunready hunready'

theorem Steady.rfl : Steady s s := of_eq (Eq.refl _) (Eq.refl _)

theorem Steady.follow (h : Steady s t) (hlog : u.log = t.log) (hbuffer : u.inputBuffer = t.inputBuffer) : Steady s u :=
  h.trans (of_eq hlog hbuffer)

theorem Steady.ite {c : Prop} [Decidable c] (h : Steady s t) (h' : Steady s u) : Steady s (if c then t else u) := by
  split
  · exact h
  · exact h'

theorem Steady.noneReceived (h : Steady s t) : NoneReceived s t := by
  obtain ⟨entries, hgrows, hnone, -⟩ := h
  exact ⟨entries, hgrows.log, hnone⟩

theorem NoneReceived.of_eq (hlog : t.log = s.log) : NoneReceived s t := ⟨[], by rw [hlog, List.append_nil], rfl⟩

theorem NoneReceived.trans (h : NoneReceived s t) (h' : NoneReceived t u) : NoneReceived s u := by
  obtain ⟨entries, hlog, hnone⟩ := h
  obtain ⟨more, hlog', hnone'⟩ := h'
  exact ⟨entries ++ more, by rw [hlog', hlog, List.append_assoc], by rw [receivedBytes_append, hnone, hnone']; rfl⟩

theorem grows_sendEvent (s : DataSocket) (event : EventTypes) : Grows s (s.sendEvent event) [.sent event] :=
  ⟨rfl, by simp [sendEvent, note, returnedBytes, receivedBytes, SocketEntry.returned, SocketEntry.received]⟩

theorem steady_sendEvent (s : DataSocket) (event : EventTypes) (h : event ≠ .streamInputReady) :
    Steady s (s.sendEvent event) := by
  refine ⟨[.sent event], grows_sendEvent s event, rfl, fun hmem => h ?_⟩
  exact (SocketEntry.sent.inj (List.mem_singleton.mp hmem)).symm

/-- An entry about no data and no event. -/
theorem steady_note (s : DataSocket) {entry : SocketEntry} (hr : entry.received = []) (ht : entry.returned = [])
    (hevent : ∀ event, entry ≠ .sent event) : Steady s (s.note entry) := by
  refine ⟨[entry], ⟨rfl, by simp [note, returnedBytes, receivedBytes, hr, ht]⟩, by simp [receivedBytes, hr], ?_⟩
  exact fun hmem => hevent _ (List.mem_singleton.mp hmem).symm

theorem grows_store (s : DataSocket) (data : Bytes) : Grows s (s.store data) [.stored data] :=
  ⟨rfl, by simp [store, note, returnedBytes, receivedBytes, SocketEntry.returned, SocketEntry.received]⟩

theorem steady_hangUp (s : DataSocket) : Steady s s.hangUp := (steady_sendEvent s _ (by decide)).trans (.of_eq rfl rfl)

theorem steady_inputHungUp (s : DataSocket) : Steady s s.inputHungUp :=
  ((steady_sendEvent s .streamInputShutdown (by decide)).trans (.ite (steady_hangUp _) .rfl)).follow rfl rfl

/-- Nothing is lost, and what comes into an empty buffer is announced unless `missed`. -/
def Fed (missed : Prop) (s s' : DataSocket) : Prop := ∃ entries, Grows s s' entries ∧
  (s.inputBuffer = [] → ((receivedBytes entries ≠ [] → .sent .streamInputReady ∈ entries) ↔ ¬ missed))

variable {missed : Prop}

theorem Steady.fed (h : Steady s t) (hnot : ¬ missed) : Fed missed s t := by
  obtain ⟨entries, hgrows, hnone, -⟩ := h
  exact ⟨entries, hgrows, fun _ => ⟨fun _ => hnot, fun _ hsome => absurd hnone hsome⟩⟩

theorem Steady.empty (h : Steady s t) (hempty : s.inputBuffer = []) : t.inputBuffer = [] := by
  obtain ⟨entries, hgrows, hnone, -⟩ := h
  have hbuffer := hgrows.buffer
  rw [hempty, hnone] at hbuffer
  exact (List.append_eq_nil_iff.mp hbuffer).2

theorem Fed.after (h : Fed missed t u) (hsteady : Steady s t) : Fed missed s u := by
  obtain ⟨entries, hgrows, hnone, hunready⟩ := id hsteady
  obtain ⟨more, hgrows', hready⟩ := h
  refine ⟨entries ++ more, hgrows.trans hgrows', fun hempty => ?_⟩
  rw [receivedBytes_append, hnone, List.nil_append, List.mem_append, or_iff_right hunready]
  exact hready (hsteady.empty hempty)

theorem Fed.follow (h : Fed missed s t) (hlog : u.log = t.log) (hbuffer : u.inputBuffer = t.inputBuffer) :
    Fed missed s u := by
  obtain ⟨entries, hgrows, hready⟩ := h
  exact ⟨entries, hgrows.follow hlog hbuffer, hready⟩

/-- What has been received is what the reader has got and what is held. -/
def Accounted (s : DataSocket) : Prop := receivedBytes s.log = returnedBytes s.log ++ s.inputBuffer

theorem Grows.accounted (h : Grows s t entries) (hs : Accounted s) : Accounted t := by
  unfold Accounted at hs ⊢
  rw [h.log, receivedBytes_append, returnedBytes_append, hs, List.append_assoc, List.append_assoc, h.buffer]

theorem Fed.accounted (h : Fed missed s t) (hs : Accounted s) : Accounted t := by
  obtain ⟨entries, hgrows, -⟩ := h
  exact hgrows.accounted hs

namespace TCPSocket
variable (newJob : DataSocket → Option SocketJob)

/-- What `take` takes from the buffer goes to the reader. -/
theorem steady_take (n : Nat) (s : DataSocket) : Steady s (take n s) := by
  have hpop : Grows s { s.note (.taken (s.inputBuffer.take n)) with
      inputBuffer := s.inputBuffer.drop n
      readPaused := s.readPaused && inputBufferHighWater / 2 < (s.inputBuffer.drop n).length }
      [.taken (s.inputBuffer.take n)] :=
    ⟨rfl, by simp [returnedBytes, receivedBytes, SocketEntry.returned, SocketEntry.received]⟩
  exact Steady.trans ⟨_, hpop, rfl, by simp⟩ (.ite (steady_hangUp _) .rfl)

theorem steady_read (n : Nat) (s : DataSocket) : Steady s (read newJob n s).2 :=
  (steady_take n s).trans (.ite (.of_eq rfl rfl) .rfl)

theorem steady_write (data : Bytes) (s : DataSocket) : Steady s (write newJob data s) :=
  .ite (steady_sendEvent s _ (by decide)) (.ite .rfl (.ite (.of_eq rfl rfl) (.of_eq rfl rfl)))

theorem steady_shutdownOutput (s : DataSocket) : Steady s (shutdownOutput newJob s) :=
  .ite ((steady_sendEvent s .streamOutputShutdown (by decide)).follow rfl rfl) .rfl

theorem noneReceived_shutdownInput (s : DataSocket) : NoneReceived s (shutdownInput newJob s) := by
  unfold shutdownInput
  split
  · exact (steady_sendEvent s .streamInputShutdown (by decide)).noneReceived.trans (.of_eq rfl)
  · exact Steady.rfl.noneReceived

theorem noneReceived_close (s : DataSocket) : NoneReceived s (close s) := by
  unfold close
  simp only
  split
  · exact ⟨[.sent .socketDisconnected], rfl, rfl⟩
  · exact .of_eq rfl

theorem steady_connect (answer : ArchConnect) (s : DataSocket) : Steady s (connect newJob answer s) := by
  refine .ite (steady_sendEvent s _ (by decide)) ?_
  cases answer with
  | done => exact (steady_sendEvent s .dataSocketConnected (by decide)).follow rfl rfl
  | inProgress => exact .of_eq rfl rfl
  | thrown => exact .rfl

theorem steady_serviceConnecting (write : Bool) (s : DataSocket) : Steady s (serviceConnecting newJob none write s) :=
  .ite ((steady_sendEvent s .dataSocketConnected (by decide)).follow rfl rfl) .rfl

theorem tryWrite_of_ok {doWrite : DataSocket → DataSocket × Except ArchNetworkException JobResult} {s : DataSocket}
    {result : JobResult} (hok : (doWrite s).2 = .ok result) (write : Bool) :
    (tryWrite doWrite write s).1 = if write then (doWrite s).1 else s := by
  unfold tryWrite
  rcases hdone : doWrite s with ⟨t, r⟩
  rw [hdone] at hok
  obtain rfl : r = .ok result := hok
  cases write <;> rfl

theorem tryRead_of_ok {R : Type} {doRead : List R → DataSocket → Served R} {incoming : List R} {s : DataSocket}
    {result : JobResult} (hok : (doRead incoming s).result = .ok result) :
    tryRead doRead true incoming s =
      if s.readable then ((doRead incoming s).socket, (doRead incoming s).incoming, result) else (s, incoming, .retry) := by
  unfold tryRead
  rcases hread : doRead incoming s with ⟨t, rest, r⟩
  rw [hread] at hok
  obtain rfl : r = .ok result := hok
  cases hs : s.readable <;> rfl

end TCPSocket
end Synergy
