import Synergy.Net.InputBuffer
import Synergy.Net.QtReceived
import Synergy.Net.SecureReceived

/-! A plain socket loses nothing that it receives and announces it, whatever the order of
the calls, as long as the lower layer ends in order. -/
namespace Synergy
open DataSocket

/-- The lower layer gives data or nothing, up to its end. -/
def ArchRead.Orderly (r : ArchRead) : Prop := ∀ e, r ≠ .thrown e

/-- The lower layer gives no error in a call. -/
def SocketCall.TCPOrderly : SocketCall ArchWrite → Prop
  | .serviceConnecting failure _ => failure = none
  | .serviceConnected _ _ error answer => error = false ∧ ∀ e, answer ≠ .thrown e
  | _ => True

namespace TCPSocket
variable {s : DataSocket} {incoming : List ArchRead}

theorem slurp_spec (s : DataSocket) (piece : Bytes) (horderly : ∀ r ∈ incoming, r.Orderly) :
    (slurp s piece incoming).result = .ok .retry ∧
      (∃ entries, Grows s (slurp s piece incoming).socket entries) ∧
      ∀ r ∈ (slurp s piece incoming).incoming, r ∈ incoming := by
  induction incoming generalizing s piece with
  | nil =>
    unfold slurp
    simp only
    split
    · exact ⟨rfl, ⟨_, (grows_store s piece).follow rfl rfl⟩, fun r h => h⟩
    · exact ⟨rfl, ⟨_, grows_store s piece⟩, fun r h => h⟩
  | cons r incoming ih =>
    unfold slurp
    simp only
    split
    · exact ⟨rfl, ⟨_, (grows_store s piece).follow rfl rfl⟩, fun r h => h⟩
    · cases r with
      | data first rest =>
        obtain ⟨hresult, ⟨entries, hgrows⟩, hrest⟩ :=
          ih (s.store piece) (first :: rest) fun r h => horderly r (List.mem_cons_of_mem _ h)
        exact ⟨hresult, ⟨_, (grows_store s piece).trans hgrows⟩, fun r h => List.mem_cons_of_mem _ (hrest r h)⟩
      | nothing => exact ⟨rfl, ⟨_, grows_store s piece⟩, fun r h => List.mem_cons_of_mem _ h⟩
      | thrown e => exact absurd rfl (horderly _ List.mem_cons_self e)

theorem announce_spec {wasEmpty : Bool} {served : Served ArchRead} {entries : List SocketEntry}
    (hresult : served.result = .ok .retry) (h : Grows s served.socket entries) (hempty : wasEmpty = s.inputBuffer.isEmpty) :
    (∃ result, (announce wasEmpty served).result = .ok result) ∧ Fed False s (announce wasEmpty served).socket ∧
      (announce wasEmpty served).incoming = served.incoming := by
  rcases served with ⟨t, rest, result⟩
  obtain rfl : result = .ok .retry := hresult
  refine ⟨⟨_, rfl⟩, ?_, rfl⟩
  unfold announce
  simp only
  split
  next hwas => exact ⟨_, h.trans (grows_sendEvent t _), fun _ =>
    ⟨fun _ => not_false, fun _ _ => List.mem_append_right _ List.mem_cons_self⟩⟩
  next hwas =>
    refine ⟨_, h, fun hnone => absurd ?_ hwas⟩
    rw [hempty, hnone]
    rfl

theorem doRead_spec (s : DataSocket) (horderly : ∀ r ∈ incoming, r.Orderly) :
    (∃ result, (doRead incoming s).result = .ok result) ∧ Fed False s (doRead incoming s).socket ∧
      ∀ r ∈ (doRead incoming s).incoming, r ∈ incoming := by
  cases incoming with
  | nil => exact ⟨⟨_, rfl⟩, (steady_inputHungUp s).fed not_false, fun r h => h⟩
  | cons r incoming =>
    have hlater : ∀ r ∈ incoming, r.Orderly := fun r h => horderly r (List.mem_cons_of_mem _ h)
    cases r with
    | data first rest =>
      obtain ⟨hresult, ⟨entries, hgrows⟩, hrest⟩ := slurp_spec s (first :: rest) hlater
      obtain ⟨hok, hfed, heq⟩ := announce_spec hresult hgrows rfl
      refine ⟨hok, hfed, fun r h => List.mem_cons_of_mem _ (hrest r ?_)⟩
      rwa [← heq]
    | nothing => exact ⟨⟨_, rfl⟩, (steady_inputHungUp s).fed not_false, fun r h => List.mem_cons_of_mem _ h⟩
    | thrown e => exact absurd rfl (horderly _ List.mem_cons_self e)

end TCPSocket
end Synergy

/-! Data received before the peer closes, over the three stream sockets. -/
namespace Synergy

/-- A run of a new plain socket over a lower layer that ends in order. -/
structure TCPRun where
  start : DataSocket
  incoming : List ArchRead
  calls : List (SocketCall ArchWrite)
  fresh : start.log = [] ∧ start.inputBuffer = []
  orderly : (∀ r ∈ incoming, r.Orderly) ∧ ∀ c ∈ calls, c.TCPOrderly

/-- A run of a new secure socket. -/
structure SecureRun where
  start : DataSocket
  incoming : List SslRead
  calls : List SecureCall
  fresh : start.log = [] ∧ start.inputBuffer = []
  orderly : ∀ c ∈ calls, SecureSocket.Orderly c

/-- A run of a new Qt socket. -/
structure QtRun where
  start : QtDataSocket
  calls : List QtDataSocket.Call
  fresh : start.log = [] ∧ start.inputShutdown = false
  unread : start.transport.readBuffer = [] ∧ start.transport.readOffset = 0

inductive StreamRun
  | tcpSocket (run : TCPRun)
  | secureSocket (run : SecureRun)
  | qtDataSocket (run : QtRun)

namespace StreamRun

/-- What is received is announced, and reads return it. -/
def Kept : StreamRun → Prop
  | tcpSocket run => TCPSocket.stream.Kept ⟨run.start, run.incoming⟩ run.calls
  | secureSocket run => SecureSocket.stream.Kept ⟨run.start, run.incoming⟩ run.calls
  | qtDataSocket run => QtDataSocket.stream.Kept run.start run.calls

end StreamRun
end Synergy
