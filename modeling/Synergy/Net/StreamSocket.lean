import Synergy.Base.Types
import Synergy.Io.StreamBuffer
import Synergy.Lib.Trace

/-! What a data socket does that others see, in order, and what its reader relies on:
that new data is announced, and that reads go on with the bytes received until the
application itself closes the socket or shuts its input down. -/
namespace Synergy

/-- The events of data sockets and of accepted ones. -/
inductive EventTypes
  | dataSocketConnected
  | dataSocketSecureConnected
  | dataSocketConnectionFailed (what : String)
  | clientListenerAccepted
  | clientListenerDisconnectedOnAccept
  | streamInputReady
  | streamInputShutdown
  | streamOutputFlushed
  | streamOutputShutdown
  | streamOutputError
  | socketDisconnected
  deriving DecidableEq, Repr

/-- The fingerprint databases that the TLS configuration names. -/
inductive FingerprintDatabase
  | trustedServers
  | trustedClients
  deriving DecidableEq, Repr

/-- An event sent, data written to the input buffer or given to a reader, a call to the TLS
library, its handshake completed, and the answer of a fingerprint check. -/
inductive SocketEntry
  | sent (event : EventTypes)
  | stored (data : Bytes)
  | taken (data : Bytes)
  | sslRead
  | sslWrite
  | handshakeDone
  | verified (database : FingerprintDatabase) (trusted : Bool)
  deriving DecidableEq, Repr

namespace SocketEntry

def received : SocketEntry → Bytes
  | stored data => data
  | _ => []

def returned : SocketEntry → Bytes
  | taken data => data
  | _ => []

end SocketEntry

def receivedBytes (entries : List SocketEntry) : Bytes := entries.flatMap SocketEntry.received
def returnedBytes (entries : List SocketEntry) : Bytes := entries.flatMap SocketEntry.returned

@[simp] theorem receivedBytes_append (l m : List SocketEntry) :
    receivedBytes (l ++ m) = receivedBytes l ++ receivedBytes m :=
  List.flatMap_append

@[simp] theorem returnedBytes_append (l m : List SocketEntry) :
    returnedBytes (l ++ m) = returnedBytes l ++ returnedBytes m :=
  List.flatMap_append

/-- A stream socket as a system that takes steps, with what a read of `n` bytes would return
in a state; `closes` are the application's steps that end the reading. -/
structure StreamSocket (σ α : Type) where
  step : σ → α → σ
  log : σ → List SocketEntry
  buffered : σ → Bytes
  read : σ → Nat → Bytes
  closes : α → Bool

namespace StreamSocket
variable {σ α : Type} (S : StreamSocket σ α)

def received (s : σ) : Bytes := receivedBytes (S.log s)
def returned (s : σ) : Bytes := returnedBytes (S.log s)

/-- What a step adds to the log. -/
def news (s : σ) (a : α) : List SocketEntry := (S.log (S.step s a)).drop (S.log s).length

/-- Bytes that a step appends to an empty input buffer are announced in it. -/
def Announces (s : σ) (a : α) : Prop :=
  S.buffered s = [] → receivedBytes (S.news s a) ≠ [] → .sent .streamInputReady ∈ S.news s a

/-- Reads go on with the received bytes where the reads so far have ended. -/
def Readable (s : σ) : Prop :=
  ∀ n, S.returned s ++ S.read s n = (S.received s).take ((S.returned s).length + n)

/-- Every step of a run announces what it appends. -/
def Announced (s : σ) (run : List α) : Prop := Lib.EachStep (fun s a _ => S.Announces s a) s (Lib.runTrace S.step s run)

/-- A run is readable in every state up to where the application ends the reading. -/
def StaysReadable : σ → List α → Prop
  | s, [] => S.Readable s
  | s, a :: run => S.Readable s ∧ (S.closes a = false → StaysReadable (S.step s a) run)

/-- What is received before the peer closes is announced and stays readable. -/
def Kept (s : σ) (run : List α) : Prop := S.Announced s run ∧ S.StaysReadable s run

variable {S}

/-- A buffer that holds the received bytes but for the returned ones, and is read from its front. -/
theorem readable_of_buffered {s : σ} (hbuffer : S.received s = S.returned s ++ S.buffered s)
    (hread : ∀ n, S.read s n = (S.buffered s).take n) : S.Readable s := by
  intro n
  rw [hread, hbuffer, List.take_length_add_append]

end StreamSocket
end Synergy
