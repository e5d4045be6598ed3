import Synergy.Net.StreamSocket

/-! The TCP data socket, with the members that a secure one adds. What a secure socket
overrides, the choice of the next job and the reading and writing, is an argument of the
functions that call it. What the lower layer answers is an argument too. -/
namespace Synergy

/-- The service methods that a job of the multiplexer runs. -/
inductive Service
  | serviceConnecting
  | serviceConnected
  | serviceConnect
  | serviceAccept
  deriving DecidableEq, Repr

/-- A job for the multiplexer, with what it polls for. -/
structure SocketJob where
  service : Service
  read : Bool
  write : Bool
  deriving DecidableEq, Repr

inductive JobResult
  | break
  | retry
  | new
  deriving DecidableEq, Repr

inductive ArchNetworkException
  | shutdown
  | disconnected
  | other
  deriving DecidableEq, Repr

/-- The TLS state: its context, and the connection once it has been made. -/
structure Ssl where
  context : Bool
  ssl : Bool
  deriving DecidableEq, Repr

/-- The members of a data socket, then those of a secure one; `socket` says whether there is
a socket, and `watching` whether a handler for the connected event is in place. `job` is the
job in the multiplexer and `queue` what the event queue still holds for the socket. -/
structure DataSocket where
  socket : Bool := true
  connected : Bool := false
  readable : Bool := false
  writable : Bool := false
  readPaused : Bool := false
  flushed : Bool := true
  inputBuffer : Bytes := []
  outputBuffer : Bytes := []
  ssl : Option Ssl := none
  secureReady : Bool := false
  fatal : Bool := false
  securityLevel : SecurityLevel := .encryptedTestOnly
  writeRetry : Bool := false
  writeRetrySize : Nat := 0
  writeBuffer : Bytes := []
  watching : Bool := false
  job : Option SocketJob := none
  queue : List EventTypes := []
  log : List SocketEntry := []
  deriving DecidableEq, Repr

namespace DataSocket

def note (s : DataSocket) (entry : SocketEntry) : DataSocket := { s with log := s.log ++ [entry] }

def sendEvent (s : DataSocket) (event : EventTypes) : DataSocket :=
  { s.note (.sent event) with queue := s.queue ++ [event] }

def setJob (s : DataSocket) (job : Option SocketJob) : DataSocket := { s with job := job }

def store (s : DataSocket) (data : Bytes) : DataSocket :=
  { s.note (.stored data) with inputBuffer := s.inputBuffer ++ data }

def onConnected (s : DataSocket) : DataSocket := { s with connected := true, readable := true, writable := true }

def onInputShutdown (s : DataSocket) : DataSocket := { s with inputBuffer := [], readable := false }

def onOutputShutdown (s : DataSocket) : DataSocket := { s with outputBuffer := [], writable := false, flushed := true }

def onDisconnected (s : DataSocket) : DataSocket := { s.onInputShutdown.onOutputShutdown with connected := false }

/-- The socket is disconnected, with nothing left to read. -/
def hangUp (s : DataSocket) : DataSocket := { s.sendEvent .socketDisconnected with connected := false }

def discardWrittenData (s : DataSocket) (bytesWrote : Nat) : DataSocket :=
  let s := { s with outputBuffer := s.outputBuffer.drop bytesWrote }
  if s.outputBuffer.isEmpty then { s.sendEvent .streamOutputFlushed with flushed := true } else s

/-- The remote end will write no more; what has been received stays. -/
def inputHungUp (s : DataSocket) : DataSocket :=
  let s := s.sendEvent .streamInputShutdown
  let s := if !s.writable && s.inputBuffer.isEmpty then s.hangUp else s
  { s with readable := false }

end DataSocket

/-- What a read of the socket gives; none of these is the end of the stream. -/
inductive ArchRead
  | data (first : UInt8) (rest : Bytes)
  | nothing
  | thrown (e : ArchNetworkException)
  deriving DecidableEq, Repr

/-- What a write to the socket gives. -/
inductive ArchWrite
  | wrote (n : Nat)
  | thrown (e : ArchNetworkException)
  deriving DecidableEq, Repr

/-- What an attempt to connect gives. -/
inductive ArchConnect
  | done
  | inProgress
  | thrown
  deriving DecidableEq, Repr

/-- A socket, what the lower layer still has for it, and what a service method says. -/
structure Served (R : Type) where
  socket : DataSocket
  incoming : List R
  result : Except ArchNetworkException JobResult

namespace TCPSocket
open DataSocket

/-- The input buffer is full from here on, and half of it is the mark for going on. -/
def inputBufferHighWater : Nat := 1024 * 1024

def newJob (s : DataSocket) : Option SocketJob :=
  if !s.socket then none
  else if !s.connected then
    if s.readable || s.writable then some ⟨.serviceConnecting, s.readable, s.writable⟩ else none
  else
    let wantRead := s.readable && !s.readPaused
    let wantWrite := s.writable && !s.outputBuffer.isEmpty
    if !wantRead && !wantWrite && !s.readPaused then none else some ⟨.serviceConnected, wantRead, wantWrite⟩

/-- The data pieces that follow the first one, up to the high-water mark. -/
def slurp (s : DataSocket) (piece : Bytes) : List ArchRead → Served ArchRead
  | [] =>
    let s := s.store piece
    if inputBufferHighWater ≤ s.inputBuffer.length then ⟨{ s with readPaused := true }, [], .ok .retry⟩
    else ⟨s, [], .ok .retry⟩
  | r :: incoming =>
    let s := s.store piece
    if inputBufferHighWater ≤ s.inputBuffer.length then ⟨{ s with readPaused := true }, r :: incoming, .ok .retry⟩
    else
      match r with
      | .data first rest => slurp s (first :: rest) incoming
      | .nothing => ⟨s, incoming, .ok .retry⟩
      | .thrown e => ⟨s, incoming, .error e⟩

/-- What follows the slurp when nothing was thrown: the data is announced. -/
def announce {R : Type} (wasEmpty : Bool) : Served R → Served R
  | ⟨s, incoming, .ok _⟩ =>
    let s := if wasEmpty then s.sendEvent .streamInputReady else s
    ⟨s, incoming, .ok (if s.readPaused then .new else .retry)⟩
  | served => served

def doRead (incoming : List ArchRead) (s : DataSocket) : Served ArchRead :=
  match incoming with
  | .data first rest :: incoming => announce s.inputBuffer.isEmpty (slurp s (first :: rest) incoming)
  | .thrown e :: incoming => ⟨s, incoming, .error e⟩
  | [] => ⟨s.inputHungUp, [], .ok .new⟩
  | .nothing :: incoming => ⟨s.inputHungUp, incoming, .ok .new⟩

def doWrite (answer : ArchWrite) (s : DataSocket) : DataSocket × Except ArchNetworkException JobResult :=
  match answer with
  | .thrown e => (s, .error e)
  | .wrote 0 => (s, .ok .retry)
  | .wrote (n + 1) => (s.discardWrittenData (n + 1), .ok .new)

/-- The writing of `serviceConnected`, with what it catches. -/
def tryWrite (doWrite : DataSocket → DataSocket × Except ArchNetworkException JobResult) (write : Bool)
    (s : DataSocket) : DataSocket × JobResult :=
  if !write then (s, .retry)
  else
    match doWrite s with
    | (s, .ok result) => (s, result)
    | (s, .error .shutdown) =>
      let s := s.onOutputShutdown.sendEvent .streamOutputShutdown
      (if !s.readable && s.inputBuffer.isEmpty then s.hangUp else s, .new)
    | (s, .error .disconnected) => (s.onDisconnected.sendEvent .socketDisconnected, .new)
    | (s, .error .other) => ((s.onDisconnected.sendEvent .streamOutputError).sendEvent .socketDisconnected, .new)

/-- The reading of `serviceConnected`, with what it catches. -/
def tryRead {R : Type} (doRead : List R → DataSocket → Served R) (read : Bool) (incoming : List R) (s : DataSocket) :
    DataSocket × List R × JobResult :=
  if !(read && s.readable) then (s, incoming, .retry)
  else
    match doRead incoming s with
    | ⟨s, incoming, .ok result⟩ => (s, incoming, result)
    | ⟨s, incoming, .error .disconnected⟩ => ((s.sendEvent .socketDisconnected).onDisconnected, incoming, .new)
    | ⟨s, incoming, .error _⟩ => (s, incoming, .retry)

/-- The job that follows: none, a new one, or the same. -/
def nextJob (newJob : DataSocket → Option SocketJob) (writeResult readResult : JobResult) (s : DataSocket) :
    DataSocket :=
  if readResult = .break ∨ writeResult = .break then s.setJob none
  else if writeResult = .new ∨ readResult = .new then s.setJob (newJob s)
  else s

def serviceConnected {R : Type} (newJob : DataSocket → Option SocketJob) (doRead : List R → DataSocket → Served R)
    (doWrite : DataSocket → DataSocket × Except ArchNetworkException JobResult) (read write error : Bool)
    (incoming : List R) (s : DataSocket) : DataSocket × List R :=
  if error then
    let s := (s.sendEvent .socketDisconnected).onDisconnected
    (s.setJob (newJob s), incoming)
  else
    let written := tryWrite doWrite write s
    let served := tryRead doRead read incoming written.1
    (nextJob newJob written.2 served.2.2 served.1, served.2.1)

/-- `failure` is what the socket says went wrong, if anything did. -/
def serviceConnecting (newJob : DataSocket → Option SocketJob) (failure : Option String) (write : Bool)
    (s : DataSocket) : DataSocket :=
  match failure with
  | some what =>
    let s := (s.sendEvent (.dataSocketConnectionFailed what)).onDisconnected
    s.setJob (newJob s)
  | none =>
    if write then
      let s := (s.sendEvent .dataSocketConnected).onConnected
      s.setJob (newJob s)
    else s

def connect (newJob : DataSocket → Option SocketJob) (answer : ArchConnect) (s : DataSocket) : DataSocket :=
  if !s.socket || s.connected then s.sendEvent (.dataSocketConnectionFailed "busy")
  else
    match answer with
    | .done =>
      let s := (s.sendEvent .dataSocketConnected).onConnected
      s.setJob (newJob s)
    | .inProgress =>
      let s := { s with writable := true }
      s.setJob (newJob s)
    | .thrown => s

/-- What `read` leaves of the socket before it polls for input again. -/
def take (n : Nat) (s : DataSocket) : DataSocket :=
  let rest := s.inputBuffer.drop n
  let s' := { s.note (.taken (s.inputBuffer.take n)) with
    inputBuffer := rest
    readPaused := s.readPaused && inputBufferHighWater / 2 < rest.length }
  if !(s.inputBuffer.take n).isEmpty && rest.isEmpty && !s.readable && !s.writable then s'.hangUp else s'

/-- The bytes that a read of `n` returns, and the socket after it. -/
def read (newJob : DataSocket → Option SocketJob) (n : Nat) (s : DataSocket) : Bytes × DataSocket :=
  let taken := take n s
  (s.inputBuffer.take n, if s.readPaused && !taken.readPaused then taken.setJob (newJob taken) else taken)

def write (newJob : DataSocket → Option SocketJob) (data : Bytes) (s : DataSocket) : DataSocket :=
  if !s.writable then s.sendEvent .streamOutputError
  else if data.isEmpty then s
  else
    let written := { s with outputBuffer := s.outputBuffer ++ data, flushed := false }
    if s.outputBuffer.isEmpty then written.setJob (newJob written) else written

def shutdownInput (newJob : DataSocket → Option SocketJob) (s : DataSocket) : DataSocket :=
  if s.readable then
    let s := (s.sendEvent .streamInputShutdown).onInputShutdown
    s.setJob (newJob s)
  else s

def shutdownOutput (newJob : DataSocket → Option SocketJob) (s : DataSocket) : DataSocket :=
  if s.writable then
    let s := (s.sendEvent .streamOutputShutdown).onOutputShutdown
    s.setJob (newJob s)
  else s

def close (s : DataSocket) : DataSocket :=
  let s := s.setJob none
  let s := if s.connected then s.sendEvent .socketDisconnected else s
  { s.onDisconnected with socket := false }

end TCPSocket
end Synergy
