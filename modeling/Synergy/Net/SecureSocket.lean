import Synergy.Net.TCPSocket

/-! The secure socket: the handshake over a connected socket, the fingerprint check, and the
reads and writes through the TLS library. What the library answers is an argument. -/
namespace Synergy

/-- The codes of `SSL_get_error`. -/
inductive SslError
  | none
  | zeroReturn
  | wantRead
  | wantWrite
  | wantConnect
  | wantAccept
  | syscall
  | ssl
  | other
  deriving DecidableEq, Repr

namespace SslError

/-- The code ends the connection. -/
def isFatal : SslError → Bool
  | zeroReturn | syscall | ssl | other => true
  | _ => false

/-- The operation is to be tried again. -/
def isRetry : SslError → Bool
  | wantRead | wantWrite | wantConnect | wantAccept => true
  | _ => false

end SslError

/-- What `SSL_read` gives: at least one byte, or none and a code. -/
inductive SslRead
  | data (first : UInt8) (rest : Bytes)
  | error (code : SslError)
  deriving DecidableEq, Repr

namespace SslRead

def code : SslRead → SslError
  | data _ _ => .none
  | error code => code

def bytes : SslRead → Bytes
  | data first rest => first :: rest
  | error _ => []

end SslRead

/-- What `SSL_write` gives. -/
inductive SslWrite
  | wrote (n : Nat)
  | error (code : SslError)
  deriving DecidableEq, Repr

namespace SslWrite

def code : SslWrite → SslError
  | wrote _ => .none
  | error code => code

def count : SslWrite → Nat
  | wrote n => n
  | error _ => 0

end SslWrite

/-- What one call of a handshake finds: the own certificate, the code of the library, the
fingerprint databases, and the certificate of the server for the log. -/
structure Handshake where
  certificateLoads : Bool
  code : SslError
  trusted : FingerprintDatabase → Bool
  certificateShown : Bool

namespace SecureSocket
open DataSocket

/-- There is a TLS connection. -/
def hasSsl (s : DataSocket) : Bool := s.ssl.any (·.ssl)

/-- Before a connection there is nothing to hand to the TLS library: the job is gone. -/
def newJob (s : DataSocket) : Option SocketJob :=
  if s.connected && !s.secureReady then
    if hasSsl s then some ⟨.serviceConnect, s.readable, s.writable⟩ else none
  else TCPSocket.newJob s

def disconnect (s : DataSocket) : DataSocket := (s.sendEvent .socketDisconnected).sendEvent .streamInputShutdown

/-- The flags that a code asks for. -/
def setFlags (code : SslError) (s : DataSocket) : DataSocket :=
  { s with
    readable := s.readable || code = .wantRead
    writable := s.writable || code = .wantWrite
    fatal := s.fatal || code.isFatal }

/-- Whether to retry, and the socket with its flags. -/
def checkResult (code : SslError) (s : DataSocket) : Bool × DataSocket :=
  let s := setFlags code s
  if s.fatal then (false, disconnect s) else (code.isRetry, s)

/-- The status of a read or write of `count` bytes: 0 for a retry, negative when it is fatal. -/
def statusOf (code : SslError) (count : Nat) (s : DataSocket) : Int × DataSocket :=
  let (retry, s) := checkResult code s
  (if retry then 0 else if s.fatal then -1 else count, s)

/-- With no connection left the count of bytes read stays what it was, which is 0. -/
def secureRead (answer : SslRead) (s : DataSocket) : Int × DataSocket :=
  if hasSsl s then statusOf answer.code answer.bytes.length (s.note .sslRead) else (0, s)

def secureWrite (answer : SslWrite) (s : DataSocket) : Int × DataSocket :=
  if hasSsl s then statusOf answer.code answer.count (s.note .sslWrite) else (0, s)

/-- The data pieces that follow the first one, up to the high-water mark; a fatal status
breaks off. The stream ends with the end of the answers. -/
def slurp (s : DataSocket) (piece : Bytes) : List SslRead → Served SslRead
  | [] =>
    let s := s.store piece
    if TCPSocket.inputBufferHighWater ≤ s.inputBuffer.length then ⟨{ s with readPaused := true }, [], .ok .retry⟩
    else
      let (status, s) := secureRead (.error .zeroReturn) s
      ⟨s, [], .ok (if status < 0 then .break else .retry)⟩
  | r :: incoming =>
    let s := s.store piece
    if TCPSocket.inputBufferHighWater ≤ s.inputBuffer.length then
      ⟨{ s with readPaused := true }, r :: incoming, .ok .retry⟩
    else
      let (status, s) := secureRead r s
      if status < 0 then ⟨s, incoming, .ok .break⟩
      else if 0 < r.bytes.length ∨ 0 < status then slurp s r.bytes incoming
      else ⟨s, incoming, .ok .retry⟩

/-- A slurp that was broken off announces nothing. -/
def announce (wasEmpty : Bool) (served : Served SslRead) : Served SslRead :=
  match served.result with
  | .ok .break => served
  | _ => TCPSocket.announce wasEmpty served

/-- The answer to the next call of `SSL_read`, and those after it. -/
def nextAnswer : List SslRead → SslRead × List SslRead
  | [] => (.error .zeroReturn, [])
  | r :: incoming => (r, incoming)

def doRead (incoming : List SslRead) (s : DataSocket) : Served SslRead :=
  if !s.secureReady then ⟨s, incoming, .ok .retry⟩
  else
    let (r, incoming) := nextAnswer incoming
    let (status, s) := secureRead r s
    if status < 0 then ⟨s, incoming, .ok .break⟩
    else if status = 0 then ⟨s, incoming, .ok .new⟩
    else if 0 < r.bytes.length then announce s.inputBuffer.isEmpty (slurp s r.bytes incoming)
    else ⟨s.inputHungUp, incoming, .ok .new⟩

/-- The bytes that a write is about: those of the last one, when it is to be retried. -/
def writeSize (s : DataSocket) : Nat := if s.writeRetry then s.writeRetrySize else s.outputBuffer.length

/-- The write buffer can be allocated. -/
def doWrite (answer : SslWrite) (s : DataSocket) : DataSocket × Except ArchNetworkException JobResult :=
  let size := writeSize s
  let s := if s.writeRetry || size = 0 then s else { s with writeBuffer := s.outputBuffer }
  if size = 0 || !s.secureReady then (s, .ok .retry)
  else
    let (status, s) := secureWrite answer s
    if status < 0 then (s, .ok .break)
    else if status = 0 then ({ s with writeRetry := true, writeRetrySize := size }, .ok .new)
    else
      let s := { s with writeRetry := false }
      if 0 < answer.count then (s.discardWrittenData answer.count, .ok .new) else (s, .ok .retry)

def initSsl (s : DataSocket) : DataSocket := { s with ssl := some ⟨true, false⟩ }

def createSSL (s : DataSocket) : DataSocket := { s with ssl := s.ssl.map ({ · with ssl := true }) }

/-- The fingerprint of the peer is looked up in a database. -/
def verifyCertFingerprint (database : FingerprintDatabase) (h : Handshake) (s : DataSocket) : Bool × DataSocket :=
  (h.trusted database, s.note (.verified database (h.trusted database)))

/-- The handshake has been completed. -/
def finished (s : DataSocket) : DataSocket := s.note .handshakeDone

def secureAccept (h : Handshake) (s : DataSocket) : Int × DataSocket :=
  let (retry, s) := checkResult h.code (createSSL s)
  if s.fatal then (-1, { s with secureReady := false })
  else if retry then (0, { s with secureReady := false })
  else
    let s := finished s
    if s.securityLevel = .peerAuth then
      let (trusted, s) := verifyCertFingerprint .trustedClients h s
      if trusted then (1, { s with secureReady := true }) else (-1, disconnect s)
    else (1, { s with secureReady := true })

def secureConnect (h : Handshake) (s : DataSocket) : Int × DataSocket :=
  if !h.certificateLoads then (-1, disconnect s)
  else
    let (retry, s) := checkResult h.code (createSSL s)
    if s.fatal then (-1, s)
    else if retry then (0, { s with secureReady := false })
    else
      let s := { finished s with secureReady := true }
      let (trusted, s) := verifyCertFingerprint .trustedServers h s
      if trusted && h.certificateShown then (1, s) else (-1, disconnect s)

/-- The flags are reset, so that the handshake can set what the library needs. -/
def resetFlags (s : DataSocket) : DataSocket := { s with readable := false, writable := false }

def serviceConnect (h : Handshake) (s : DataSocket) : DataSocket :=
  let (status, s) := secureConnect h (resetFlags s)
  if status < 0 then s.setJob none
  else if 0 < status then
    let s := { s with readable := true, writable := true }.sendEvent .dataSocketSecureConnected
    s.setJob (newJob s)
  else
    let s := if !s.readable && !s.writable then { s with writable := true } else s
    s.setJob (some ⟨.serviceConnect, s.readable, s.writable⟩)

def serviceAccept (h : Handshake) (s : DataSocket) : DataSocket :=
  let (status, s) := secureAccept h (resetFlags s)
  if status < 0 then (s.sendEvent .clientListenerDisconnectedOnAccept).setJob none
  else if 0 < status then
    let s := { s with readable := true, writable := true }.sendEvent .clientListenerAccepted
    s.setJob (newJob s)
  else
    let s := if !s.readable && !s.writable then { s with readable := true } else s
    s.setJob (some ⟨.serviceAccept, s.readable, s.writable⟩)

/-- The handshake is started by the handler for the connected event. -/
def handleTCPConnected (s : DataSocket) : DataSocket :=
  if !s.socket then s else s.setJob (some ⟨.serviceConnect, s.readable, s.writable⟩)

def freeSSL (s : DataSocket) : DataSocket := { s with fatal := true, job := none, ssl := none }

def close (s : DataSocket) : DataSocket := TCPSocket.close (freeSSL s)

def connect (answer : ArchConnect) (s : DataSocket) : DataSocket :=
  TCPSocket.connect newJob answer { s with watching := true }

end SecureSocket
end Synergy

/-! The calls that a data socket gets, from the application, the multiplexer and the event
queue, one after the other in any order. The lower layer is the sequence of what it still
has to give; its end is the end of the stream. -/
namespace Synergy
open DataSocket

/-- What the secure socket overrides. -/
structure SocketClass (R W : Type) where
  newJob : DataSocket → Option SocketJob
  doRead : List R → DataSocket → Served R
  doWrite : W → DataSocket → DataSocket × Except ArchNetworkException JobResult
  connect : ArchConnect → DataSocket → DataSocket
  close : DataSocket → DataSocket
  handler : DataSocket → DataSocket

def TCPSocket.methods : SocketClass ArchRead ArchWrite where
  newJob := TCPSocket.newJob
  doRead := TCPSocket.doRead
  doWrite := TCPSocket.doWrite
  connect := TCPSocket.connect TCPSocket.newJob
  close := TCPSocket.close
  handler := id

def SecureSocket.methods : SocketClass SslRead SslWrite where
  newJob := SecureSocket.newJob
  doRead := SecureSocket.doRead
  doWrite := SecureSocket.doWrite
  connect := SecureSocket.connect
  close := SecureSocket.close
  handler := SecureSocket.handleTCPConnected

/-- A call with what the lower layer answers to it. In `dispatch` the first queued event is
handled. -/
inductive SocketCall (W : Type)
  | connect (answer : ArchConnect)
  | dispatch
  | serviceConnecting (failure : Option String) (write : Bool)
  | serviceConnected (read write error : Bool) (answer : W)
  | read (n : Nat)
  | write (data : Bytes)
  | shutdownInput
  | shutdownOutput
  | close

/-- The calls to a secure socket. -/
inductive SecureCall
  | base (call : SocketCall SslWrite)
  | serviceConnect (h : Handshake)
  | serviceAccept (h : Handshake)

/-- A socket and the lower layer under it. -/
structure Linked (R : Type) where
  socket : DataSocket
  incoming : List R

namespace SocketClass
variable {R W : Type} (v : SocketClass R W)

/-- The handler for the connected event is the only one that a socket has itself. -/
def dispatch (s : DataSocket) : DataSocket :=
  match s.queue with
  | [] => s
  | event :: queue =>
    let s := { s with queue := queue }
    if event = .dataSocketConnected ∧ s.watching then v.handler s else s

def call (t : Linked R) : SocketCall W → Linked R
  | .connect answer => { t with socket := v.connect answer t.socket }
  | .dispatch => { t with socket := v.dispatch t.socket }
  | .serviceConnecting failure write => { t with socket := TCPSocket.serviceConnecting v.newJob failure write t.socket }
  | .serviceConnected read write error answer =>
    let served := TCPSocket.serviceConnected v.newJob v.doRead (v.doWrite answer) read write error t.incoming t.socket
    { socket := served.1, incoming := served.2 }
  | .read n => { t with socket := (TCPSocket.read v.newJob n t.socket).2 }
  | .write data => { t with socket := TCPSocket.write v.newJob data t.socket }
  | .shutdownInput => { t with socket := TCPSocket.shutdownInput v.newJob t.socket }
  | .shutdownOutput => { t with socket := TCPSocket.shutdownOutput v.newJob t.socket }
  | .close => { t with socket := v.close t.socket }

end SocketClass

def SecureSocket.call (t : Linked SslRead) : SecureCall → Linked SslRead
  | .base call => SecureSocket.methods.call t call
  | .serviceConnect h => { t with socket := SecureSocket.serviceConnect h t.socket }
  | .serviceAccept h => { t with socket := SecureSocket.serviceAccept h t.socket }

/-- The calls with which the application ends the reading. -/
def SocketCall.closes {W : Type} : SocketCall W → Bool
  | .close | .shutdownInput => true
  | _ => false

def SecureCall.closes : SecureCall → Bool
  | .base call => call.closes
  | _ => false

def TCPSocket.stream : StreamSocket (Linked ArchRead) (SocketCall ArchWrite) where
  step := TCPSocket.methods.call
  log t := t.socket.log
  buffered t := t.socket.inputBuffer
  read t n := (TCPSocket.read TCPSocket.newJob n t.socket).1
  closes := SocketCall.closes

def SecureSocket.stream : StreamSocket (Linked SslRead) SecureCall where
  step := SecureSocket.call
  log t := t.socket.log
  buffered t := t.socket.inputBuffer
  read t n := (TCPSocket.read SecureSocket.newJob n t.socket).1
  closes := SecureCall.closes

end Synergy
