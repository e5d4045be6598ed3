import Synergy.Net.StreamSocket

/-! The data socket over a Qt transport: the transport turns the signals of its socket into
signals of its own, which the data socket turns into events. What the socket under the
transport answers is an argument. -/
namespace Synergy

/-- The errors of a socket; the first two can be retried. -/
inductive SocketError
  | connectionRefusedError
  | socketTimeoutError
  | otherError
  deriving DecidableEq, Repr

/-- The error cannot be retried. -/
def SocketError.isFatal : SocketError → Bool
  | connectionRefusedError | socketTimeoutError => false
  | otherError => true

/-- The certificate of a peer: the bits of its key when that is an RSA key, and the databases
that hold its fingerprint. -/
structure PeerCertificate where
  rsaBits : Option Nat
  trusted : FingerprintDatabase → Bool

/-- Shortest RSA key that is accepted. -/
def kMinimumRsaBits : Nat := 2048

def tlsRequiresPeerCertificate (level : SecurityLevel) : Bool := level = .encryptedTestOnly || level = .peerAuth

/-- `readOffset` bytes of the read buffer have been read already. -/
structure QtNetworkTransport where
  readBuffer : Bytes := []
  readOffset : Nat := 0
  writeBuffer : Bytes := []
  writeQueueLimit : Nat := 10 * 1024 * 1024
  connected : Bool := false
  fatalError : Bool := false
  deriving DecidableEq, Repr

namespace QtNetworkTransport

def close (t : QtNetworkTransport) : QtNetworkTransport := { t with connected := false, readBuffer := [], writeBuffer := [] }

/-- What is held for the reader. -/
def pending (t : QtNetworkTransport) : Bytes := t.readBuffer.drop t.readOffset

def append (t : QtNetworkTransport) (data : Bytes) : QtNetworkTransport := { t with readBuffer := t.readBuffer ++ data }

/-- The consumed prefix is dropped once it is at least half of the buffer. -/
def consume (t : QtNetworkTransport) (toRead : Nat) : QtNetworkTransport :=
  let offset := t.readOffset + toRead
  if offset = t.readBuffer.length then { t with readBuffer := [], readOffset := 0 }
  else if t.readBuffer.length / 2 ≤ offset then { t with readBuffer := t.readBuffer.drop offset, readOffset := 0 }
  else { t with readOffset := offset }

def read (t : QtNetworkTransport) (size : Nat) : Bytes × QtNetworkTransport :=
  if !t.connected || t.readBuffer.length ≤ t.readOffset then ([], t)
  else
    let toRead := min size (t.readBuffer.length - t.readOffset)
    (t.pending.take toRead, t.consume toRead)

/-- The socket takes `written` bytes of the queue. -/
def processWriteQueue (t : QtNetworkTransport) (written : Nat) : QtNetworkTransport :=
  { t with writeBuffer := t.writeBuffer.drop written }

def write (t : QtNetworkTransport) (data : Bytes) (written : Nat) : QtNetworkTransport :=
  if !t.connected then t
  else if t.writeQueueLimit < t.writeBuffer.length + data.length then { t with fatalError := true }
  else { t with writeBuffer := t.writeBuffer ++ data }.processWriteQueue written

def onBytesWritten (t : QtNetworkTransport) (bytes : Nat) : QtNetworkTransport :=
  if bytes ≤ t.writeBuffer.length then { t with writeBuffer := t.writeBuffer.drop bytes } else t

end QtNetworkTransport

structure QtDataSocket where
  transport : QtNetworkTransport := {}
  securityLevel : SecurityLevel
  serverSide : Bool := false
  resolved : Bool := false
  disconnected : Bool := false
  clientFatal : Bool := false
  inputShutdown : Bool := false
  outputShutdown : Bool := false
  log : List SocketEntry := []
  deriving DecidableEq, Repr

namespace QtDataSocket

def note (s : QtDataSocket) (entry : SocketEntry) : QtDataSocket := { s with log := s.log ++ [entry] }
def sendEvent (s : QtDataSocket) (event : EventTypes) : QtDataSocket := s.note (.sent event)

def wantsTls (s : QtDataSocket) : Bool := s.securityLevel = .encryptedTestOnly || s.securityLevel = .peerAuth

/-- The socket that an accepted connection is wrapped in. `connectedState` and `isOpen` are
what the socket says of itself; one that is encrypted already counts as connected. -/
def accepted (securityLevel : SecurityLevel) (connectedState isEncrypted isOpen : Bool) : QtDataSocket :=
  let wants := securityLevel = .encryptedTestOnly || securityLevel = .peerAuth
  let connected := connectedState || (wants && isEncrypted)
  { transport := { connected := connected }, securityLevel := securityLevel, serverSide := true
    resolved := connected && isOpen }

def handleTlsFailure (s : QtDataSocket) (message : String) : QtDataSocket :=
  let s := { s with clientFatal := true, disconnected := true }
  let s :=
    if s.serverSide then { s with resolved := true }.sendEvent .clientListenerDisconnectedOnAccept
    else s.sendEvent (.dataSocketConnectionFailed message)
  { s with transport := s.transport.close }

/-- The database in which the fingerprint of the peer is looked up, when it is. -/
def checkedDatabase (s : QtDataSocket) : Option FingerprintDatabase :=
  if s.serverSide then (if s.securityLevel = .peerAuth then some .trustedClients else none)
  else if tlsRequiresPeerCertificate s.securityLevel then some .trustedServers
  else none

/-- What is wrong with the peer of an encrypted connection. -/
def tlsFailure (s : QtDataSocket) (peer : Option PeerCertificate) : Option String :=
  if tlsRequiresPeerCertificate s.securityLevel && peer.isNone then some "peer has no tls certificate"
  else
    match peer.bind (·.rsaBits) with
    | some bits =>
      if 0 < bits ∧ bits < kMinimumRsaBits then
        some ("RSA key too small (" ++ toString bits ++ " bits, minimum 2048)")
      else untrusted
    | none => untrusted
where
  untrusted : Option String :=
    match s.checkedDatabase with
    | some database =>
      if peer.any (·.trusted database) then none else some "failed to verify peer certificate fingerprint"
    | none => none

/-- The peer of an encrypted connection is turned away. -/
def rejects (s : QtDataSocket) (peer : Option PeerCertificate) : Prop := s.wantsTls ∧ (s.tlsFailure peer).isSome

instance (s : QtDataSocket) (peer : Option PeerCertificate) : Decidable (s.rejects peer) :=
  inferInstanceAs (Decidable (_ ∧ _))

/-- At the TLS levels the socket under the transport is a TLS socket. -/
def handleConnected (s : QtDataSocket) (peer : Option PeerCertificate) : QtDataSocket :=
  if !s.wantsTls then { s with resolved := true }.sendEvent .dataSocketConnected
  else
    match s.tlsFailure peer with
    | some message => s.handleTlsFailure message
    | none =>
      { s with resolved := true }.sendEvent (if s.serverSide then .clientListenerAccepted else .dataSocketSecureConnected)

def handleDisconnected (s : QtDataSocket) : QtDataSocket :=
  if s.disconnected then s
  else
    let s := { s with disconnected := true }
    if s.serverSide && s.wantsTls && !s.resolved then s.sendEvent .clientListenerDisconnectedOnAccept
    else (s.sendEvent .streamInputShutdown).sendEvent .socketDisconnected

def handleError (s : QtDataSocket) (message : String) (fatal : Bool) : QtDataSocket :=
  if !fatal then s
  else if !s.resolved then
    if s.serverSide then { s with resolved := true }.sendEvent .clientListenerDisconnectedOnAccept
    else s.sendEvent (.dataSocketConnectionFailed message)
  else s.sendEvent .streamOutputError

/-- The connected signal, or the encrypted one of a TLS socket, and what it sets off. -/
def onConnected (s : QtDataSocket) (peer : Option PeerCertificate) : QtDataSocket :=
  { s with transport := { s.transport with connected := true, fatalError := false } }.handleConnected peer

def onDisconnected (s : QtDataSocket) : QtDataSocket :=
  { s with transport := { s.transport with connected := false } }.handleDisconnected

def onReadyRead (s : QtDataSocket) (data : Bytes) : QtDataSocket :=
  if data.isEmpty then s
  else { s.note (.stored data) with transport := s.transport.append data }.sendEvent .streamInputReady

/-- The transport stays fatal once it is, until it is connected. -/
def onErrorOccurred (s : QtDataSocket) (error : SocketError) (message : String) : QtDataSocket :=
  let fatal := s.transport.fatalError || error.isFatal
  { s with transport := { s.transport with fatalError := fatal } }.handleError message fatal

/-- A TLS socket cannot connect without its certificate. -/
def connect (s : QtDataSocket) (certificateLoads : Bool) : QtDataSocket :=
  if s.wantsTls && !certificateLoads then { s with transport := { s.transport with fatalError := true } } else s

def close (s : QtDataSocket) : QtDataSocket :=
  let s := { s with transport := s.transport.close }
  if s.disconnected then s
  else ({ s with disconnected := true }.sendEvent .streamOutputShutdown).sendEvent .socketDisconnected

def read (s : QtDataSocket) (n : Nat) : Bytes × QtDataSocket :=
  if s.inputShutdown then ([], s)
  else ((s.transport.read n).1, { s.note (.taken (s.transport.read n).1) with transport := (s.transport.read n).2 })

def write (s : QtDataSocket) (data : Bytes) (written : Nat) : QtDataSocket :=
  if s.outputShutdown || s.transport.fatalError then s.sendEvent .streamOutputError
  else
    let s := { s with transport := s.transport.write data written }
    if s.transport.fatalError then s.sendEvent .streamOutputError else s

/-- The calls to the data socket and the signals of the socket under its transport. One that
was encrypted before it was wrapped has its signal replayed. -/
inductive Call
  | connect (certificateLoads : Bool)
  | connected (peer : Option PeerCertificate)
  | replayed (peer : Option PeerCertificate)
  | disconnected
  | readyRead (data : Bytes)
  | errorOccurred (error : SocketError) (message : String)
  | bytesWritten (bytes : Nat)
  | read (n : Nat)
  | write (data : Bytes) (written : Nat)
  | shutdownInput
  | shutdownOutput
  | close

def step (s : QtDataSocket) : Call → QtDataSocket
  | .connect certificateLoads => s.connect certificateLoads
  | .connected peer => s.onConnected peer
  | .replayed peer => s.handleConnected peer
  | .disconnected => s.onDisconnected
  | .readyRead data => s.onReadyRead data
  | .errorOccurred error message => s.onErrorOccurred error message
  | .bytesWritten bytes => { s with transport := s.transport.onBytesWritten bytes }
  | .read n => (s.read n).2
  | .write data written => s.write data written
  | .shutdownInput => { s with inputShutdown := true }
  | .shutdownOutput => { s with outputShutdown := true }
  | .close => s.close

/-- The calls with which the application ends the reading. -/
def Call.closes : Call → Bool
  | .close | .shutdownInput => true
  | _ => false

def stream : StreamSocket QtDataSocket Call where
  step := step
  log := log
  buffered s := s.transport.pending
  read s n := (s.read n).1
  closes := Call.closes

end QtDataSocket
end Synergy
