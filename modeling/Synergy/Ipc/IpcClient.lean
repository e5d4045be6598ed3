import Synergy.Ipc.Conversations

/-! The IPC client of the GUI: attempts to connect, the hello and its answer, and the messages
that come on a connection. -/
namespace Synergy.Ipc

/-- Maximum connection attempts per `connectToServer` call. -/
def kRetryLimit : Nat := 3

/-- `isQt6` tells that a handler of `connected` goes away alone when it is called; before Qt 6 all
of them go. -/
structure IpcClientSetup where
  kVersion : Str
  fromUtf8 : Bytes → Str
  isQt6 : Bool

inductive IpcClientState where
  | unconnected
  | connecting
  | connected
  | disconnecting
  deriving DecidableEq

/-- The state of the `QLocalSocket`. While it is closing bytes may still come. -/
inductive LocalSocketState where
  | unconnected
  | connecting
  | connected
  | closing
  deriving DecidableEq

/-- Whom a connection leads to: `trusted` is the outcome of `verifyServerIsTrusted`, `token` what
`readIpcToken` finds, and `server` what the other end compares a hello with. -/
structure IpcPeer where
  trusted : Bool
  token : Str
  server : IpcSetup

/-- What the server has made of the messages on a connection: the connection is authenticated, or
has been answered with `versionMismatch`. -/
structure ServerView where
  authenticated : Bool
  mismatched : Bool

/-- `handlers` counts the one-shot handlers of `connected`, and `retries` are the retries that
have been scheduled, with the `connectToServer` call that they come from. The rest is history:
`calls` counts the calls, `attempting` is the one that the last attempt comes from, `attempts` counts
the attempts of each; `left` tells that the client has disconnected from the last connection, `answered`
that its hello was answered, `genuine` that the answer was the server's, `hellos` counts the hellos on it,
and `foreign` tells that `readBuffer` holds bytes of another one. The last three are what must not
happen: a message processed on a connection that the client has left or that was not answered, one made
of two connections, and one that was sent in state connected and refused by the server. -/
structure IpcClient where
  state : IpcClientState
  socket : LocalSocketState
  readBuffer : Bytes
  retryCount : Nat
  handlers : Nat
  retries : List Nat
  calls : Nat
  attempting : Nat
  attempts : Nat → Nat
  peer : IpcPeer
  view : ServerView
  hellos : Nat
  left : Bool
  answered : Bool
  genuine : Bool
  foreign : Bool
  stray : Bool
  mixed : Bool
  refused : Bool

/-- What comes to a client, in any order. -/
inductive IpcClientMove where
  | connectToServer
  | disconnectFromServer
  | connected (peer : IpcPeer)
  | errorOccurred
  | disconnected
  | retry (timer : Nat)
  | readyRead (bytes : Bytes)
  | sendMessage (message : Str)

namespace IpcClient

def start : IpcClient where
  state := .unconnected
  socket := .unconnected
  readBuffer := []
  retryCount := 0
  handlers := 0
  retries := []
  calls := 0
  attempting := 0
  attempts := fun _ => 0
  peer := ⟨false, [], ⟨[], [], fun _ => [], fun _ _ => []⟩⟩
  view := ⟨false, false⟩
  hellos := 0
  left := true
  answered := false
  genuine := true
  foreign := false
  stray := false
  mixed := false
  refused := false

/-- The lines of a message that is written. -/
def written (message : Str) : List Str := (Lib.lines '\n' (message ++ ['\n'])).1

/-- The server takes a line; the second part tells whether it refuses it. -/
def serve (server : IpcSetup) (view : ServerView) (line : Str) : ServerView × Bool :=
  match judge server view.authenticated line with
  | .refuse _ => (view, true)
  | .answer answer =>
    ({ view with mismatched := view.mismatched || answer = "versionMismatch=".toList ++ server.kVersion }, false)
  | .welcome => ({ view with authenticated := true }, false)
  | .perform _ _ => (view, false)

def serveAll (server : IpcSetup) : ServerView → List Str → ServerView × Bool
  | view, [] => (view, false)
  | view, line :: lines =>
    let (view, refuses) := serve server view line
    let (view, refusesMore) := serveAll server view lines
    (view, refuses || refusesMore)

variable (setup : IpcClientSetup) (c : IpcClient)

/-- `QLocalSocket::disconnectFromServer`. -/
def closeSocket : IpcClient :=
  match c.socket with
  | .connected => { c with socket := .closing, left := true }
  | .connecting => { c with socket := .unconnected }
  | .closing | .unconnected => c

/-- While the socket disconnects its `disconnected` signal finds the state disconnecting. -/
def disconnectFromServer : IpcClient := { { c with state := .disconnecting }.closeSocket with state := .unconnected }

def scheduleRetry : IpcClient := { c with retries := c.retries ++ [c.attempting] }

def handleErrorOccurred : IpcClient :=
  match c.state with
  | .connecting => { c.closeSocket with state := .unconnected }.scheduleRetry
  | .connected => c.disconnectFromServer
  | _ => c

/-- `QLocalSocket::connectToServer`, which is an error while the socket is connecting or connected. -/
def openSocket : IpcClient :=
  match c.socket with
  | .connecting | .connected => c.handleErrorOccurred
  | .closing | .unconnected => { c with socket := .connecting }

def attemptConnection (call : Nat) : IpcClient :=
  if kRetryLimit ≤ c.retryCount then { c with state := .unconnected }
  else
    { c with
      state := .connecting
      retryCount := c.retryCount + 1
      attempting := call
      attempts := Function.update c.attempts call (c.attempts call + 1)
      handlers := c.handlers + 1 }.openSocket

def connectToServer : IpcClient :=
  if c.state = .connecting then c
  else
    let c := if c.state ≠ .unconnected then c.disconnectFromServer else c
    let c := if c.socket ≠ .unconnected then c.disconnectFromServer else c
    { c with retryCount := 0, calls := c.calls + 1 }.attemptConnection (c.calls + 1)

/-- One handler of `connected`. -/
def handleConnected : IpcClient :=
  if !c.peer.trusted then c.disconnectFromServer
  else
    let hello := "hello=".toList ++ setup.kVersion ++ " ".toList ++ c.peer.token
    { c with hellos := c.hellos + 1, view := (serveAll c.peer.server c.view (written hello)).1 }

/-- The socket is connected, and calls its handlers. -/
def connected (peer : IpcPeer) : IpcClient :=
  let called := if setup.isQt6 then c.handlers else min c.handlers 1
  (handleConnected setup)^[called] { c with
    socket := .connected
    handlers := 0
    peer := peer
    view := ⟨false, false⟩
    hellos := 0
    left := false
    answered := false
    genuine := true
    foreign := c.foreign || c.readBuffer ≠ [] }

def handleDisconnected : IpcClient := if c.state = .connecting then c else { c with state := .unconnected }

def handleHandshakeMessage (parts : List Str) : IpcClient :=
  match parts with
  | [] => c
  | command :: values =>
    if command = "error".toList then c.disconnectFromServer
    else if command = "versionMismatch".toList then
      { c with state := .connected, answered := true, genuine := c.genuine && c.view.mismatched }
    else if command ≠ "hello".toList then c
    else if values = [] then c.disconnectFromServer
    else { c with state := .connected, answered := true, genuine := c.genuine && c.view.authenticated }

/-- The derived client only tells others of the command. -/
def processCommand : IpcClient := { c with stray := c.stray || !c.answered }

/-- One message of the loop; the second part tells whether the loop goes on. -/
def handleMessage (parts : List Str) : IpcClient × Bool :=
  match parts with
  | [] => (c, true)
  | command :: values =>
    let c := { c with stray := c.stray || c.left }
    if c.state = .connecting then (c.handleHandshakeMessage (command :: values), true)
    else if command = "bye".toList then (c.disconnectFromServer, false)
    else (c.processCommand, true)

def handleMessages : IpcClient → List (List Str) → IpcClient × Bool
  | c, [] => (c, true)
  | c, parts :: more =>
    let (c, goesOn) := c.handleMessage parts
    if goesOn then handleMessages c more else (c, false)

/-- The buffer may hold what is left of a message of an earlier connection. -/
def handleReadyRead (bytes : Bytes) : IpcClient :=
  let data := Lib.lines newline (c.readBuffer ++ bytes)
  let isComplete := !data.1.isEmpty
  let c := { c with
    readBuffer := []
    mixed := c.mixed || (c.foreign && isComplete)
    foreign := c.foreign && !isComplete }
  let (c, goesOn) := c.handleMessages (data.1.map fun line => splitIpcMessage (setup.fromUtf8 line))
  if goesOn then { c with readBuffer := data.2 } else c

def sendMessage (message : Str) : IpcClient :=
  if c.state ≠ .connected then c
  else
    let (view, refuses) := serveAll c.peer.server c.view (written message)
    { c with view := view, refused := c.refused || (c.genuine && refuses) }

/-- The socket has its own state; what cannot come in that state does nothing. -/
def step (c : IpcClient) (move : IpcClientMove) : IpcClient :=
  match move with
  | .connectToServer => c.connectToServer
  | .disconnectFromServer => c.disconnectFromServer
  | .connected peer => if c.socket = .connecting then c.connected setup peer else c
  | .errorOccurred =>
    if c.socket = .connecting then { c with socket := .unconnected }.handleErrorOccurred else c.handleErrorOccurred
  | .disconnected =>
    if c.socket = .connected ∨ c.socket = .closing then
      { c with socket := .unconnected, left := true }.handleDisconnected
    else c
  | .retry timer =>
    match c.retries[timer]? with
    | none => c
    | some call => { c with retries := c.retries.eraseIdx timer }.attemptConnection call
  | .readyRead bytes =>
    if c.socket = .connected ∨ c.socket = .closing then c.handleReadyRead setup bytes else c
  | .sendMessage message => c.sendMessage message

/-- A connection that is there has had one hello if its peer is trusted and none otherwise, no call
makes more attempts than the limit, connecting leads somewhere, and none of the three has happened. -/
structure OneConversation (c : IpcClient) : Prop where
  hellos : c.socket = .connected → c.hellos = if c.peer.trusted then 1 else 0
  strangers : c.peer.trusted = false → c.hellos = 0
  attempts : ∀ call, c.attempts call ≤ kRetryLimit
  connecting : c.state = .connecting → c.socket = .connecting ∨ c.socket = .connected ∨ c.retries ≠ []
  stray : c.stray = false
  mixed : c.mixed = false
  refused : c.refused = false

end IpcClient
end Synergy.Ipc
