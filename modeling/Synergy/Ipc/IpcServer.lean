import Mathlib.Data.Finset.Basic
import Synergy.Base.Text
import Synergy.Io.StreamBuffer
import Synergy.Lib.Lines

/-! The IPC server that the GUI talks to: its connections, the hello that opens
them to commands, and the broadcasts it keeps for a GUI that is not there yet. -/
namespace Synergy.Ipc

/-- A `QLocalSocket *`. -/
abbrev Socket := Nat

def kMaxPendingIpcMessages : Nat := 32
def kMaxIpcMessageBytes : Nat := 64 * 1024

def newline : UInt8 := 10

def toUtf8 (s : Str) : Bytes := s.flatMap String.utf8EncodeChar

theorem toUtf8_injective : Function.Injective toUtf8 := by
  intro a b h
  have hs : String.ofList a = String.ofList b := by
    apply String.toByteArray_inj.mp
    simp only [String.toByteArray_ofList, List.utf8Encode]
    exact congrArg List.toByteArray h
  exact String.ofList_injective hs

/-- Split on the first `=` only. -/
def splitIpcMessage (message : Str) : List Str :=
  let separator := message.idxOf '='
  if separator < message.length then [message.take separator, message.drop (separator + 1)] else [message]

def constantTimeEquals (a b : Bytes) : Bool :=
  if a.length ≠ b.length then false
  else (a.zip b).foldl (fun diff x => diff ||| (x.1 ^^^ x.2)) 0 == 0

/-- What an implementation of `processCommand` can do through the server: write
to the client, or broadcast. -/
inductive CommandCall
  | write (message : Str)
  | broadcast (command args : Str)
  deriving DecidableEq

def CommandCall.broadcasts : CommandCall → Bool
  | .write _ => false
  | .broadcast _ _ => true

/-- What the server is started with, and the decoder and `processCommand` of the
server that derives from it. -/
structure IpcSetup where
  token : Str
  kVersion : Str
  fromUtf8 : Bytes → Str
  processCommand : Str → List Str → List CommandCall

/-- What happens on the connections, in order. -/
inductive IpcNote
  | opened (socket : Socket)
  | received (socket : Socket) (bytes : Bytes)
  | processed (socket : Socket) (message : Str)
  | wrote (socket : Socket) (message : Str)
  /-- The hello is accepted, and these messages are replayed after the answer. -/
  | welcomed (socket : Socket) (replayed : List Str)
  | command (socket : Socket) (name : Str) (parts : List Str)
  | announced (message : Str)
  | broadcast (sockets : Finset Socket) (message : Str)
  | rejected (socket : Socket)
  | closed (socket : Socket)
  deriving DecidableEq

structure IpcServer where
  clients : Finset Socket
  authenticated : Finset Socket
  readBuffers : Socket → Option Bytes
  pendingMessages : List Str
  notes : List IpcNote

namespace IpcServer

def start : IpcServer where
  clients := ∅
  authenticated := ∅
  readBuffers := fun _ => none
  pendingMessages := []
  notes := []

def note (s : IpcServer) (entry : IpcNote) : IpcServer := { s with notes := s.notes ++ [entry] }

@[simp] theorem note_clients (s : IpcServer) (entry : IpcNote) : (s.note entry).clients = s.clients := rfl

@[simp] theorem note_authenticated (s : IpcServer) (entry : IpcNote) :
    (s.note entry).authenticated = s.authenticated := rfl

@[simp] theorem note_readBuffers (s : IpcServer) (entry : IpcNote) :
    (s.note entry).readBuffers = s.readBuffers := rfl

def setBuffer (s : IpcServer) (socket : Socket) (data : Option Bytes) : IpcServer :=
  { s with readBuffers := fun c => if c = socket then data else s.readBuffers c }

@[simp] theorem setBuffer_clients (s : IpcServer) (socket : Socket) (data : Option Bytes) :
    (s.setBuffer socket data).clients = s.clients := rfl

@[simp] theorem setBuffer_authenticated (s : IpcServer) (socket : Socket) (data : Option Bytes) :
    (s.setBuffer socket data).authenticated = s.authenticated := rfl

@[simp] theorem setBuffer_notes (s : IpcServer) (socket : Socket) (data : Option Bytes) :
    (s.setBuffer socket data).notes = s.notes := rfl

@[simp] theorem setBuffer_self (s : IpcServer) (socket : Socket) (data : Option Bytes) :
    (s.setBuffer socket data).readBuffers socket = data :=
  if_pos rfl

def handleNewConnection (s : IpcServer) (socket : Socket) : IpcServer :=
  { s with clients := insert socket s.clients }.note (.opened socket)

/-- The removals that both handlers of a lost connection make. -/
def forget (s : IpcServer) (socket : Socket) : IpcServer :=
  ({ s with clients := s.clients.erase socket, authenticated := s.authenticated.erase socket }.setBuffer
    socket none).note (.closed socket)

def handleDisconnected (s : IpcServer) (socket : Socket) : IpcServer := s.forget socket

def handleErrorOccurred (s : IpcServer) (socket : Socket) : IpcServer := s.forget socket

/-- `disconnectFromServer`, which reports the lost connection at once or leaves
that for later; a connection that is gone is not reported again. -/
def disconnectFromServer (s : IpcServer) (socket : Socket) (atOnce : Bool) : IpcServer :=
  let s := s.note (.rejected socket)
  if atOnce ∧ socket ∈ s.clients then s.handleDisconnected socket else s

def writeToClientSocket (s : IpcServer) (socket : Socket) (message : Str) : IpcServer :=
  s.note (.wrote socket message)

def broadcastCommand (s : IpcServer) (command args : Str) : IpcServer :=
  let message := if args = [] then command else command ++ "=".toList ++ args
  let s := s.note (.announced message)
  if s.clients = ∅ then
    let kept := if kMaxPendingIpcMessages ≤ s.pendingMessages.length then s.pendingMessages.tail
      else s.pendingMessages
    { s with pendingMessages := kept ++ [message] }
  else s.note (.broadcast s.clients message)

def runCall (socket : Socket) (s : IpcServer) : CommandCall → IpcServer
  | .write message => s.writeToClientSocket socket message
  | .broadcast command args => s.broadcastCommand command args

def processCommand (setup : IpcSetup) (s : IpcServer) (socket : Socket) (command : Str) (parts : List Str) :
    IpcServer :=
  (setup.processCommand command parts).foldl (runCall socket) (s.note (.command socket command parts))

def processMessage (setup : IpcSetup) (s : IpcServer) (socket : Socket) (message : Str) (atOnce : Bool) :
    IpcServer :=
  let s := s.note (.processed socket message)
  let parts := splitIpcMessage message
  match parts with
  | [] => s.writeToClientSocket socket "error".toList
  | command :: values =>
    if command = "hello".toList then
      match values with
      | [] => (s.writeToClientSocket socket "error=missing version".toList).disconnectFromServer socket atOnce
      | helloValue :: _ =>
        let separator := helloValue.idxOf ' '
        let clientVersion := if separator < helloValue.length then helloValue.take separator else helloValue
        let clientToken := if separator < helloValue.length then helloValue.drop (separator + 1) else []
        if setup.token = [] ∨ constantTimeEquals (toUtf8 clientToken) (toUtf8 setup.token) = false then
          (s.writeToClientSocket socket "error=hello required".toList).disconnectFromServer socket atOnce
        else if clientVersion ≠ setup.kVersion then
          s.writeToClientSocket socket ("versionMismatch=".toList ++ setup.kVersion)
        else
          let s := { s with authenticated := insert socket s.authenticated }
          let s := s.writeToClientSocket socket ("hello=".toList ++ setup.kVersion)
          { s.note (.welcomed socket s.pendingMessages) with pendingMessages := [] }
    else if socket ∉ s.authenticated then
      (s.writeToClientSocket socket "error=hello required".toList).disconnectFromServer socket atOnce
    else if command = "noop".toList then s.writeToClientSocket socket "ok".toList
    else s.processCommand setup socket command parts

/-- The loop over the messages that have arrived, each without the newline that
ends it. It answers whether it went through all of them; `atOnce` says, by the
number of messages that are left, how a disconnection made there is reported. -/
def readMessages (setup : IpcSetup) (socket : Socket) (atOnce : Nat → Bool) :
    List Bytes → IpcServer → Bool × IpcServer
  | [], s => (true, s)
  | messageData :: left, s =>
    if kMaxIpcMessageBytes < messageData.length then
      (false, (s.setBuffer socket none).disconnectFromServer socket (atOnce (left.length + 1)))
    else
      readMessages setup socket atOnce left
        (s.processMessage setup socket (setup.fromUtf8 messageData) (atOnce (left.length + 1)))

/-- The bytes that follow the last newline. -/
def keepRest (s : IpcServer) (socket : Socket) (data : Bytes) (atOnce : Bool) : IpcServer :=
  if kMaxIpcMessageBytes < data.length then (s.setBuffer socket none).disconnectFromServer socket atOnce
  else if data ≠ [] then s.setBuffer socket (some data)
  else s

def handleReadyRead (setup : IpcSetup) (s : IpcServer) (socket : Socket) (bytes : Bytes) (atOnce : Nat → Bool) :
    IpcServer :=
  let data := (s.readBuffers socket).getD [] ++ bytes
  let s := (s.setBuffer socket none).note (.received socket bytes)
  if data = [] then s
  else
    let messages := Lib.lines newline data
    let read := readMessages setup socket atOnce messages.1 s
    if read.1 then read.2.keepRest socket messages.2 (atOnce 0) else read.2

end IpcServer

/-- The `processCommand` of the core's server. -/
def coreProcessCommand (command : Str) (_parts : List Str) : List CommandCall :=
  if command = "stop".toList then [.write "ok".toList, .broadcast "bye".toList []] else []

/-- What reaches the server. -/
inductive IpcEvent
  | newConnection (socket : Socket)
  | readyRead (socket : Socket) (bytes : Bytes) (atOnce : Nat → Bool)
  | disconnected (socket : Socket)
  | errorOccurred (socket : Socket)
  | broadcastCommand (command args : Str)

/-- A connection that opens is not one of those there, and bytes arrive on one
that is. -/
def IpcEvent.Possible (s : IpcServer) : IpcEvent → Prop
  | newConnection socket => socket ∉ s.clients
  | readyRead socket _ _ => socket ∈ s.clients
  | disconnected _ | errorOccurred _ | broadcastCommand _ _ => True

instance (s : IpcServer) : DecidablePred (IpcEvent.Possible s)
  | .newConnection socket => inferInstanceAs (Decidable (socket ∉ s.clients))
  | .readyRead socket _ _ => inferInstanceAs (Decidable (socket ∈ s.clients))
  | .disconnected _ | .errorOccurred _ | .broadcastCommand _ _ => .isTrue trivial

def IpcServer.handle (setup : IpcSetup) (s : IpcServer) : IpcEvent → IpcServer
  | .newConnection socket => s.handleNewConnection socket
  | .readyRead socket bytes atOnce => s.handleReadyRead setup socket bytes atOnce
  | .disconnected socket => s.handleDisconnected socket
  | .errorOccurred socket => s.handleErrorOccurred socket
  | .broadcastCommand command args => s.broadcastCommand command args

def IpcStep (setup : IpcSetup) (s : IpcServer) (e : IpcEvent) (t : IpcServer) : Prop :=
  e.Possible s ∧ t = s.handle setup e

end Synergy.Ipc
