import Mathlib.Data.Set.Card
import Mathlib.Logic.Function.Basic
import Synergy.Base.Types

/-! The listener for clients: a connection from its socket through the unknown client and
its handshake to the proxy that the server takes. The objects of a connection are known by
its socket; events that nobody handles any more are dropped. -/
namespace Synergy

abbrev Socket := Nat

/-- A client in its handshake. The stream is the packet filter around a socket, which it
does not own; it goes to the proxy when the reply to the hello has been read. -/
structure ClientProxyUnknown where
  stream : Option Socket
  timer : Bool := true
  proxy : Option Socket := none
  ready : Bool := false
  streamHandlers : Bool := true
  proxyHandlers : Bool := false
  deriving DecidableEq, Repr

namespace ClientProxyUnknown

def removeHandlers (u : ClientProxyUnknown) : ClientProxyUnknown :=
  { u with
    streamHandlers := u.streamHandlers && u.stream.isNone
    proxyHandlers := u.proxyHandlers && u.proxy.isNone }

def removeTimer (u : ClientProxyUnknown) : ClientProxyUnknown := { u with timer := false }

/-- The proxy when there is one and it is ready, and what is left of the client. -/
def orphanClientProxy (u : ClientProxyUnknown) : Option Socket × ClientProxyUnknown :=
  if u.ready then (u.proxy, { u.removeHandlers with proxy := none }) else (none, u)

/-- The proxy for the highest version that the client supports. -/
def initProxy (u : ClientProxyUnknown) (major minor : Int) : Option Socket :=
  if major = 1 ∧ 0 ≤ minor ∧ minor ≤ 8 then u.stream else none

end ClientProxyUnknown

/-- The events that are queued and handled later. -/
inductive ListenerEvent
  | accepted (socket : Socket)
  | unknownSuccess (socket : Socket)
  | unknownFailure (socket : Socket)
  deriving DecidableEq, Repr

/-- The most connections at a time, active and still handshaking. -/
def kMaxConnections : Nat := 32

/-- The listener, the clients that the server has taken from it, and the sockets that have
come and that have been deleted. `accepting` are the sockets whose handlers for the end of
the accept are in place. -/
structure ClientListener where
  securityLevel : SecurityLevel
  clientSockets : Finset Socket := ∅
  accepting : Finset Socket := ∅
  newClients : Socket → Option ClientProxyUnknown := fun _ => none
  waitingClients : List Socket := []
  adopted : Finset Socket := ∅
  events : List ListenerEvent := []
  next : Socket := 0
  deleted : List Socket := []

namespace ClientListener

def setUnknown (l : ClientListener) (s : Socket) (u : Option ClientProxyUnknown) : ClientListener :=
  { l with newClients := Function.update l.newClients s u }

@[simp] theorem setUnknown_self (l : ClientListener) (s : Socket) (u : Option ClientProxyUnknown) :
    (l.setUnknown s u).newClients s = u := Function.update_self ..

theorem setUnknown_of_ne (l : ClientListener) {s t : Socket} (h : t ≠ s) (u : Option ClientProxyUnknown) :
    (l.setUnknown s u).newClients t = l.newClients t := Function.update_of_ne h ..

def addEvent (l : ClientListener) (e : ListenerEvent) : ClientListener := { l with events := l.events ++ [e] }

def removeClientSocket (l : ClientListener) (s : Socket) : ClientListener :=
  { l with clientSockets := l.clientSockets.erase s, accepting := l.accepting.erase s, deleted := s :: l.deleted }

/-- A socket comes; one too many is deleted at once. -/
def handleClientConnecting (l : ClientListener) : ClientListener :=
  let s := l.next
  if kMaxConnections ≤ l.clientSockets.card then { l with next := s + 1, deleted := s :: l.deleted }
  else
    let l := { l with next := s + 1, clientSockets := insert s l.clientSockets, accepting := insert s l.accepting }
    if l.securityLevel = .plainText then l.addEvent (.accepted s) else l

/-- The packet filter replaces the handlers of the socket. -/
def handleClientAccepted (l : ClientListener) (s : Socket) : ClientListener :=
  { l with accepting := l.accepting.erase s }.setUnknown s (some { stream := some s })

def sendSuccess (l : ClientListener) (s : Socket) (u : ClientProxyUnknown) : ClientListener :=
  (l.setUnknown s (some { u with ready := true }.removeTimer)).addEvent (.unknownSuccess s)

def sendFailure (l : ClientListener) (s : Socket) (u : ClientProxyUnknown) : ClientListener :=
  (l.setUnknown s (some { u with proxy := none, ready := false }.removeHandlers.removeTimer)).addEvent (.unknownFailure s)

/-- The reply to the hello: its version when it is short enough and can be read. -/
def handleData (l : ClientListener) (s : Socket) (u : ClientProxyUnknown) : Option (Int × Int) → ClientListener
  | none => l.sendFailure s u
  | some (major, minor) =>
    if major ≤ 0 ∨ minor < 0 then l.sendFailure s u
    else
      let u := u.removeHandlers
      match u.initProxy major minor with
      | none => l.sendFailure s u
      | some proxy => l.setUnknown s (some { u with proxy := some proxy, stream := none, proxyHandlers := true })

/-- A client that is not ready goes, and its socket stays. -/
def handleUnknownClient (l : ClientListener) (s : Socket) (u : ClientProxyUnknown) : ClientListener :=
  match u.orphanClientProxy.1 with
  | some client => { l with waitingClients := l.waitingClients ++ [client] }.setUnknown s none
  | none => l.setUnknown s none

/-- The socket is the one under the stream that the client still has. -/
def handleUnknownFailure (l : ClientListener) (s : Socket) (u : ClientProxyUnknown) : ClientListener :=
  match u.stream with
  | some socket => (l.setUnknown s none).removeClientSocket socket
  | none => l.setUnknown s none

def handleClientDisconnected (l : ClientListener) (client : Socket) : ClientListener :=
  if client ∈ l.waitingClients then
    { l with waitingClients := l.waitingClients.erase client }.removeClientSocket client
  else l

def getNextClient (l : ClientListener) : ClientListener :=
  match l.waitingClients with
  | [] => l
  | client :: waiting => { l with waitingClients := waiting, adopted := insert client l.adopted }

/-- The server deletes a client of its own, with the filter but without the socket. -/
def deleteAdopted (l : ClientListener) (client : Socket) : ClientListener := { l with adopted := l.adopted.erase client }

/-- The event at the front of the queue goes to its handler, if there still is one. -/
def dispatch (l : ClientListener) : ClientListener :=
  match l.events with
  | [] => l
  | .accepted s :: events =>
    if s ∈ l.accepting then { l with events := events }.handleClientAccepted s else { l with events := events }
  | .unknownSuccess s :: events =>
    match l.newClients s with
    | some u => { l with events := events }.handleUnknownClient s u
    | none => { l with events := events }
  | .unknownFailure s :: events =>
    match l.newClients s with
    | some u => { l with events := events }.handleUnknownFailure s u
    | none => { l with events := events }

/-- What happens at the listener: sockets, streams, timers and proxies report, a queued
event is handled, the server takes a client or is done with one. -/
inductive Action
  | connecting
  | accepted (s : Socket)
  | disconnectedOnAccept (s : Socket)
  | helloReply (s : Socket) (version : Option (Int × Int))
  | writeError (s : Socket)
  | disconnected (s : Socket)
  | timeout (s : Socket)
  | proxyReady (s : Socket)
  | proxyDisconnected (s : Socket)
  | dispatch
  | getNextClient
  | closeTimeout (s : Socket)
  deriving DecidableEq, Repr

/-- What reaches an unknown client, if its handler for it is in place. -/
def reach (l : ClientListener) (s : Socket) (handled : ClientProxyUnknown → Bool)
    (handler : ClientProxyUnknown → ClientListener) : ClientListener :=
  match l.newClients s with
  | some u => if handled u then handler u else l
  | none => l

def step (l : ClientListener) : Action → ClientListener
  | .connecting => l.handleClientConnecting
  | .accepted s => if s ∈ l.accepting then l.handleClientAccepted s else l
  | .disconnectedOnAccept s => if s ∈ l.accepting then l.removeClientSocket s else l
  | .helloReply s version => l.reach s ClientProxyUnknown.streamHandlers (l.handleData s · version)
  | .writeError s | .disconnected s => l.reach s ClientProxyUnknown.streamHandlers (l.sendFailure s)
  | .timeout s => l.reach s ClientProxyUnknown.timer (l.sendFailure s)
  | .proxyReady s => l.reach s ClientProxyUnknown.proxyHandlers (l.sendSuccess s)
  | .proxyDisconnected s =>
    if s ∈ l.adopted then l.deleteAdopted s
    else if s ∈ l.waitingClients then l.handleClientDisconnected s
    else l.reach s ClientProxyUnknown.proxyHandlers (l.sendFailure s)
  | .dispatch => l.dispatch
  | .getNextClient => l.getNextClient
  | .closeTimeout s => if s ∈ l.adopted then l.deleteAdopted s else l

/-- A listener that has just started. -/
def start (securityLevel : SecurityLevel) : ClientListener := { securityLevel := securityLevel }

end ClientListener
end Synergy
