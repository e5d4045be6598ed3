import Mathlib.Data.Finset.Card
import Mathlib.Logic.Function.Basic

/-! What a client has while it tries to reach its server: the stream, the connect timer, the
proxy of the server, and the handlers registered for them. -/
namespace Synergy
namespace ClientLife

inductive EventTypes
  | dataSocketSecureConnected
  | dataSocketConnected
  | dataSocketConnectionFailed
  | socketDisconnected
  | streamInputReady
  | streamOutputError
  | streamInputShutdown
  | streamOutputShutdown
  | timer
  | screenShapeChanged
  | clipboardGrabbed
  deriving DecidableEq

/-- What a handler is registered for. -/
inductive Target
  | client
  | stream (stream : Nat)
  | connectTimer (timer : Nat)
  | keepAliveTimer (timer : Nat)
  deriving DecidableEq

inductive Handler
  | handleConnected
  | handleConnectionFailed
  | handleDisconnected
  | handleHello
  | handleOutputError
  | handleData
  | handleConnectTimeout
  | handleKeepAliveAlarm
  | handleShapeChanged
  | handleClipboardGrabbed
  deriving DecidableEq

/-- Streams, timers and proxies are numbered as they are created; the sets are those that have
not been deleted. `keepAliveTimer` belongs to the proxy. -/
structure Resources where
  stream : Option Nat
  timer : Option Nat
  server : Option Nat
  keepAliveTimer : Option Nat
  handlers : EventTypes → Target → Option Handler
  streams : Finset Nat
  timers : Finset Nat
  keepAliveTimers : Finset Nat
  proxies : Finset Nat
  created : Nat
  assertsHold : Bool

namespace Resources

def initial : Resources where
  stream := none
  timer := none
  server := none
  keepAliveTimer := none
  handlers := fun _ _ => none
  streams := ∅
  timers := ∅
  keepAliveTimers := ∅
  proxies := ∅
  created := 0
  assertsHold := true

variable (r : Resources)

def assert (condition : Bool) : Resources := { r with assertsHold := r.assertsHold && condition }

def addHandler (type : EventTypes) (target : Target) (handler : Handler) : Resources :=
  { r with handlers := fun t k => if t = type ∧ k = target then some handler else r.handlers t k }

def removeHandler (type : EventTypes) (target : Target) : Resources :=
  { r with handlers := fun t k => if t = type ∧ k = target then none else r.handlers t k }

/-- The stream that is created adopts its socket. -/
def openStream : Resources :=
  { r with stream := some r.created, streams := insert r.created r.streams, created := r.created + 1 }

def setupConnecting (useSecureNetwork : Bool) : Resources :=
  match r.stream with
  | none => r.assert false
  | some n =>
    let connected := if useSecureNetwork then .dataSocketSecureConnected else .dataSocketConnected
    (r.addHandler connected (.stream n) .handleConnected).addHandler
      .dataSocketConnectionFailed (.stream n) .handleConnectionFailed

def setupConnection : Resources :=
  match r.stream with
  | none => r.assert false
  | some n =>
    ((((r.addHandler .socketDisconnected (.stream n) .handleDisconnected).addHandler
      .streamInputReady (.stream n) .handleHello).addHandler
      .streamOutputError (.stream n) .handleOutputError).addHandler
      .streamInputShutdown (.stream n) .handleDisconnected).addHandler
      .streamOutputShutdown (.stream n) .handleDisconnected

def setupTimer : Resources :=
  let r := r.assert r.timer.isNone
  { r with timer := some r.created, timers := insert r.created r.timers, created := r.created + 1 }.addHandler
    .timer (.connectTimer r.created) .handleConnectTimeout

def stopKeepAliveAlarm : Resources :=
  match r.keepAliveTimer with
  | none => r
  | some n =>
    { r.removeHandler .timer (.keepAliveTimer n) with
      keepAliveTimers := r.keepAliveTimers.erase n
      keepAliveTimer := none }

/-- `ServerProxy::resetKeepAliveAlarm`. -/
def resetKeepAliveAlarm (isOn : Bool) : Resources :=
  let r := r.stopKeepAliveAlarm
  if isOn then
    { r with
      keepAliveTimer := some r.created
      keepAliveTimers := insert r.created r.keepAliveTimers
      created := r.created + 1 }.addHandler .timer (.keepAliveTimer r.created) .handleKeepAliveAlarm
  else r

/-- With the constructor of `ServerProxy`, which takes over the input of the stream. -/
def setupScreen : Resources :=
  let r := r.assert r.server.isNone
  match r.stream with
  | none => r.assert false
  | some n =>
    let r := { r with server := some r.created, proxies := insert r.created r.proxies, created := r.created + 1 }
    let r := (r.addHandler .streamInputReady (.stream n) .handleData).resetKeepAliveAlarm true
    (r.addHandler .screenShapeChanged .client .handleShapeChanged).addHandler
      .clipboardGrabbed .client .handleClipboardGrabbed

/-- The handler for a secure connection stays. -/
def cleanupConnecting : Resources :=
  match r.stream with
  | none => r
  | some n =>
    (r.removeHandler .dataSocketConnected (.stream n)).removeHandler .dataSocketConnectionFailed (.stream n)

def cleanupStream : Resources :=
  match r.stream with
  | none => r
  | some n => { r with streams := r.streams.erase n, stream := none }

def cleanupConnection : Resources :=
  match r.stream with
  | none => r
  | some n =>
    (((((r.removeHandler .streamInputReady (.stream n)).removeHandler
      .streamOutputError (.stream n)).removeHandler
      .streamInputShutdown (.stream n)).removeHandler
      .streamOutputShutdown (.stream n)).removeHandler
      .socketDisconnected (.stream n)).cleanupStream

/-- With the destructor of `ServerProxy`, which uses the stream. -/
def cleanupScreen : Resources :=
  match r.server with
  | none => r
  | some q =>
    let r := ((r.removeHandler .screenShapeChanged .client).removeHandler
      .clipboardGrabbed .client).resetKeepAliveAlarm false
    let r := match r.stream with
      | none => r.assert false
      | some n => r.removeHandler .streamInputReady (.stream n)
    { r with proxies := r.proxies.erase q, server := none }

def cleanupTimer : Resources :=
  match r.timer with
  | none => r
  | some n =>
    { r.removeHandler .timer (.connectTimer n) with
      timers := r.timers.erase n
      timer := none }

end Resources
end ClientLife
end Synergy
