import Synergy.Base.Text

/-! The application of a client: the attempts of its client to connect, the events that tell of
their end, and the timers that start the client again. -/
namespace Synergy

/-- What the client tells the application; `retry` is `m_retry` of its `FailInfo`. -/
inductive ClientEvent where
  | clientConnected
  | clientConnectionFailed (retry : Bool)
  | clientConnectionRefused (retry : Bool)
  | clientDisconnected
  deriving DecidableEq

/-- How far a stream has come. -/
inductive StreamPhase where
  | connecting
  | waitingForHello
  | joined
  deriving DecidableEq

/-- What the network does about an attempt: `resolved` is what `resolve` returns, if no lookup
has run before and it does not throw, and `connects` tells that nothing else throws. -/
structure Dialing where
  resolved : Option Nat
  connects : Bool

/-- The outcome of opening the screen and the client. -/
inductive ScreenOpening where
  | opened
  | screenUnavailable
  | failed
  deriving DecidableEq

/-- `lookups` has the generation of each lookup that has not been answered, and `resolvedIps` is
the number of addresses that the last one brought. -/
structure AppClient where
  hostname : Str
  stream : Option StreamPhase
  ready : Bool
  suspended : Bool
  connectOnResume : Bool
  resolveGeneration : Nat
  lookups : List Nat
  resolvedIps : Nat
  resolvedAddressesCount : Nat

namespace AppClient
variable (c : AppClient)

def initial (hostname : Str) : AppClient where
  hostname := hostname
  stream := none
  ready := false
  suspended := false
  connectOnResume := false
  resolveGeneration := 0
  lookups := []
  resolvedIps := 0
  resolvedAddressesCount := 0

def continueConnect (dialing : Dialing) : AppClient × List ClientEvent :=
  if c.resolvedIps = 0 && dialing.resolved.isNone then (c, [.clientConnectionFailed true])
  else
    let c := { c with resolvedAddressesCount := if c.resolvedIps = 0 then dialing.resolved.getD 0 else c.resolvedIps }
    if dialing.connects then ({ c with stream := some .connecting }, []) else (c, [.clientConnectionFailed true])

/-- The address index only chooses among the addresses. -/
def connect (dialing : Dialing) : AppClient × List ClientEvent :=
  if c.stream.isSome then (c, [])
  else if c.suspended then ({ c with connectOnResume := true }, [])
  else if c.hostname.isEmpty then c.continueConnect dialing
  else
    let generation := c.resolveGeneration + 1
    ({ c with resolveGeneration := generation, lookups := c.lookups ++ [generation] }, [])

/-- The answer of a lookup, with the number of its addresses if it has not failed. -/
def lookedUp (generation : Nat) (addresses : Option Nat) (dialing : Dialing) : AppClient × List ClientEvent :=
  if generation ≠ c.resolveGeneration || c.stream.isSome || c.suspended then (c, [])
  else
    match addresses with
    | none | some 0 => (c, [.clientConnectionFailed true])
    | some addresses => { c with resolvedIps := addresses }.continueConnect dialing

def cleanup : AppClient :=
  { c with resolveGeneration := c.resolveGeneration + 1, connectOnResume := false, ready := false, stream := none }

def disconnect (hasMessage : Bool) : AppClient × List ClientEvent :=
  (c.cleanup, [if hasMessage then .clientConnectionFailed true else .clientDisconnected])

/-- Every caller gives a message. -/
def refuseConnection : AppClient × List ClientEvent := (c.cleanup, [.clientConnectionRefused true])

def handshakeComplete : AppClient × List ClientEvent := ({ c with ready := true }, [.clientConnected])

def handleConnected : AppClient := { c with stream := some .waitingForHello }

/-- `handleConnectionFailed`, and `handleConnectTimeout`, which comes before there is a proxy. -/
def handleConnectionFailed : AppClient × List ClientEvent :=
  ({ c with stream := none }, [.clientConnectionFailed true])

/-- `handleDisconnected`, and `handleOutputError`. -/
def handleDisconnected : AppClient × List ClientEvent :=
  ({ c with ready := false, stream := none }, [.clientDisconnected])

def handleHello (isKnownProtocol : Bool) : AppClient × List ClientEvent :=
  if isKnownProtocol then ({ c with ready := false, stream := some .joined }, [])
  else ({ c with stream := none }, [.clientConnectionFailed true])

def isConnected : Bool := c.stream = some .joined

def handleSuspend : AppClient × List ClientEvent :=
  if c.suspended then (c, [])
  else
    let wasConnected := c.isConnected
    let (c, events) := { c with suspended := true }.disconnect false
    ({ c with connectOnResume := wasConnected }, events)

def handleResume (dialing : Dialing) : AppClient × List ClientEvent :=
  if c.suspended then
    let connectOnResume := c.connectOnResume
    let c := { c with suspended := false, connectOnResume := false }
    if connectOnResume then c.connect dialing else (c, [])
  else (c, [])

end AppClient

/-- The restart timers are those that have not run out, with their retry times; `client` is there
when its screen is, and `exited` when the application has ended. -/
structure ClientApp where
  serverAddresses : List Str
  dynamicConnectionRetry : Bool
  currentServerIndex : Nat
  lastServerAddressIndex : Nat
  retryCount : Nat
  suspended : Bool
  restartTimers : List Nat
  events : List ClientEvent
  client : Option AppClient
  quit : Bool
  exited : Bool

/-- What comes to the application and its client, in any order. -/
inductive ClientAppMove where
  | restart (timer : Nat) (opening : ScreenOpening) (dialing : Dialing)
  | dispatch
  | lookedUp (lookup : Nat) (addresses : Option Nat) (dialing : Dialing)
  | connected
  | connectionFailed
  | connectTimeout
  | disconnected
  | hello (isKnownProtocol : Bool)
  | handshakeComplete
  | disconnect (hasMessage : Bool)
  | refuseConnection
  | suspend
  | resume (dialing : Dialing)
  | quit

namespace ClientApp
variable (a : ClientApp)

def retryTime : Nat :=
  if !a.dynamicConnectionRetry || a.retryCount < 300 then 1
  else if a.retryCount < 360 then 5
  else if a.retryCount < 390 then 10
  else if a.retryCount < 410 then 30
  else if a.retryCount < 420 then 60
  else if a.retryCount < 430 then 120
  else 300

def scheduleClientRestart : ClientApp := { a with restartTimers := a.restartTimers ++ [a.retryTime] }

/-- `m_suspended` is never set. -/
def scheduleUnlessSuspended : ClientApp := if !a.suspended then a.scheduleClientRestart else a

/-- The client has sent events; they wait in the queue. -/
def post (result : AppClient × List ClientEvent) : ClientApp :=
  { a with client := some result.1, events := a.events ++ result.2 }

/-- Connects the client to the current server. Without one, what is thrown is caught nowhere. -/
def connectClient (openClient : Str → AppClient) (dialing : Dialing) : ClientApp :=
  match a.serverAddresses[a.currentServerIndex]? with
  | none => { a with exited := true }
  | some hostname => a.post ({ openClient hostname with hostname := hostname }.connect dialing)

def startClient (opening : ScreenOpening) (dialing : Dialing) : ClientApp × Bool :=
  match a.client with
  | some client => (a.connectClient (fun _ => client) dialing, true)
  | none =>
    match opening with
    | .opened => (a.connectClient .initial dialing, true)
    | .screenUnavailable => (a.scheduleClientRestart, true)
    | .failed => ({ a with retryCount := 0 }, false)

/-- What `startClient` returns is not looked at. -/
def handleClientRestart (timer : Nat) (opening : ScreenOpening) (dialing : Dialing) : ClientApp :=
  ({ a with restartTimers := a.restartTimers.eraseIdx timer }.startClient opening dialing).1

def tryNextServer : ClientApp :=
  if 1 < a.serverAddresses.length then
    { a with currentServerIndex := (a.currentServerIndex + 1) % a.serverAddresses.length }
  else a

def handleClientConnected : ClientApp := { a with currentServerIndex := 0, lastServerAddressIndex := 0 }

def handleClientRefused (retry : Bool) : ClientApp :=
  if !retry then { a with quit := true }
  else if !a.suspended then { a.scheduleClientRestart with retryCount := a.retryCount + 1 }
  else a

def handleClientFailed (retry : Bool) : ClientApp :=
  let resolvedAddressesCount := a.client.elim 0 AppClient.resolvedAddressesCount
  let a := { a with lastServerAddressIndex := a.lastServerAddressIndex + 1 }
  if a.lastServerAddressIndex < resolvedAddressesCount then a.scheduleUnlessSuspended
  else
    let a := { a with lastServerAddressIndex := 0 }.tryNextServer
    if a.currentServerIndex = 0 then a.handleClientRefused retry else a.scheduleUnlessSuspended

def handleClientDisconnected : ClientApp := { a with retryCount := 0 }.scheduleUnlessSuspended

def handle : ClientEvent → ClientApp
  | .clientConnected => a.handleClientConnected
  | .clientConnectionFailed retry => a.handleClientFailed retry
  | .clientConnectionRefused retry => a.handleClientRefused retry
  | .clientDisconnected => a.handleClientDisconnected

/-- Something comes to the client that can only come in some phases of its stream. -/
def inPhase (phases : List StreamPhase) (handler : AppClient → AppClient × List ClientEvent) : ClientApp :=
  match a.client with
  | none => a
  | some c => if c.stream.any (· ∈ phases) then a.post (handler c) else a

def step (a : ClientApp) (move : ClientAppMove) : ClientApp :=
  if a.exited then a
  else
    match move with
    | .restart timer opening dialing =>
      if timer < a.restartTimers.length then a.handleClientRestart timer opening dialing else a
    | .dispatch =>
      match a.events with
      | [] => a
      | event :: events => { a with events := events }.handle event
    | .lookedUp lookup addresses dialing =>
      match a.client with
      | none => a
      | some c =>
        match c.lookups[lookup]? with
        | none => a
        | some generation =>
          a.post ({ c with lookups := c.lookups.eraseIdx lookup }.lookedUp generation addresses dialing)
    | .connected => a.inPhase [.connecting] fun c => (c.handleConnected, [])
    | .connectionFailed => a.inPhase [.connecting] AppClient.handleConnectionFailed
    | .connectTimeout => a.inPhase [.connecting, .waitingForHello] AppClient.handleConnectionFailed
    | .disconnected => a.inPhase [.waitingForHello, .joined] AppClient.handleDisconnected
    | .hello isKnownProtocol => a.inPhase [.waitingForHello] fun c => c.handleHello isKnownProtocol
    | .handshakeComplete => a.inPhase [.joined] AppClient.handshakeComplete
    | .disconnect hasMessage => a.inPhase [.joined] fun c => c.disconnect hasMessage
    | .refuseConnection => a.inPhase [.joined] AppClient.refuseConnection
    | .suspend =>
      match a.client with
      | none => a
      | some c => a.post c.handleSuspend
    | .resume dialing =>
      match a.client with
      | none => a
      | some c => a.post (c.handleResume dialing)
    | .quit => { a with quit := true }

/-- The first start; when it fails the application ends. -/
def startNode (serverAddresses : List Str) (dynamicConnectionRetry : Bool) (opening : ScreenOpening)
    (dialing : Dialing) : ClientApp :=
  let a : ClientApp :=
    { serverAddresses := serverAddresses
      dynamicConnectionRetry := dynamicConnectionRetry
      currentServerIndex := 0
      lastServerAddressIndex := 0
      retryCount := 0
      suspended := false
      restartTimers := []
      events := []
      client := none
      quit := false
      exited := false }
  let (a, isStarted) := a.startClient opening dialing
  if isStarted then a else { a with exited := true }

end ClientApp
end Synergy
