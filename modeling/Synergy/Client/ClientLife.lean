import Synergy.Base.Text
import Synergy.Client.ClientResources
import Synergy.Protocol.ProtocolUtil

/-! The connection of a client: lookups, attempts to connect, the hello, and all that ends
them. -/
namespace Synergy

/-- A lookup that has not been answered. -/
structure Lookup where
  generation : Nat
  addressIndex : Nat
  hostname : Str

/-- What becomes of the socket: it connects later or fails later, or something is thrown,
before there is a stream or after. -/
inductive Dial where
  | connecting
  | noStream
  | notConnecting
  deriving DecidableEq

/-- `target` is the host that the last attempt is for, `resolvedFor` the one that the addresses
are of. `begun` counts the attempts and `ends` the events that tell of an end since the last
one began; `settled` tells that each attempt before had one end when the next one began,
`borrowed` that an attempt has used the addresses of another host and `misread` that a
truncated hello has been taken for a whole one. -/
structure ClientLife where
  useSecureNetwork : Bool
  hostname : Str
  resources : ClientLife.Resources
  ready : Bool
  suspended : Bool
  connectOnResume : Bool
  resolveGeneration : Nat
  lookups : List Lookup
  resolvedIps : List Str
  resolvedFor : Str
  target : Str
  begun : Nat
  ends : Nat
  settled : Bool
  borrowed : Bool
  misread : Bool

/-- What comes to a client, in any order: calls, answers of lookups, events for a stream or a
timer, and what its proxy calls. -/
inductive ClientMove where
  | setServerAddress (hostname : Str)
  | connect (addressIndex : Nat) (dial : Dial)
  | lookedUp (lookup : Nat) (addresses : Option (List Str)) (dial : Dial)
  | streamEvent (type : ClientLife.EventTypes) (stream : Nat) (input : IStream)
  | connectTimeout (timer : Nat)
  | keepAliveTimeout (timer : Nat)
  | resetKeepAliveAlarm
  | handshakeComplete
  | disconnect (hasMessage : Bool)
  | refuseConnection (hasMessage : Bool)
  | suspend
  | resume (dial : Dial)

namespace ClientLife

/-- The name of the protocol, which stays empty when it is cut off, and whether the hello is
there to its end. -/
def readHello (input : IStream) : Bytes × Bool :=
  match ProtocolUtil.readBytes 7 input with
  | (.error _, _) => ([], false)
  | (.ok protocolName, input) =>
    match ProtocolUtil.readf (ascii "%2i%2i") [.int 0, .int 0] input with
    | (.ok (some _), _) => (protocolName, true)
    | _ => (protocolName, false)

/-- `networkProtocolFromString`, without regard to case. -/
def isKnownProtocol (protocolName : Bytes) : Bool :=
  let lowered := protocolName.map fun c => if byte 'A' ≤ c ∧ c ≤ byte 'Z' then c + 32 else c
  lowered = ascii "synergy" || lowered = ascii "barrier"

variable (c : ClientLife)

/-- Sends one of the events that tell the application of the end of an attempt. -/
def sendEnd : ClientLife := { c with ends := c.ends + 1 }

def cleanupScreen : ClientLife :=
  { c with ready := if c.resources.server.isSome then false else c.ready, resources := c.resources.cleanupScreen }

def cleanup : ClientLife :=
  let c := { c with
    resolveGeneration := c.resolveGeneration + 1
    connectOnResume := false
    resources := c.resources.cleanupTimer }.cleanupScreen
  { c with resources := c.resources.cleanupConnecting.cleanupConnection }

/-- Anything that is thrown leads to the same clean-up. -/
def connectFailed : ClientLife :=
  { c with resources := c.resources.cleanupTimer.cleanupConnecting.cleanupStream }.sendEnd

def continueConnect (dial : Dial) : ClientLife :=
  let c := { c with borrowed := c.borrowed || (!c.resolvedIps.isEmpty && c.resolvedFor ≠ c.target) }
  match dial with
  | .noStream => c.connectFailed
  | .connecting => { c with resources := (c.resources.openStream.setupConnecting c.useSecureNetwork).setupTimer }
  | .notConnecting =>
    { c with resources := (c.resources.openStream.setupConnecting c.useSecureNetwork).setupTimer }.connectFailed

def connect (addressIndex : Nat) (dial : Dial) : ClientLife :=
  if c.resources.stream.isSome then c
  else if c.suspended then { c with connectOnResume := true }
  else
    let c := { c with
      begun := c.begun + 1
      ends := 0
      settled := c.settled && (c.begun = 0 || c.ends = 1)
      target := c.hostname }
    if c.hostname.isEmpty then c.continueConnect dial
    else
      let generation := c.resolveGeneration + 1
      { c with
        resolveGeneration := generation
        lookups := c.lookups ++ [⟨generation, addressIndex, c.hostname⟩] }

/-- The answer of a lookup; none that is not the last one is heard. -/
def lookedUp (lookup : Lookup) (addresses : Option (List Str)) (dial : Dial) : ClientLife :=
  if lookup.generation ≠ c.resolveGeneration || c.resources.stream.isSome || c.suspended then c
  else
    match addresses with
    | none | some [] => c.sendEnd
    | some addresses => { c with resolvedIps := addresses, resolvedFor := lookup.hostname }.continueConnect dial

def disconnect : ClientLife := c.cleanup.sendEnd

def refuseConnection (hasMessage : Bool) : ClientLife := if hasMessage then c.cleanup.sendEnd else c.cleanup

def handleConnected : ClientLife := { c with resources := c.resources.cleanupConnecting.setupConnection }

def handleConnectionFailed : ClientLife := c.connectFailed

def handleConnectTimeout : ClientLife :=
  { c with resources := c.resources.cleanupTimer.cleanupConnecting.cleanupConnection.cleanupStream }.sendEnd

/-- `handleDisconnected`, and `handleOutputError`, which does the same. -/
def handleDisconnected : ClientLife :=
  let c := { c with resources := c.resources.cleanupTimer }.cleanupScreen
  { c with resources := c.resources.cleanupConnection }.sendEnd

/-- What `readf` returns is not looked at. -/
def handleHello (input : IStream) : ClientLife :=
  let (protocolName, isWhole) := readHello input
  if !isKnownProtocol protocolName then
    { c.sendEnd with resources := c.resources.cleanupTimer.cleanupConnection }
  else
    { c with
      ready := false
      misread := c.misread || !isWhole
      resources := c.resources.setupScreen.cleanupTimer }

def handleSuspend : ClientLife :=
  if c.suspended then c
  else
    let wasConnected := c.resources.server.isSome
    { { c with suspended := true }.disconnect with connectOnResume := wasConnected }

def handleResume (dial : Dial) : ClientLife :=
  if c.suspended then
    if c.connectOnResume then { c with suspended := false, connectOnResume := false }.connect 0 dial
    else { c with suspended := false }
  else c

/-- The handlers of `Client`; those of its proxy come to calls that are moves of their own. -/
def handle (input : IStream) : Handler → ClientLife
  | .handleConnected => c.handleConnected
  | .handleConnectionFailed => c.handleConnectionFailed
  | .handleDisconnected | .handleOutputError => c.handleDisconnected
  | .handleHello => c.handleHello input
  | .handleConnectTimeout => c.handleConnectTimeout
  | .handleKeepAliveAlarm => c.disconnect
  | .handleData | .handleShapeChanged | .handleClipboardGrabbed => c

/-- The event is dispatched to the handler that is registered for it, if there is one. -/
def dispatch (type : EventTypes) (target : Target) (input : IStream) : ClientLife :=
  match c.resources.handlers type target with
  | none => c
  | some handler => c.handle input handler

/-- The events of a socket come through the stream that has adopted it, while that exists. -/
def step (c : ClientLife) (move : ClientMove) : ClientLife :=
  match move with
  | .setServerAddress hostname => { c with hostname := hostname }
  | .connect addressIndex dial => c.connect addressIndex dial
  | .lookedUp lookup addresses dial =>
    match c.lookups[lookup]? with
    | none => c
    | some answered => { c with lookups := c.lookups.eraseIdx lookup }.lookedUp answered addresses dial
  | .streamEvent type stream input => if stream ∈ c.resources.streams then c.dispatch type (.stream stream) input else c
  | .connectTimeout timer => if timer ∈ c.resources.timers then c.dispatch .timer (.connectTimer timer) [] else c
  | .keepAliveTimeout timer =>
    if timer ∈ c.resources.keepAliveTimers then c.dispatch .timer (.keepAliveTimer timer) [] else c
  | .resetKeepAliveAlarm =>
    if c.resources.server.isSome then { c with resources := c.resources.resetKeepAliveAlarm true } else c
  | .handshakeComplete => if c.resources.server.isSome then { c with ready := true } else c
  | .disconnect _ => c.disconnect
  | .refuseConnection hasMessage => c.refuseConnection hasMessage
  | .suspend => c.handleSuspend
  | .resume dial => c.handleResume dial

def start (useSecureNetwork : Bool) (hostname : Str) : ClientLife where
  useSecureNetwork := useSecureNetwork
  hostname := hostname
  resources := .initial
  ready := false
  suspended := false
  connectOnResume := false
  resolveGeneration := 0
  lookups := []
  resolvedIps := []
  resolvedFor := []
  target := []
  begun := 0
  ends := 0
  settled := true
  borrowed := false
  misread := false

/-- A lookup is to be answered that the client will listen to. -/
def lookingUp : Bool := c.lookups.any fun lookup => lookup.generation = c.resolveGeneration

/-- An attempt is under way. -/
def pending : Bool := c.resources.stream.isSome || c.lookingUp

/-- There is one of each thing at most, nothing is registered for one that has been deleted, no
attempt uses the addresses of another host or goes on after a truncated hello, and each attempt
has one end or is under way. -/
structure OneAttempt : Prop where
  streams : c.resources.streams.card ≤ 1
  timers : c.resources.timers.card ≤ 1
  proxies : c.resources.proxies.card ≤ 1
  serverStream : c.resources.server ≠ none → c.resources.stream ≠ none
  asserts : c.resources.assertsHold = true
  handlers : ∀ type, (∀ n, c.resources.handlers type (.stream n) ≠ none → n ∈ c.resources.streams) ∧
    (∀ n, c.resources.handlers type (.connectTimer n) ≠ none → n ∈ c.resources.timers) ∧
    ∀ n, c.resources.handlers type (.keepAliveTimer n) ≠ none → n ∈ c.resources.keepAliveTimers
  addresses : c.borrowed = false
  hello : c.misread = false
  ends : c.settled = true ∧ (0 < c.begun → c.ends = if c.pending then 0 else 1)

end ClientLife
end Synergy
