import Synergy.Server.Removal
import Synergy.Server.Step

/-! A server with what it answers for: the handlers it has registered, the timers of the
clients it is closing, and the client proxies it has been given and has deleted. -/
namespace Synergy
open Synergy.Lib

namespace ServerLife

/-- The events that the server has handlers for. -/
inductive EventTypes
  | timer
  | clientProxyDisconnected
  | screenShapeChanged
  | clipboardGrabbed
  | clipboardChanged
  | keyStateKeyDown
  | keyStateKeyUp
  | keyStateKeyRepeat
  | primaryScreenButtonDown
  | primaryScreenButtonUp
  | primaryScreenMotionOnPrimary
  | primaryScreenMotionOnSecondary
  | primaryScreenWheel
  | primaryScreenSaverActivated
  | primaryScreenSaverDeactivated
  | primaryScreenFakeInputBegin
  | primaryScreenFakeInputEnd
  | serverSwitchToScreen
  | serverSwitchInDirection
  | serverToggleScreen
  | serverKeyboardBroadcast
  | serverLockCursorToScreen
  deriving DecidableEq

/-- What a handler is registered for. -/
inductive Target
  | server
  | inputFilter
  | client (client : BaseClientProxy)
  | timer (timer : Nat)
  deriving DecidableEq

/-- The handlers by event and target, each with the client that it has captured, if any. -/
abbrev Handlers := EventTypes × Target → Option (Option BaseClientProxy)

def Handlers.remove (h : Handlers) (type : EventTypes) (target : Target) : Handlers :=
  Function.update h (type, target) none

def Handlers.add (h : Handlers) (type : EventTypes) (target : Target) (captured : Option BaseClientProxy) : Handlers :=
  Function.update h (type, target) (some captured)

/-- Those that the constructor installs. -/
def ownHandlers (primaryClient : BaseClientProxy) : List (EventTypes × Target) :=
  [(.timer, .server), (.keyStateKeyDown, .inputFilter), (.keyStateKeyUp, .inputFilter),
    (.keyStateKeyRepeat, .inputFilter), (.primaryScreenButtonDown, .inputFilter), (.primaryScreenButtonUp, .inputFilter),
    (.primaryScreenMotionOnPrimary, .client primaryClient), (.primaryScreenMotionOnSecondary, .client primaryClient),
    (.primaryScreenWheel, .client primaryClient), (.primaryScreenSaverActivated, .client primaryClient),
    (.primaryScreenSaverDeactivated, .client primaryClient), (.serverSwitchToScreen, .inputFilter),
    (.serverSwitchInDirection, .inputFilter), (.serverToggleScreen, .inputFilter),
    (.serverKeyboardBroadcast, .inputFilter), (.serverLockCursorToScreen, .inputFilter),
    (.primaryScreenFakeInputBegin, .inputFilter), (.primaryScreenFakeInputEnd, .inputFilter)]

/-- Those that the destructor removes. -/
def removedHandlers (primaryClient : BaseClientProxy) : List (EventTypes × Target) :=
  [(.keyStateKeyDown, .inputFilter), (.keyStateKeyUp, .inputFilter), (.keyStateKeyRepeat, .inputFilter),
    (.primaryScreenButtonDown, .inputFilter), (.primaryScreenButtonUp, .inputFilter),
    (.primaryScreenMotionOnPrimary, .client primaryClient), (.primaryScreenMotionOnSecondary, .client primaryClient),
    (.primaryScreenWheel, .client primaryClient), (.primaryScreenSaverActivated, .client primaryClient),
    (.primaryScreenSaverDeactivated, .client primaryClient), (.primaryScreenFakeInputBegin, .inputFilter),
    (.primaryScreenFakeInputEnd, .inputFilter), (.timer, .server)]

end ServerLife

/-- `oldTimer` is the timer that `m_oldClients` has for a client, `timers` are those that exist
in the event queue. `announcements` counts the `ServerDisconnected` events sent, and
`disconnected` tells how many there were when `Server::disconnect` was called last. -/
structure ServerLife where
  server : Server
  handlers : ServerLife.Handlers
  oldTimer : BaseClientProxy → Option Nat
  timers : Finset Nat
  nextTimer : Nat
  adopted : Finset BaseClientProxy
  deletions : BaseClientProxy → Nat
  announcements : Nat
  disconnected : Option Nat
  alive : Bool

/-- What comes to the server, in any order; other events are handled as they are without it. -/
inductive LifeEvent where
  | adoptClient (client : BaseClientProxy)
  | clientDisconnected (client : BaseClientProxy)
  | closeTimeout (timer : Nat)
  | reloadConfig (config : Config)
  | disconnect
  | destroy
  | other (fuel : Nat) (ev : ServerEvent)

namespace ServerLife
variable (e : Platform) (p : ServerLife)

def addHandler (type : EventTypes) (target : Target) (captured : Option BaseClientProxy) : ServerLife :=
  { p with handlers := p.handlers.add type target captured }

def removeHandler (type : EventTypes) (target : Target) : ServerLife :=
  { p with handlers := p.handlers.remove type target }

def delete (client : BaseClientProxy) : ServerLife :=
  { p with deletions := Function.update p.deletions client (p.deletions client + 1) }

/-- Sends `ServerDisconnected` when the primary client is the only one left. -/
def announceIfAlone : ServerLife :=
  if p.server.clients.size = 1 ∧ p.server.oldClients = ∅ then { p with announcements := p.announcements + 1 } else p

/-- The handlers that a client has while it is in the list. -/
def addListHandlers (client : BaseClientProxy) : ServerLife :=
  ((p.addHandler .screenShapeChanged (.client client) (some client)).addHandler
    .clipboardGrabbed (.client client) (some client)).addHandler .clipboardChanged (.client client) (some client)

def removeListHandlers (client : BaseClientProxy) : ServerLife :=
  if client ∈ p.server.clientSet then
    ((p.removeHandler .screenShapeChanged (.client client)).removeHandler
      .clipboardGrabbed (.client client)).removeHandler .clipboardChanged (.client client)
  else p

/-- Starts a timer for the client; one that is in `m_oldClients` already keeps its timer there. -/
def closeClient (client : BaseClientProxy) : ServerLife :=
  let timer := p.nextTimer
  let p := { p with timers := insert timer p.timers, nextTimer := timer + 1 }.addHandler
    .timer (.timer timer) (some client)
  { p.removeListHandlers client with
    server := p.server.closeClient e client
    oldTimer := Function.update p.oldTimer client ((p.oldTimer client).or (some timer)) }

def closeClients (config : Config) : ServerLife :=
  (p.server.droppedClients config).foldl (fun p client => p.closeClient e client) p

def adoptClient (client : BaseClientProxy) : ServerLife :=
  let p := { p with adopted := insert client p.adopted }.addHandler
    .clientProxyDisconnected (.client client) (some client)
  if !p.server.config.isScreen client.name then p.closeClient e client
  else if p.server.clients.contains (p.server.getName client) then p.closeClient e client
  else { p.addListHandlers client with server := p.server.adoptClient e client }

def removeActiveClient (client : BaseClientProxy) : ServerLife :=
  if client ∈ p.server.clientSet then
    let p := (p.removeListHandlers client).removeHandler .clientProxyDisconnected (.client client)
    { p with server := p.server.removeActiveClient e client }.announceIfAlone
  else p

def removeOldClient (client : BaseClientProxy) : ServerLife :=
  match p.oldTimer client with
  | none => p
  | some timer =>
    let p := (p.removeHandler .clientProxyDisconnected (.client client)).removeHandler .timer (.timer timer)
    { p with
      timers := p.timers.erase timer
      oldTimer := Function.update p.oldTimer client none
      server := p.server.removeOldClient client }.announceIfAlone

def handleClientDisconnected (client : BaseClientProxy) : ServerLife :=
  ((p.removeActiveClient e client).removeOldClient client).delete client

def handleClientCloseTimeout (client : BaseClientProxy) : ServerLife := (p.removeOldClient client).delete client

def reloadConfig (config : Config) : ServerLife :=
  let q := { p with server := { p.server with config := config } }
  if config.isScreen p.server.primaryClient.name then
    { q.closeClients e config with server := p.server.reloadConfig e config }
  else q

def disconnect : ServerLife :=
  let q := { p with disconnected := some p.announcements }
  if 1 < p.server.clients.size ∨ p.server.oldClients.Nonempty then q.closeClients e .empty
  else { q with announcements := q.announcements + 1 }

/-- The loop of the destructor over the clients that are closing. -/
def dropOldClients : ServerLife :=
  let old := p.server.oldClients
  { p with
    timers := p.timers.filter fun timer => ∀ client ∈ old, p.oldTimer client ≠ some timer
    handlers := fun k => match k with
      | (.timer, .client client) => if client ∈ old then none else p.handlers k
      | (.clientProxyDisconnected, .client client) => if client ∈ old then none else p.handlers k
      | k => p.handlers k
    deletions := fun client => if client ∈ old then p.deletions client + 1 else p.deletions client }

def destroy : ServerLife :=
  let primaryClient := p.server.primaryClient
  let p := (removedHandlers primaryClient).foldl (fun p k => p.removeHandler k.1 k.2) p
  let p := ({ p with server := p.server.stopSwitch }.disconnect e).dropOldClients
  { p.removeListHandlers primaryClient with alive := false }

/-- A handler that is registered is called; what is not registered for has no effect. A proxy
that is adopted is a new one, and a timer expires only while it exists. -/
def step (p : ServerLife) (input : Platform × LifeEvent) : ServerLife :=
  if p.alive then
    match input.2 with
    | .adoptClient client =>
      if client ∈ p.adopted ∨ client = p.server.primaryClient then p else p.adoptClient input.1 client
    | .clientDisconnected client =>
      match p.handlers (.clientProxyDisconnected, .client client) with
      | some (some client) => p.handleClientDisconnected input.1 client
      | _ => p
    | .closeTimeout timer =>
      match p.handlers (.timer, .timer timer) with
      | some (some client) => if timer ∈ p.timers then p.handleClientCloseTimeout client else p
      | _ => p
    | .reloadConfig config => p.reloadConfig input.1 config
    | .disconnect => p.disconnect input.1
    | .destroy => p.destroy input.1
    | .other fuel ev =>
      match ev with
      | .adoptClient _ | .clientDisconnected _ | .clientCloseTimeout _ | .reloadConfig _ | .disconnect => p
      | ev => { p with server := ((p.server.handle input.1 fuel ev).map Motion.server).getD p.server }
  else p

/-- A server that has just been built. -/
def start (config : Config) (primaryClient : BaseClientProxy) : ServerLife :=
  let q : ServerLife := {
    server := Server.new e config primaryClient
    handlers := fun k => if k ∈ ownHandlers primaryClient then some none else none
    oldTimer := fun _ => none
    timers := ∅
    nextTimer := 0
    adopted := ∅
    deletions := fun _ => 0
    announcements := 0
    disconnected := none
    alive := true }
  q.addListHandlers primaryClient

/-- The client is connected or being closed. -/
def Holds (client : BaseClientProxy) : Prop :=
  p.alive = true ∧ (client ∈ p.server.clientSet ∨ client ∈ p.server.oldClients)

/-- Every proxy is in one of the lists until it is deleted, and deleted once; the clients that
are being closed are those with a timer and its handler; no handler is left without its target
or without the server; and the last client to go after `disconnect` is announced. -/
structure ClosedOnce : Prop where
  apart : Disjoint p.server.clientSet p.server.oldClients
  timed : p.alive = true → ∀ client, client ∈ p.server.oldClients ↔
    ∃ timer ∈ p.timers, p.handlers (.timer, .timer timer) = some (some client)
  timersOnce : p.alive = true → ∀ timer ∈ p.timers, ∀ timer' ∈ p.timers,
    p.handlers (.timer, .timer timer) = p.handlers (.timer, .timer timer') → timer = timer'
  deletedOnce : ∀ client ∈ p.adopted,
    (p.Holds client ∧ p.deletions client = 0) ∨ (¬ p.Holds client ∧ p.deletions client = 1)
  handlers : ∀ type target, p.handlers (type, target) ≠ none → p.alive = true ∧
    (∀ client, target = .client client → p.deletions client = 0) ∧ ∀ timer, target = .timer timer → timer ∈ p.timers
  announced : ∀ n, p.disconnected = some n → p.alive = true → p.server.clientSet = {p.server.primaryClient} →
    p.server.oldClients = ∅ → n < p.announcements

end ServerLife
end Synergy
