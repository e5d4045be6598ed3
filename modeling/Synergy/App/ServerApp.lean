import Mathlib.Logic.Function.Basic

/-! The server application: the screen, the client of the primary screen, the server and its
listener as they are made and deleted, and the event loop inside `closeServer`. -/
namespace Synergy

inductive ServerState where
  | uninitialized
  | initializing
  | initializingToStart
  | initialized
  | starting
  | started
  deriving DecidableEq

/-- What may be thrown while the screen and its client are opened. -/
inductive ScreenException where
  | unavailable
  | openFailure
  | base
  deriving DecidableEq

/-- What may be thrown while the listener and the server are opened. -/
inductive SocketException where
  | addressInUse
  | base
  deriving DecidableEq

/-- What the four open functions throw, if anything. -/
structure Openings where
  serverScreen : Option ScreenException
  primaryClient : Option ScreenException
  listener : Option SocketException
  server : Option SocketException

namespace Openings
variable (o : Openings)

def opensScreen : Bool := o.serverScreen.isNone && o.primaryClient.isNone

def opensServer : Bool := o.listener.isNone && o.server.isNone

/-- What is thrown first tells that the screen is not available or the address in use. -/
def retryable : Bool :=
  match o.serverScreen, o.primaryClient, o.listener, o.server with
  | some ex, _, _, _ | none, some ex, _, _ => ex = .unavailable
  | none, none, some ex, _ | none, none, none, some ex => ex = .addressInUse
  | none, none, none, none => false

end Openings

/-- What is left to do once `stopServer` has returned. -/
inductive AfterStop where
  | suspend
  | reset (openings : Openings)
  | cleanup

/-- A call of `closeServer` that waits in its loop. -/
structure ClosingLoop where
  server : Nat
  rest : AfterStop

/-- Objects are numbered as they are created. `retryOwed` tells that the last start has failed
in a way that is to be tried again, `assertsHold` that no assertion has failed. -/
structure ServerApp where
  serverState : ServerState
  server : Option Nat
  listener : Option Nat
  primaryClient : Option Nat
  serverScreen : Option Nat
  timer : Option Nat
  suspended : Bool
  created : Nat
  deletions : Nat → Nat
  loops : List ClosingLoop
  retryOwed : Bool
  assertsHold : Bool
  launched : Bool
  exited : Bool

/-- What the event loops get, in any order; the `Quit` event ends the innermost of them. -/
inductive ServerAppEvent where
  | startNode (openings : Openings)
  | suspend
  | resume (openings : Openings)
  | reset (openings : Openings)
  | retry (openings : Openings)
  | quit

namespace ServerApp

def initial : ServerApp where
  serverState := .uninitialized
  server := none
  listener := none
  primaryClient := none
  serverScreen := none
  timer := none
  suspended := false
  created := 0
  deletions := fun _ => 0
  loops := []
  retryOwed := false
  assertsHold := true
  launched := false
  exited := false

variable (a : ServerApp)

def delete (object : Option Nat) : ServerApp :=
  match object with
  | none => a
  | some n => { a with deletions := Function.update a.deletions n (a.deletions n + 1) }

def assert (condition : Bool) : ServerApp := { a with assertsHold := a.assertsHold && condition }

def stopRetryTimer : ServerApp := { a with timer := none }

/-- The assertions at the end of `stopServer`. -/
def stopped : ServerApp := (a.assert a.server.isNone).assert a.listener.isNone

/-- `closeServer` deletes the server that it was called with, and `stopServer` closes the
listener that there is by then. -/
def finishStop (server : Nat) : ServerApp :=
  let a := a.delete (some server)
  { a.delete a.listener with server := none, listener := none, serverState := .initialized }.stopped

/-- `stopServer` when there is no server to wait for. -/
def stopIdle : ServerApp :=
  match a.serverState with
  | .started => { a.delete a.listener with server := none, listener := none, serverState := .initialized }.stopped
  | .starting => { a.stopRetryTimer with serverState := .initialized }.stopped
  | _ => a.stopped

/-- `cleanupServer` after its call of `stopServer`. -/
def finishCleanup : ServerApp :=
  let a := match a.serverState with
    | .initialized =>
      { (a.delete a.primaryClient).delete a.serverScreen with
        primaryClient := none, serverScreen := none, serverState := .uninitialized }
    | .initializing | .initializingToStart => { a.stopRetryTimer with serverState := .uninitialized }
    | _ => a
  ((a.assert a.primaryClient.isNone).assert a.serverScreen.isNone).assert (a.serverState = .uninitialized)

/-- Every exception that is caught closes what has been opened. -/
def initServer (openings : Openings) : Bool × ServerApp :=
  if a.serverState ≠ .uninitialized then (true, a)
  else
    match openings.serverScreen with
    | some _ => (false, a)
    | none =>
      let serverScreen := a.created
      let a := { a with created := a.created + 1 }
      match openings.primaryClient with
      | some _ => (false, a.delete (some serverScreen))
      | none =>
        let primaryClient := a.created
        (true, { a with
          created := a.created + 1
          serverScreen := some serverScreen
          primaryClient := some primaryClient
          serverState := .initialized })

/-- `startServer` once the screen is there. -/
def openListener (openings : Openings) : Bool × ServerApp :=
  match openings.listener with
  | some _ => (false, a)
  | none =>
    let listener := a.created
    let a := { a with created := a.created + 1 }
    match openings.server with
    | some _ => (false, a.delete (some listener))
    | none =>
      let server := a.created
      (true, { a with
        created := a.created + 1
        server := some server
        listener := some listener
        serverState := .started })

def startServer (openings : Openings) : Bool × ServerApp :=
  if a.serverState = .starting ∨ a.serverState = .started then (true, a)
  else if a.serverState = .initialized then a.openListener openings
  else
    match a.initServer openings with
    | (false, a) => (false, a)
    | (true, a) =>
      if a.serverState = .initializing then (true, { a with serverState := .initializingToStart })
      else (a.assert (a.serverState = .initialized)).openListener openings

/-- `ServerApp::resetServer` after its call of `stopServer`. -/
def finishReset (openings : Openings) : ServerApp :=
  let (isStarted, a) := a.stopIdle.finishCleanup.startServer openings
  { a with retryOwed := !isStarted }

def afterStop : AfterStop → ServerApp
  | .suspend => { a with suspended := true }
  | .reset openings => a.finishReset openings
  | .cleanup => { a.finishCleanup with exited := true }

/-- `stopServer`, which waits for the clients in `closeServer`, and what comes after it. -/
def stopServer (rest : AfterStop) : ServerApp :=
  match a.serverState, a.server with
  | .started, some server => { a with loops := ⟨server, rest⟩ :: a.loops }
  | _, _ => a.stopIdle.afterStop rest

/-- The start is given up when it fails. It was to be tried again if the screen was not
available or the address in use. -/
def startNode (openings : Openings) : ServerApp :=
  let (isStarted, a) := a.startServer openings
  { a with retryOwed := !isStarted && openings.retryable, launched := true, exited := !isStarted }

def handleSuspend : ServerApp := if a.suspended then a else a.stopServer .suspend

def handleResume (openings : Openings) : ServerApp :=
  if a.suspended then
    let (isStarted, a) := a.startServer openings
    { a with retryOwed := !isStarted, suspended := false }
  else a

/-- A failure here is answered by a `Quit`. -/
def retryHandler (openings : Openings) : ServerApp :=
  let a := (a.assert a.timer.isSome).stopRetryTimer
  match a.serverState with
  | .initializing => ({ a with serverState := .uninitialized }.initServer openings).2
  | .initializingToStart =>
    match { a with serverState := .uninitialized }.initServer openings with
    | (true, a) => if a.serverState = .initialized then (a.startServer openings).2 else a
    | (false, a) => a
  | .starting => ({ a with serverState := .initialized }.startServer openings).2
  | _ => a

/-- The loop that a `Quit` ends is that of the last call of `closeServer`, or the main one. -/
def handleQuit : ServerApp :=
  match a.loops with
  | [] => a.stopServer .cleanup
  | loop :: loops => ({ a with loops := loops }.finishStop loop.server).afterStop loop.rest

def step (a : ServerApp) (ev : ServerAppEvent) : ServerApp :=
  if a.exited then a
  else if !a.launched then
    match ev with
    | .startNode openings => a.startNode openings
    | _ => a
  else
    match ev with
    | .startNode _ => a
    | .suspend => a.handleSuspend
    | .resume openings => a.handleResume openings
    | .reset openings => a.stopServer (.reset openings)
    | .retry openings => if a.timer.isSome then a.retryHandler openings else a
    | .quit => a.handleQuit

/-- The objects that the application has. -/
def held : List Nat := [a.server, a.listener, a.primaryClient, a.serverScreen].filterMap id

/-- The fields agree with the state, no assertion has failed, every object is held until it
is deleted once, and a start that has failed will be tried again. -/
structure Sound : Prop where
  server : a.server ≠ none ↔ a.serverState = .started
  listener : a.listener ≠ none ↔ a.serverState = .started
  primaryClient : a.primaryClient ≠ none ↔
    a.serverState = .initialized ∨ a.serverState = .starting ∨ a.serverState = .started
  serverScreen : a.serverScreen ≠ none ↔
    a.serverState = .initialized ∨ a.serverState = .starting ∨ a.serverState = .started
  timer : a.timer ≠ none ↔
    a.serverState = .initializing ∨ a.serverState = .initializingToStart ∨ a.serverState = .starting
  asserts : a.assertsHold = true
  deletedOnce : ∀ n < a.created, (n ∈ a.held ∧ a.deletions n = 0) ∨ (n ∉ a.held ∧ a.deletions n = 1)
  retry : a.retryOwed = true → a.suspended = false → a.timer ≠ none

end ServerApp
end Synergy
