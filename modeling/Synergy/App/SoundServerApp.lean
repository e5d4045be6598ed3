import Mathlib.Order.Nat
import Synergy.App.ServerApp
import Synergy.Lib.Ownership
import Synergy.Lib.Trace

/-! The state machine of the server application is sound as long as what it opens can be opened
and nothing stops the server while it is being stopped. -/
namespace Synergy
open Synergy.Lib

namespace ServerApp
variable {a t : ServerApp}

/-- The states that the application gets into, each with the objects that it has then. -/
inductive Stage (serverState : ServerState) (server listener primaryClient serverScreen : Option Nat) : Prop
  | uninitialized (hstate : serverState = .uninitialized) (hserver : server = none) (hlistener : listener = none)
      (hprimary : primaryClient = none) (hscreen : serverScreen = none)
  | initialized (p s : Nat) (hstate : serverState = .initialized) (hserver : server = none)
      (hlistener : listener = none) (hprimary : primaryClient = some p) (hscreen : serverScreen = some s)
  | started (v l p s : Nat) (hstate : serverState = .started) (hserver : server = some v)
      (hlistener : listener = some l) (hprimary : primaryClient = some p) (hscreen : serverScreen = some s)

/-- What holds of the objects. -/
structure Core (a : ServerApp) : Prop where
  stage : Stage a.serverState a.server a.listener a.primaryClient a.serverScreen
  owned : Owned a.created a.deletions a.held
  timer : a.timer = none
  asserts : a.assertsHold = true

/-- Only the objects change. -/
structure SameLoops (a t : ServerApp) : Prop where
  loops : t.loops = a.loops
  suspended : t.suspended = a.suspended
  retryOwed : t.retryOwed = a.retryOwed
  launched : t.launched = a.launched
  exited : t.exited = a.exited

theorem SameLoops.refl (a : ServerApp) : SameLoops a a := ⟨rfl, rfl, rfl, rfl, rfl⟩

theorem SameLoops.trans {b : ServerApp} (h : SameLoops a b) (h' : SameLoops b t) : SameLoops a t :=
  ⟨h'.loops.trans h.loops, h'.suspended.trans h.suspended, h'.retryOwed.trans h.retryOwed,
    h'.launched.trans h.launched, h'.exited.trans h.exited⟩

@[simp] theorem assert_true (a : ServerApp) : a.assert true = a := by
  rw [assert, Bool.and_true]

/-- Opening the listener and the server fails if one of them does, and leaves nothing behind then. -/
private theorem Core.openListener (h : Core a) (hstate : a.serverState = .initialized) (o : Openings) :
    Core (a.openListener o).2 ∧ SameLoops a (a.openListener o).2 ∧ (a.openListener o).1 = o.opensServer := by
  obtain ⟨hstage, howned, htimer, hasserts⟩ := h
  obtain ⟨p, s, hserver, hlistener, hprimary, hscreen⟩ : ∃ p s, a.server = none ∧ a.listener = none ∧
      a.primaryClient = some p ∧ a.serverScreen = some s := by
    cases hstage with
    | uninitialized hstate' => cases hstate.symm.trans hstate'
    | initialized p s _ h1 h2 h3 h4 => exact ⟨p, s, h1, h2, h3, h4⟩
    | started _ _ _ _ hstate' => cases hstate.symm.trans hstate'
  have hheld : a.held = [p, s] := by simp [held, hserver, hlistener, hprimary, hscreen]
  rw [hheld] at howned
  cases hl : o.listener with
  | some ex =>
    rw [ServerApp.openListener, hl, Openings.opensServer, hl]
    exact ⟨⟨hstage, hheld ▸ howned, htimer, hasserts⟩, .refl a, rfl⟩
  | none =>
    cases hv : o.server with
    | some ex =>
      simp only [ServerApp.openListener, hl, hv, Openings.opensServer, delete]
      refine ⟨⟨.initialized p s hstate hserver hlistener hprimary hscreen, ?_, htimer, hasserts⟩,
        ⟨rfl, rfl, rfl, rfl, rfl⟩, rfl⟩
      have hdeleted := howned.create.delete
      rwa [← hheld] at hdeleted
    | none =>
      simp only [ServerApp.openListener, hl, hv, Openings.opensServer]
      refine ⟨⟨.started (a.created + 1) a.created p s rfl rfl rfl hprimary hscreen, ?_, htimer, hasserts⟩,
        ⟨rfl, rfl, rfl, rfl, rfl⟩, rfl⟩
      have hnew := howned.create.create
      simpa [held, hprimary, hscreen] using hnew

/-- So does opening the screen and its client. -/
private theorem Core.initServer (h : Core a) (hstate : a.serverState = .uninitialized) (o : Openings) :
    Core (a.initServer o).2 ∧ SameLoops a (a.initServer o).2 ∧ (a.initServer o).1 = o.opensScreen ∧
      (o.opensScreen = true → (a.initServer o).2.serverState = .initialized) := by
  obtain ⟨hstage, howned, htimer, hasserts⟩ := h
  obtain ⟨hserver, hlistener, hprimary, hscreen⟩ : a.server = none ∧ a.listener = none ∧ a.primaryClient = none ∧
      a.serverScreen = none := by
    cases hstage with
    | uninitialized _ h1 h2 h3 h4 => exact ⟨h1, h2, h3, h4⟩
    | initialized _ _ hstate' => cases hstate.symm.trans hstate'
    | started _ _ _ _ hstate' => cases hstate.symm.trans hstate'
  have hheld : a.held = [] := by simp [held, hserver, hlistener, hprimary, hscreen]
  rw [hheld] at howned
  have hskip : ¬ a.serverState ≠ .uninitialized := not_not.mpr hstate
  cases hs : o.serverScreen with
  | some ex =>
    simp only [ServerApp.initServer, if_neg hskip, hs, Openings.opensScreen]
    exact ⟨⟨hstage, hheld ▸ howned, htimer, hasserts⟩, .refl a, rfl, fun hopen => by simp at hopen⟩
  | none =>
    cases hp : o.primaryClient with
    | some ex =>
      simp only [ServerApp.initServer, if_neg hskip, hs, hp, Openings.opensScreen, delete]
      refine ⟨⟨.uninitialized hstate hserver hlistener hprimary hscreen, ?_, htimer, hasserts⟩,
        ⟨rfl, rfl, rfl, rfl, rfl⟩, rfl, fun hopen => by simp at hopen⟩
      have hdeleted := howned.create.delete
      rwa [← hheld] at hdeleted
    | none =>
      simp only [ServerApp.initServer, if_neg hskip, hs, hp, Openings.opensScreen]
      refine ⟨⟨.initialized (a.created + 1) a.created rfl hserver hlistener rfl rfl, ?_, htimer, hasserts⟩,
        ⟨rfl, rfl, rfl, rfl, rfl⟩, rfl, fun _ => trivial⟩
      have hnew := howned.create.create
      simpa [held, hserver, hlistener] using hnew

/-- What a start in the given state has to open can be opened. -/
def Openings.opens (o : Openings) (serverState : ServerState) : Bool :=
  match serverState with
  | .uninitialized => o.opensScreen && o.opensServer
  | .initialized => o.opensServer
  | _ => true

/-- A start keeps the objects in order, whether it succeeds or not. -/
theorem Core.startServer (h : Core a) (o : Openings) : Core (a.startServer o).2 ∧ SameLoops a (a.startServer o).2 ∧
    (a.startServer o).1 = Openings.opens o a.serverState := by
  rcases h.stage with ⟨hstate⟩ | ⟨_, _, hstate⟩ | ⟨_, _, _, _, hstate⟩
  · obtain ⟨hcore, hsame, hok, hnext⟩ := h.initServer hstate o
    simp only [ServerApp.startServer, hstate, reduceCtorEq, or_false, if_false, Openings.opens]
    generalize a.initServer o = r at hcore hsame hok hnext
    obtain ⟨isOpen, t⟩ := r
    obtain rfl : isOpen = o.opensScreen := hok
    cases hopen : o.opensScreen with
    | false => exact ⟨hcore, hsame, rfl⟩
    | true =>
      have hstate : t.serverState = .initialized := hnext hopen
      simp only [hstate, reduceCtorEq, if_false, decide_true, assert_true, Bool.true_and]
      obtain ⟨hcore, hsame', hok⟩ := Core.openListener (a := t) hcore hstate o
      exact ⟨hcore, hsame.trans hsame', hok⟩
  · simp only [ServerApp.startServer, hstate, reduceCtorEq, or_false, if_false, if_true, Openings.opens]
    exact h.openListener hstate o
  · simp only [ServerApp.startServer, hstate, or_true, if_true, Openings.opens]
    exact ⟨h, .refl a, trivial⟩

private theorem Core.finishCleanup (h : Core a) (hstate : a.serverState ≠ .started) :
    Core a.finishCleanup ∧ SameLoops a a.finishCleanup ∧ a.finishCleanup.serverState = .uninitialized := by
  obtain ⟨hstage, howned, htimer, hasserts⟩ := h
  rcases hstage with ⟨hstate', hserver, hlistener, hprimary, hscreen⟩ |
    ⟨p, s, hstate', hserver, hlistener, hprimary, hscreen⟩ | ⟨_, _, _, _, hstate'⟩
  · simp only [ServerApp.finishCleanup, hstate', hprimary, hscreen, Option.isNone_none, decide_true, assert_true]
    exact ⟨⟨.uninitialized hstate' hserver hlistener hprimary hscreen, howned, htimer, hasserts⟩, .refl a, trivial⟩
  · simp only [ServerApp.finishCleanup, hstate', hprimary, hscreen, delete, Option.isNone_none, decide_true,
      assert_true]
    refine ⟨⟨.uninitialized rfl hserver hlistener rfl rfl, ?_, htimer, hasserts⟩, ⟨rfl, rfl, rfl, rfl, rfl⟩, trivial⟩
    have hheld : a.held = [p, s] := by simp [held, hserver, hlistener, hprimary, hscreen]
    have hdeleted := (hheld ▸ howned).delete.delete
    simpa [held, hserver, hlistener] using hdeleted
  · exact absurd hstate' hstate

private theorem Core.stopIdle (h : Core a) (hstate : a.serverState ≠ .started) : a.stopIdle = a := by
  rcases h.stage with ⟨hstate', hserver, hlistener⟩ | ⟨_, _, hstate', hserver, hlistener⟩ | ⟨_, _, _, _, hstate'⟩
  · simp only [ServerApp.stopIdle, hstate', stopped, hserver, hlistener, Option.isNone_none, assert_true]
  · simp only [ServerApp.stopIdle, hstate', stopped, hserver, hlistener, Option.isNone_none, assert_true]
  · exact absurd hstate' hstate

/-- The server that is closed is the one that the application has. -/
private theorem Core.finishStop (h : Core a) (hstate : a.serverState = .started) {v : Nat}
    (hserver : a.server = some v) :
    Core (a.finishStop v) ∧ SameLoops a (a.finishStop v) ∧ (a.finishStop v).serverState = .initialized := by
  obtain ⟨hstage, howned, htimer, hasserts⟩ := h
  rcases hstage with ⟨hstate'⟩ | ⟨_, _, hstate'⟩ | ⟨v', l, p, s, -, hserver', hlistener, hprimary, hscreen⟩
  · cases hstate.symm.trans hstate'
  · cases hstate.symm.trans hstate'
  · obtain rfl := Option.some.inj (hserver.symm.trans hserver')
    have hheld : a.held = [v, l, p, s] := by simp [held, hserver, hlistener, hprimary, hscreen]
    have hdeleted := (hheld ▸ howned).delete.delete
    simp only [ServerApp.finishStop, delete, hlistener, stopped, Option.isNone_none, assert_true]
    refine ⟨⟨.initialized p s rfl rfl rfl hprimary hscreen, ?_, htimer, hasserts⟩, ⟨rfl, rfl, rfl, rfl, rfl⟩, trivial⟩
    simpa [held, hprimary, hscreen] using hdeleted

/-- What comes after a stop goes well: a reset can start the server again, unless it is suspended. -/
def AfterStop.succeeds (suspended : Bool) : AfterStop → Bool
  | .reset o => suspended || Openings.opens o .uninitialized
  | _ => true

/-- Nothing stops the server while it is being stopped, and what an event opens can be opened. -/
def orderly (a : ServerApp) (ev : ServerAppEvent) : Bool :=
  if a.exited then true
  else if !a.launched then
    match ev with
    | .startNode o => Openings.opens o .uninitialized || !o.retryable
    | _ => true
  else
    match ev with
    | .suspend => a.suspended || a.loops.isEmpty
    | .resume o => !a.suspended || Openings.opens o a.serverState
    | .reset o => a.loops.isEmpty && (a.serverState = .started || AfterStop.succeeds a.suspended (.reset o))
    | .quit => a.loops.head?.all fun loop => AfterStop.succeeds a.suspended loop.rest
    | _ => true

def Orderly (a : ServerApp) (ev : ServerAppEvent) (_ : ServerApp) : Prop := a.orderly ev = true

instance (a : ServerApp) (ev : ServerAppEvent) (t : ServerApp) : Decidable (Orderly a ev t) :=
  inferInstanceAs (Decidable (_ = true))

/-- What holds along an orderly run. -/
structure Kept (a : ServerApp) : Prop where
  core : Core a
  waits : a.loops = [] ∨ ∃ loop, a.loops = [loop] ∧ a.serverState = .started ∧ a.server = some loop.server
  retry : a.retryOwed = true → a.suspended = true
  fresh : a.launched = false → a.serverState = .uninitialized ∧ a.suspended = false

theorem kept_initial : Kept initial :=
  ⟨⟨.uninitialized rfl rfl rfl rfl rfl, .nothing, rfl, rfl⟩, .inl rfl, fun h => h, fun _ => ⟨rfl, rfl⟩⟩

theorem Kept.sound (h : Kept a) : a.Sound := by
  have hretry : a.retryOwed = true → a.suspended = false → a.timer ≠ none := by
    intro howed hawake
    rw [h.retry howed] at hawake
    cases hawake
  obtain ⟨hstage, howned, htimer, hasserts⟩ := h.core
  rcases hstage with ⟨hstate, hserver, hlistener, hprimary, hscreen⟩ |
    ⟨p, s, hstate, hserver, hlistener, hprimary, hscreen⟩ | ⟨v, l, p, s, hstate, hserver, hlistener, hprimary, hscreen⟩
  all_goals
    refine ⟨?_, ?_, ?_, ?_, ?_, hasserts, fun n hn => howned.deleted_once hn, hretry⟩ <;>
      simp [hstate, hserver, hlistener, hprimary, hscreen, htimer]

private theorem not_sound_of_owed (htimer : a.timer = none) (howed : a.retryOwed = true)
    (hawake : a.suspended = false) : ¬ a.Sound := fun h => h.retry howed hawake htimer

/-- The end of a stop, with the server gone. -/
private theorem Kept.afterStop (h : Core a) (hstate : a.serverState ≠ .started) (hloops : a.loops = [])
    (hretry : a.retryOwed = true → a.suspended = true) (hlaunched : a.launched = true) (rest : AfterStop) :
    (AfterStop.succeeds a.suspended rest = true → Kept (a.afterStop rest)) ∧
      (AfterStop.succeeds a.suspended rest = false → ¬ (a.afterStop rest).Sound) := by
  have hlate : ∀ {p : Prop}, a.launched = false → p := fun hnot => by cases hnot.symm.trans hlaunched
  cases rest with
  | suspend =>
    exact ⟨fun _ => ⟨⟨h.stage, h.owned, h.timer, h.asserts⟩, .inl hloops, fun _ => rfl, hlate⟩, fun h => by cases h⟩
  | cleanup =>
    obtain ⟨hcore, hsame, -⟩ := h.finishCleanup hstate
    refine ⟨fun _ => ⟨⟨hcore.stage, hcore.owned, hcore.timer, hcore.asserts⟩, ?_, ?_, ?_⟩, fun h => by cases h⟩
    · exact .inl (hsame.loops.trans hloops)
    · exact fun howed => hsame.suspended.trans (hretry (hsame.retryOwed.symm.trans howed))
    · exact fun hnot => hlate (hsame.launched.symm.trans hnot)
  | reset o =>
    rw [ServerApp.afterStop, finishReset, h.stopIdle hstate]
    obtain ⟨hcore, hsame, hgone⟩ := h.finishCleanup hstate
    obtain ⟨hcore, hsame', hok⟩ := hcore.startServer o
    rw [hgone] at hok
    have hsame := hsame.trans hsame'
    generalize a.finishCleanup.startServer o = r at hcore hsame hok
    obtain ⟨isStarted, t⟩ := r
    obtain rfl : isStarted = Openings.opens o .uninitialized := hok
    have hloops := hsame.loops.trans hloops
    refine ⟨fun hgood => ⟨⟨hcore.stage, hcore.owned, hcore.timer, hcore.asserts⟩, .inl hloops, fun howed => ?_, ?_⟩,
      fun hbad => not_sound_of_owed hcore.timer ?_ ?_⟩
    · rcases Bool.or_eq_true_iff.mp hgood with hsuspended | hopens
      · exact hsame.suspended.trans hsuspended
      · simp only [hopens, Bool.not_true, Bool.false_eq_true] at howed
    · exact fun hnot => hlate (hsame.launched.symm.trans hnot)
    · simp only [(Bool.or_eq_false_iff.mp hbad).2, Bool.not_false]
    · exact hsame.suspended.trans (Bool.or_eq_false_iff.mp hbad).1

/-- Two calls of `closeServer` have been made for the same server. -/
def Doubled (n : Nat) (a : ServerApp) : Prop :=
  n < a.created ∧ 2 ≤ a.deletions n + (a.loops.map ClosingLoop.server).count n

private theorem Kept.stopServer (h : Kept a) (hlaunched : a.launched = true) (rest : AfterStop) :
    (a.loops = [] → (a.serverState = .started ∨ AfterStop.succeeds a.suspended rest = true) →
      Kept (a.stopServer rest)) ∧
    (a.loops = [] → a.serverState ≠ .started → AfterStop.succeeds a.suspended rest = false →
      ¬ (a.stopServer rest).Sound) ∧
    (a.loops ≠ [] → ∃ n, Doubled n (a.stopServer rest)) := by
  have hlate : ∀ {p : Prop}, a.launched = false → p := fun hnot => by cases hnot.symm.trans hlaunched
  by_cases hstarted : a.serverState = .started
  · obtain ⟨v, hserver, hbound⟩ : ∃ v, a.server = some v ∧ v < a.created := by
      rcases h.core.stage with ⟨hstate⟩ | ⟨_, _, hstate⟩ | ⟨v, _, _, _, -, hserver⟩
      · cases hstarted.symm.trans hstate
      · cases hstarted.symm.trans hstate
      · exact ⟨v, hserver, h.core.owned.bounded v (by simp [held, hserver])⟩
    have heq : a.stopServer rest = { a with loops := ⟨v, rest⟩ :: a.loops } := by
      rw [ServerApp.stopServer, hstarted, hserver]
    rw [heq]
    refine ⟨fun hloops _ => ?_, fun _ hnot => absurd hstarted hnot, fun hloops => ?_⟩
    · refine ⟨⟨h.core.stage, h.core.owned, h.core.timer, h.core.asserts⟩, .inr ⟨⟨v, rest⟩, ?_, hstarted, hserver⟩,
        h.retry, hlate⟩
      simp only [hloops]
    · obtain ⟨loop, hone, -, hsame⟩ := h.waits.resolve_left hloops
      obtain rfl := Option.some.inj (hserver.symm.trans hsame)
      exact ⟨_, hbound, by simp [hone]⟩
  · have hloops : a.loops = [] := h.waits.resolve_right fun ⟨_, _, hstate, _⟩ => hstarted hstate
    have heq : a.stopServer rest = a.afterStop rest := by
      rw [ServerApp.stopServer, h.core.stopIdle hstarted]
      split
      · exact absurd ‹_› hstarted
      · rfl
    rw [heq]
    obtain ⟨hgood, hbad⟩ := Kept.afterStop h.core hstarted hloops h.retry hlaunched rest
    exact ⟨fun _ hok => hgood (hok.resolve_left hstarted), fun _ _ => hbad, fun hnot => absurd hloops hnot⟩

private theorem Kept.handleResume (h : Kept a) (hlaunched : a.launched = true) (o : Openings) :
    ((!a.suspended || Openings.opens o a.serverState) = true → Kept (a.handleResume o)) ∧
      ((!a.suspended || Openings.opens o a.serverState) = false → ¬ (a.handleResume o).Sound) := by
  have hlate : ∀ {p : Prop}, a.launched = false → p := fun hnot => by cases hnot.symm.trans hlaunched
  unfold ServerApp.handleResume
  by_cases hsuspended : a.suspended = true
  · rw [if_pos hsuspended]
    have hwaits : (a.startServer o).2.loops = [] ∨ ∃ loop, (a.startServer o).2.loops = [loop] ∧
        (a.startServer o).2.serverState = .started ∧ (a.startServer o).2.server = some loop.server := by
      by_cases hstarted : a.serverState = .started
      · have hsame : a.startServer o = (true, a) := if_pos (.inr hstarted)
        rw [hsame]
        exact h.waits
      · have hloops : a.loops = [] := h.waits.resolve_right fun ⟨_, _, hstate, _⟩ => hstarted hstate
        exact .inl ((h.core.startServer o).2.1.loops.trans hloops)
    obtain ⟨hcore, hsame, hok⟩ := h.core.startServer o
    generalize a.startServer o = r at hcore hsame hok hwaits
    obtain ⟨isStarted, t⟩ := r
    obtain rfl : isStarted = Openings.opens o a.serverState := hok
    simp only [hsuspended, Bool.not_true, Bool.false_or]
    refine ⟨fun hopens => ⟨⟨hcore.stage, hcore.owned, hcore.timer, hcore.asserts⟩, hwaits, fun howed => ?_, ?_⟩,
      fun hfails => not_sound_of_owed hcore.timer ?_ rfl⟩
    · simp only [hopens, Bool.not_true, Bool.false_eq_true] at howed
    · exact fun hnot => hlate (hsame.launched.symm.trans hnot)
    · simp only [hfails, Bool.not_false]
  · rw [if_neg hsuspended]
    exact ⟨fun _ => h, fun hnot => by simp [hsuspended] at hnot⟩

private theorem Kept.handleQuit (h : Kept a) (hlaunched : a.launched = true) :
    ((a.loops.head?.all fun loop => AfterStop.succeeds a.suspended loop.rest) = true → Kept a.handleQuit) ∧
      ((a.loops.head?.all fun loop => AfterStop.succeeds a.suspended loop.rest) = false → ¬ a.handleQuit.Sound) := by
  rcases h.waits with hloops | ⟨loop, hloops, hstate, hserver⟩
  · simp only [ServerApp.handleQuit, hloops, List.head?_nil, Option.all_none]
    exact ⟨fun _ => (h.stopServer hlaunched .cleanup).1 hloops (.inr rfl), fun h => by cases h⟩
  · simp only [ServerApp.handleQuit, hloops, List.head?_cons, Option.all_some]
    have hcore : Core { a with loops := [] } := ⟨h.core.stage, h.core.owned, h.core.timer, h.core.asserts⟩
    obtain ⟨hcore, hsame, hstopped⟩ := hcore.finishStop hstate hserver
    have hsuspended : ({ a with loops := [] }.finishStop loop.server).suspended = a.suspended := hsame.suspended
    have hretry : ({ a with loops := [] }.finishStop loop.server).retryOwed = true →
        ({ a with loops := [] }.finishStop loop.server).suspended = true :=
      fun howed => hsuspended.trans (h.retry (hsame.retryOwed.symm.trans howed))
    have hafter := Kept.afterStop hcore (by rw [hstopped]; decide) hsame.loops hretry (hsame.launched.trans hlaunched)
      loop.rest
    rwa [hsuspended] at hafter

private theorem Kept.startNode (h : Kept a) (hlaunched : a.launched = false) (o : Openings) :
    ((Openings.opens o .uninitialized || !o.retryable) = true → Kept (a.startNode o)) ∧
      ((Openings.opens o .uninitialized || !o.retryable) = false → ¬ (a.startNode o).Sound) := by
  obtain ⟨hstate, hawake⟩ := h.fresh hlaunched
  have hloops : a.loops = [] := h.waits.resolve_right fun ⟨_, _, hstarted, _⟩ => by cases hstate.symm.trans hstarted
  obtain ⟨hcore, hsame, hok⟩ := h.core.startServer o
  rw [hstate] at hok
  unfold ServerApp.startNode
  generalize a.startServer o = r at hcore hsame hok
  obtain ⟨isStarted, t⟩ := r
  obtain rfl : isStarted = Openings.opens o .uninitialized := hok
  refine ⟨fun hgood => ⟨⟨hcore.stage, hcore.owned, hcore.timer, hcore.asserts⟩, .inl (hsame.loops.trans hloops),
    fun howed => ?_, fun hnot => by cases hnot⟩,
    fun hbad => not_sound_of_owed hcore.timer ?_ (hsame.suspended.trans hawake)⟩
  · obtain ⟨hfails, hretryable⟩ := Bool.and_eq_true_iff.mp howed
    have hfails : Openings.opens o .uninitialized = false := by simpa using hfails
    rw [hfails, hretryable] at hgood
    cases hgood
  · simpa [Bool.or_eq_false_iff] using hbad

/-- An orderly step keeps everything; any other one is followed by a state that is not sound, or
leads to one once the calls of `closeServer` have returned. -/
theorem Kept.step (h : Kept a) (ev : ServerAppEvent) : (a.orderly ev = true → Kept (a.step ev)) ∧
    (a.orderly ev = false → ¬ (a.step ev).Sound ∨ ∃ n, Doubled n (a.step ev)) := by
  unfold ServerApp.step orderly
  by_cases hover : a.exited = true
  · rw [if_pos hover, if_pos hover]
    exact ⟨fun _ => h, fun h => by cases h⟩
  rw [if_neg hover, if_neg hover]
  cases hlaunched : a.launched with
  | false =>
    cases ev with
    | startNode o =>
      obtain ⟨hgood, hbad⟩ := h.startNode hlaunched o
      exact ⟨hgood, fun hnot => .inl (hbad hnot)⟩
    | _ => exact ⟨fun _ => h, fun h => by cases h⟩
  | true =>
    cases ev with
    | startNode o => exact ⟨fun _ => h, fun h => by cases h⟩
    | suspend =>
      simp only [Bool.not_true, Bool.false_eq_true, if_false, handleSuspend]
      by_cases hsuspended : a.suspended = true
      · rw [if_pos hsuspended]
        exact ⟨fun _ => h, fun hnot => by simp [hsuspended] at hnot⟩
      · rw [if_neg hsuspended]
        obtain ⟨hgood, -, hdouble⟩ := h.stopServer hlaunched .suspend
        refine ⟨fun hok => hgood ?_ (.inr rfl), fun hnot => .inr (hdouble fun hloops => ?_)⟩
        · simpa [hsuspended] using hok
        · simp [hloops] at hnot
    | resume o =>
      obtain ⟨hgood, hbad⟩ := h.handleResume hlaunched o
      exact ⟨hgood, fun hnot => .inl (hbad hnot)⟩
    | reset o =>
      obtain ⟨hgood, hbad, hdouble⟩ := h.stopServer hlaunched (.reset o)
      refine ⟨fun hok => ?_, fun hnot => ?_⟩
      · obtain ⟨hloops, hok⟩ := Bool.and_eq_true_iff.mp hok
        exact hgood (by simpa using hloops) (by simpa using hok)
      · by_cases hloops : a.loops = []
        · have hfails : ¬ (a.serverState = .started) ∧ AfterStop.succeeds a.suspended (.reset o) = false := by
            simpa [hloops] using hnot
          exact .inl (hbad hloops hfails.1 hfails.2)
        · exact .inr (hdouble hloops)
    | retry o =>
      simp only [h.core.timer, Option.isSome_none, Bool.false_eq_true, if_false]
      exact ⟨fun _ => h, fun h => by cases h⟩
    | quit =>
      obtain ⟨hgood, hbad⟩ := h.handleQuit hlaunched
      exact ⟨hgood, fun hnot => .inl (hbad hnot)⟩

/-- Objects are created, and deleted again and again for all that is known, and the calls of
`closeServer` stay as they are. -/
structure Grows (a t : ServerApp) : Prop where
  created : a.created ≤ t.created
  deletions : ∀ n, a.deletions n ≤ t.deletions n
  loops : t.loops = a.loops

theorem Grows.of_eq (hcreated : t.created = a.created) (hdeletions : t.deletions = a.deletions)
    (hloops : t.loops = a.loops) : Grows a t := ⟨hcreated.ge, fun _ => (congrFun hdeletions _).ge, hloops⟩

theorem Grows.trans {b : ServerApp} (h : Grows a b) (h' : Grows b t) : Grows a t :=
  ⟨h.created.trans h'.created, fun n => (h.deletions n).trans (h'.deletions n), h'.loops.trans h.loops⟩

private theorem delete_grows (a : ServerApp) (object : Option Nat) : Grows a (a.delete object) := by
  cases object with
  | none => exact .of_eq rfl rfl rfl
  | some m =>
    refine ⟨le_rfl, fun n => ?_, rfl⟩
    simp only [delete, Function.update_apply]
    split
    · rename_i hn
      exact hn ▸ Nat.le_succ _
    · exact le_rfl

private theorem Grows.and_delete (h : Grows a t) (object : Option Nat) : Grows a (t.delete object) :=
  h.trans (delete_grows t object)

private theorem stopIdle_grows (a : ServerApp) : Grows a a.stopIdle := by
  unfold stopIdle
  split
  · exact (delete_grows a a.listener).trans (.of_eq rfl rfl rfl)
  · exact .of_eq rfl rfl rfl
  · exact .of_eq rfl rfl rfl

private theorem finishStop_grows (a : ServerApp) (n : Nat) : Grows (a.delete (some n)) (a.finishStop n) :=
  (delete_grows _ (a.delete (some n)).listener).trans (.of_eq rfl rfl rfl)

private theorem finishCleanup_grows (a : ServerApp) : Grows a a.finishCleanup := by
  unfold finishCleanup
  cases a.serverState with
  | initialized =>
    exact ((delete_grows a a.primaryClient).and_delete a.serverScreen).trans (.of_eq rfl rfl rfl)
  | _ => exact .of_eq rfl rfl rfl

private theorem initServer_grows (a : ServerApp) (o : Openings) : Grows a (a.initServer o).2 := by
  unfold initServer
  split
  · exact .of_eq rfl rfl rfl
  split
  · exact .of_eq rfl rfl rfl
  simp only
  have hscreen : Grows a { a with created := a.created + 1 } := ⟨Nat.le_succ _, fun _ => le_rfl, rfl⟩
  split
  · exact hscreen.and_delete (some a.created)
  · exact hscreen.trans ⟨Nat.le_succ _, fun _ => le_rfl, rfl⟩

private theorem openListener_grows (a : ServerApp) (o : Openings) : Grows a (a.openListener o).2 := by
  unfold openListener
  split
  · exact .of_eq rfl rfl rfl
  simp only
  have hlistener : Grows a { a with created := a.created + 1 } := ⟨Nat.le_succ _, fun _ => le_rfl, rfl⟩
  split
  · exact hlistener.and_delete (some a.created)
  · exact hlistener.trans ⟨Nat.le_succ _, fun _ => le_rfl, rfl⟩

private theorem startServer_grows (a : ServerApp) (o : Openings) : Grows a (a.startServer o).2 := by
  have hinit := initServer_grows a o
  unfold startServer
  split
  · exact .of_eq rfl rfl rfl
  split
  · exact openListener_grows a o
  generalize a.initServer o = r at hinit
  obtain ⟨isOpen, t⟩ := r
  cases isOpen with
  | false => exact hinit
  | true =>
    simp only
    split
    · exact hinit.trans (.of_eq rfl rfl rfl)
    · have hassert : Grows t (t.assert (t.serverState = .initialized)) := .of_eq rfl rfl rfl
      exact (hinit.trans hassert).trans (openListener_grows _ o)

private theorem afterStop_grows (a : ServerApp) (rest : AfterStop) : Grows a (a.afterStop rest) := by
  cases rest with
  | suspend => exact .of_eq rfl rfl rfl
  | cleanup => exact (finishCleanup_grows a).trans (.of_eq rfl rfl rfl)
  | reset o =>
    exact (((stopIdle_grows a).trans (finishCleanup_grows _)).trans (startServer_grows _ o)).trans (.of_eq rfl rfl rfl)

private theorem retryHandler_grows (a : ServerApp) (o : Openings) : Grows a (a.retryHandler o) := by
  have hinit := initServer_grows { (a.assert a.timer.isSome).stopRetryTimer with serverState := .uninitialized } o
  have hopen : Grows a { (a.assert a.timer.isSome).stopRetryTimer with serverState := .uninitialized } :=
    .of_eq rfl rfl rfl
  unfold retryHandler
  simp only
  split
  · exact hopen.trans hinit
  · generalize { (a.assert a.timer.isSome).stopRetryTimer with serverState := .uninitialized }.initServer o = r at hinit
    obtain ⟨isOpen, t⟩ := r
    cases isOpen with
    | false => exact hopen.trans hinit
    | true =>
      simp only
      split
      · exact (hopen.trans hinit).trans (startServer_grows t o)
      · exact hopen.trans hinit
  · have hopen : Grows a { (a.assert a.timer.isSome).stopRetryTimer with serverState := .initialized } :=
      .of_eq rfl rfl rfl
    exact hopen.trans (startServer_grows _ o)
  · exact .of_eq rfl rfl rfl

private theorem Doubled.grows {n : Nat} (h : Doubled n a) (hg : Grows a t) : Doubled n t := by
  refine ⟨h.1.trans_le hg.created, ?_⟩
  rw [hg.loops]
  exact h.2.trans (Nat.add_le_add_right (hg.deletions n) _)

private theorem Doubled.stopServer {n : Nat} (h : Doubled n a) (rest : AfterStop) : Doubled n (a.stopServer rest) := by
  unfold ServerApp.stopServer
  split
  · refine ⟨h.1, h.2.trans (Nat.add_le_add_left ?_ _)⟩
    exact List.count_le_count_cons
  · exact h.grows ((stopIdle_grows a).trans (afterStop_grows _ rest))

/-- A call of `closeServer` that returns deletes its server. -/
private theorem Doubled.handleQuit {n : Nat} (h : Doubled n a) : Doubled n a.handleQuit := by
  unfold ServerApp.handleQuit
  split
  · exact h.stopServer .cleanup
  · rename_i loop loops hloops
    have hdelete : Doubled n ({ a with loops := loops }.delete (some loop.server)) := by
      refine ⟨h.1, h.2.trans ?_⟩
      rw [hloops, List.map_cons, List.count_cons]
      simp only [delete, Function.update_apply]
      by_cases hn : n = loop.server
      · simp only [hn, BEq.rfl, if_true]
        omega
      · have hne : (loop.server == n) = false := by simpa using fun heq => hn heq.symm
        simp [hn, hne]
    exact hdelete.grows ((finishStop_grows _ loop.server).trans (afterStop_grows _ loop.rest))

theorem Doubled.step {n : Nat} (h : Doubled n a) (ev : ServerAppEvent) : Doubled n (a.step ev) := by
  unfold ServerApp.step
  split
  · exact h
  split
  · cases ev with
    | startNode o => exact h.grows ((startServer_grows a o).trans (.of_eq rfl rfl rfl))
    | _ => exact h
  · cases ev with
    | startNode o => exact h
    | suspend =>
      simp only [ServerApp.handleSuspend]
      split
      · exact h
      · exact h.stopServer .suspend
    | resume o =>
      simp only [ServerApp.handleResume]
      split
      · exact h.grows ((startServer_grows a o).trans (.of_eq rfl rfl rfl))
      · exact h
    | reset o => exact h.stopServer (.reset o)
    | retry o =>
      simp only
      split
      · exact h.grows (retryHandler_grows a o)
      · exact h
    | quit => exact h.handleQuit

private theorem Doubled.not_sound {n : Nat} (h : Doubled n a) (hloops : a.loops = []) : ¬ a.Sound := by
  intro hsound
  obtain ⟨hbound, htwo⟩ := h
  rw [hloops] at htwo
  rcases hsound.deletedOnce n hbound with ⟨-, hzero⟩ | ⟨-, hone⟩
  · rw [hzero] at htwo
    cases htwo
  · rw [hone] at htwo
    exact absurd htwo (Nat.not_succ_le_self 1)

/-- Once two calls are under way, the run is not sound when they have returned. -/
private theorem not_always_sound_of_doubled {n : Nat} (h : Doubled n a) (events : List ServerAppEvent)
    (hloops : (events.foldl step a).loops = []) : ¬ (a.Sound ∧ Always Sound (runTrace step a events)) := by
  induction events generalizing a with
  | nil => exact fun hall => h.not_sound hloops hall.1
  | cons ev events ih =>
    rintro ⟨-, hall⟩
    rw [runTrace, always_cons] at hall
    exact ih (h.step ev) hloops hall

/-- Along every orderly run the application is sound, and a run that is not orderly is not sound
once the calls of `closeServer` in it have returned. -/
theorem always_sound_iff (events : List ServerAppEvent) :
    (EachStep Orderly initial (runTrace step initial events) → Always Sound (runTrace step initial events)) ∧
      ((events.foldl step initial).loops = [] → Always Sound (runTrace step initial events) →
        EachStep Orderly initial (runTrace step initial events)) := by
  have hkept := kept_initial
  generalize initial = a at hkept
  induction events generalizing a with
  | nil => exact ⟨fun _ => always_nil Sound, fun _ _ => trivial⟩
  | cons ev events ih =>
    obtain ⟨hgood, hbad⟩ := hkept.step ev
    rw [runTrace, always_cons, List.foldl_cons]
    constructor
    · rintro ⟨hok, hrest⟩
      have hnext := hgood hok
      exact ⟨hnext.sound, (ih _ hnext).1 hrest⟩
    · rintro hloops ⟨hsound, hall⟩
      cases hok : a.orderly ev with
      | true => exact ⟨hok, (ih _ (hgood hok)).2 hloops hall⟩
      | false =>
        rcases hbad hok with hnot | ⟨n, hdouble⟩
        · exact absurd hsound hnot
        · exact absurd ⟨hsound, hall⟩ (not_always_sound_of_doubled hdouble events hloops)

def allOpen : Openings := ⟨none, none, none, none⟩

/-- The server is suspended, resumed, reset and stopped. -/
theorem always_sound_orderly : Always Sound (runTrace step initial
    [.startNode allOpen, .suspend, .quit, .resume allOpen, .reset allOpen, .quit, .quit, .quit]) :=
  (always_sound_iff [.startNode allOpen, .suspend, .quit, .resume allOpen, .reset allOpen, .quit, .quit, .quit]).1
    (by decide)

/-- The screen is suspended twice before the clients are gone: the server is deleted twice. -/
theorem not_sound_nested : ¬ ∀ events : List ServerAppEvent, Always Sound (runTrace step initial events) := by
  intro h
  have hall := h [.startNode allOpen, .suspend, .suspend, .quit, .quit]
  simp only [runTrace, always_cons] at hall
  have hserver := hall.2.2.2.2.1.deletedOnce 3 (by decide)
  revert hserver
  decide

end ServerApp
end Synergy
