import Mathlib.Data.Rat.Defs
import Mathlib.Tactic.NormNum
import Synergy.Base.Text
import Synergy.Lib.Trace

/-! The watchdog of the core process on Windows: the stretches of its main loop that run under the lock of the process
state, and changes of the configuration between them. Times are exact. In its runs the process follows the latest
configuration, and it is said when an exception leaves the main loop. -/
namespace Synergy.Watchdog

inductive ProcessState where
  | idle | startScheduled | startPending | stopPending | running
  deriving DecidableEq

/-- The object of a process, with the command and elevation it was made for, and whether the system has created it. -/
structure Process where
  command : Str
  elevated : Bool
  created : Bool
  deriving DecidableEq

/-- Where the main loop is: before its first action, at the lock, in the wait for a new process to settle, at its end,
or left by an exception. -/
inductive LoopPoint where
  | entry
  | locking
  | settling (generation : Nat)
  | finished
  | escaped
  deriving DecidableEq

/-- The data of the watchdog. `creations` counts the processes that the system has created. -/
structure MSWindowsWatchdog where
  foreground : Bool
  loop : LoopPoint := .entry
  processState : ProcessState := .idle
  process : Option Process := none
  nextStartTime : Option ℚ := none
  startFailures : Nat := 0
  lastStartTime : ℚ := 0
  command : Str := []
  elevateProcess : Bool := false
  configGeneration : Nat := 0
  creations : Nat := 0
  deriving DecidableEq

/-- What the system does to `startProcess` with a command: no memory for the object, an exception after the object has
been made, a process that is not created, or one that is. -/
inductive StartOutcome where
  | noObject | throws | notCreated | created
  deriving DecidableEq

/-- What the system answers in a stretch of the loop. -/
structure Outcomes where
  now : ℚ
  sessionChanged : Bool
  start : StartOutcome
  stillActive : Bool
  shutdownThrows : Bool
  deriving DecidableEq

inductive Action where
  | setProcessConfig (command : Str) (elevate : Bool)
  | enter (shutdownThrows : Bool)
  | iterate (o : Outcomes)
  | settled (o : Outcomes)
  | exit (shutdownThrows : Bool)
  deriving DecidableEq

def kStableUptimeSeconds : ℚ := 10

namespace MSWindowsWatchdog

/-- The watchdog with the state that follows a failure. -/
def handleStartError (w : MSWindowsWatchdog) (now : ℚ) : MSWindowsWatchdog :=
  let startFailures := w.startFailures + 1
  if 1 < startFailures then
    let exponent := min (startFailures - 2) 6
    let delaySeconds := min (1 <<< exponent) 60
    { w with
      startFailures := startFailures
      nextStartTime := some (now + (delaySeconds : Nat))
      processState := .startScheduled }
  else { w with startFailures := startFailures, nextStartTime := none, processState := .startPending }

def isProcessRunning (w : MSWindowsWatchdog) (o : Outcomes) : Bool := w.process.isSome && o.stillActive

/-- The watchdog after `startProcess`, and whether it has returned. -/
def startProcess (w : MSWindowsWatchdog) (o : Outcomes) : MSWindowsWatchdog × Bool :=
  if w.command.isEmpty then (w, false)
  else
    let process : Process := ⟨w.command, w.elevateProcess, false⟩
    match o.start with
    | .noObject => ({ w with process := none }, false)
    | .throws => ({ w with process := some process }, false)
    | .notCreated => ({ w with process := none }, false)
    | .created =>
      ({ w with process := some { process with created := true }, creations := w.creations + 1 }, true)

def setProcessConfig (w : MSWindowsWatchdog) (command : Str) (elevate : Bool) : MSWindowsWatchdog :=
  let w := { w with configGeneration := w.configGeneration + 1, command := command, elevateProcess := elevate }
  if command.isEmpty then { w with processState := .stopPending }
  else { w with processState := .startPending, nextStartTime := none }

/-- A process that does not belong to the session any more is started anew. -/
def checkSession (w : MSWindowsWatchdog) (o : Outcomes) : MSWindowsWatchdog :=
  if w.processState = .running ∧ ¬w.command.isEmpty ∧ ¬w.foreground ∧ o.sessionChanged then
    { w with processState := .startPending, nextStartTime := none }
  else w

/-- What the loop does in each state, up to the next lock or the wait for a new process to settle. -/
def dispatch (w : MSWindowsWatchdog) (o : Outcomes) : MSWindowsWatchdog :=
  match w.processState with
  | .idle => w
  | .startScheduled => if w.nextStartTime.any (· ≤ o.now) then { w with processState := .startPending } else w
  | .startPending =>
    let generation := w.configGeneration
    let (w, returned) := w.startProcess o
    if returned then { w with loop := .settling generation } else w.handleStartError o.now
  | .running =>
    if w.isProcessRunning o then w
    else
      let w := if kStableUptimeSeconds ≤ o.now - w.lastStartTime then { w with startFailures := 0 } else w
      w.handleStartError o.now
  | .stopPending =>
    let w := { w with process := none }
    if o.shutdownThrows then { w with loop := .escaped } else { w with processState := .idle }

def iterate (w : MSWindowsWatchdog) (o : Outcomes) : MSWindowsWatchdog := (w.checkSession o).dispatch o

/-- The rest of a start after the process has settled. -/
def settled (w : MSWindowsWatchdog) (generation : Nat) (o : Outcomes) : MSWindowsWatchdog :=
  let w := { w with loop := .locking }
  if generation ≠ w.configGeneration ∨ w.processState ≠ .startPending then w
  else if w.isProcessRunning o then { w with lastStartTime := o.now, processState := .running }
  else { w with process := none }.handleStartError o.now

/-- The end of the loop when the watchdog has been stopped. -/
def exit (w : MSWindowsWatchdog) (shutdownThrows : Bool) : MSWindowsWatchdog :=
  { w with process := none, loop := if shutdownThrows then .escaped else .finished }

end MSWindowsWatchdog

/-- The first call that may throw is guarded, so nothing comes of it. -/
def step (w : MSWindowsWatchdog) : Action → Option MSWindowsWatchdog
  | .setProcessConfig command elevate => some (w.setProcessConfig command elevate)
  | .enter _ => if w.loop = .entry then some { w with loop := .locking } else none
  | .iterate o => if w.loop = .locking then some (w.iterate o) else none
  | .settled o =>
    match w.loop with
    | .settling generation => some (w.settled generation o)
    | _ => none
  | .exit shutdownThrows => if w.loop = .locking then some (w.exit shutdownThrows) else none

/-! ### What holds between steps -/

open Lib ProcessState
variable {w w' : MSWindowsWatchdog} {a : Action} {o : Outcomes}

/-- The process has been created for the configuration. -/
def Started (w : MSWindowsWatchdog) : Prop := w.process = some ⟨w.command, w.elevateProcess, true⟩

instance (w : MSWindowsWatchdog) : Decidable (Started w) := inferInstanceAs (Decidable (_ = _))

/-- What the state of the process says, until the loop has come to its end. -/
structure Sound (w : MSWindowsWatchdog) : Prop where
  running : w.processState = .running → w.loop ≠ .finished → w.loop ≠ .escaped → Started w
  idle : w.processState = .idle → w.process = none
  scheduled : w.processState = .startScheduled → w.nextStartTime.isSome = true
  stopped : w.command = [] → w.processState = .idle ∨ w.processState = .stopPending
  settling : w.loop = .settling w.configGeneration → w.processState = .startPending ∧ Started w
  generation : ∀ generation, w.loop = .settling generation → generation ≤ w.configGeneration

/-- A step changes the configuration only as it is told, creates processes only for a command, and schedules a start for
a minute after the failure at the latest. -/
structure Follows (w : MSWindowsWatchdog) (a : Action) (w' : MSWindowsWatchdog) : Prop where
  config : (w'.command, w'.elevateProcess) =
    match a with
    | .setProcessConfig command elevate => (command, elevate)
    | _ => (w.command, w.elevateProcess)
  creations : w'.creations ≠ w.creations → w.command ≠ []
  schedule : w'.processState = .startScheduled → w.processState = .startScheduled ∧ w'.nextStartTime = w.nextStartTime ∨
    ∃ o, (a = .iterate o ∨ a = .settled o) ∧ ∃ time, w'.nextStartTime = some time ∧ time ≤ o.now + 60

/-- A call that may throw and is not guarded. -/
def Throws (w : MSWindowsWatchdog) : Action → Prop
  | .iterate o => w.processState = .stopPending ∧ o.shutdownThrows = true
  | .exit shutdownThrows => shutdownThrows = true
  | _ => False

/-! ### Failures -/

/-- What a failure changes. -/
private theorem handleStartError_spec (w : MSWindowsWatchdog) (now : ℚ) :
    ∃ failures state time, w.handleStartError now =
        { w with startFailures := failures, processState := state, nextStartTime := time } ∧
      (state = .startPending ∧ time = none ∨ state = .startScheduled ∧ ∃ t, time = some t ∧ t ≤ now + 60) := by
  rw [MSWindowsWatchdog.handleStartError]
  dsimp only
  split_ifs
  · refine ⟨_, _, _, rfl, Or.inr ⟨rfl, _, rfl, ?_⟩⟩
    have hdelay : ((min (1 <<< min (w.startFailures + 1 - 2) 6) 60 : Nat) : ℚ) ≤ 60 := by
      exact_mod_cast min_le_right _ _
    exact add_le_add_right hdelay now
  · exact ⟨_, _, _, rfl, Or.inl ⟨rfl, rfl⟩⟩

private theorem sound_handleStartError {now : ℚ} (hcommand : w.command ≠ [])
    (hloop : ∀ generation, w.loop ≠ .settling generation) : Sound (w.handleStartError now) := by
  obtain ⟨failures, state, time, heq, hstate⟩ := handleStartError_spec w now
  rw [heq]
  rcases hstate with ⟨rfl, rfl⟩ | ⟨rfl, t, rfl, -⟩
  · exact ⟨nofun, nofun, nofun, fun h => absurd h hcommand, fun h => absurd h (hloop _), fun _ h => absurd h (hloop _)⟩
  · exact ⟨nofun, nofun, fun _ => rfl, fun h => absurd h hcommand, fun h => absurd h (hloop _),
      fun _ h => absurd h (hloop _)⟩

/-- What starting a process changes. -/
private theorem startProcess_spec (w : MSWindowsWatchdog) (o : Outcomes) :
    ∃ process creations, (w.startProcess o).1 = { w with process := process, creations := creations } ∧
      (creations ≠ w.creations → w.command ≠ []) ∧
      ((w.startProcess o).2 = true → process = some ⟨w.command, w.elevateProcess, true⟩) := by
  rw [MSWindowsWatchdog.startProcess]
  split_ifs with hempty
  · exact ⟨w.process, w.creations, rfl, fun h => absurd rfl h, nofun⟩
  · have hcommand : w.command ≠ [] := fun h => hempty (List.isEmpty_iff.mpr h)
    cases o.start with
    | noObject => exact ⟨_, w.creations, rfl, fun _ => hcommand, nofun⟩
    | throws => exact ⟨_, w.creations, rfl, fun _ => hcommand, nofun⟩
    | notCreated => exact ⟨_, w.creations, rfl, fun _ => hcommand, nofun⟩
    | created => exact ⟨_, _, rfl, fun _ => hcommand, fun _ => rfl⟩

/-! ### Steps -/

/-- What a step that keeps the configuration leaves. -/
private structure Keeps (w w' : MSWindowsWatchdog) (now : ℚ) : Prop where
  sound : Sound w'
  command : w'.command = w.command
  elevate : w'.elevateProcess = w.elevateProcess
  creations : w'.creations ≠ w.creations → w.command ≠ []
  schedule : w'.processState = .startScheduled → w.processState = .startScheduled ∧ w'.nextStartTime = w.nextStartTime ∨
    ∃ time, w'.nextStartTime = some time ∧ time ≤ now + 60

private theorem Keeps.handleStartError {v : MSWindowsWatchdog} {now : ℚ} (hcommand : w.command ≠ [])
    (hloop : ∀ generation, v.loop ≠ .settling generation) (hc : v.command = w.command)
    (he : v.elevateProcess = w.elevateProcess) : Keeps w (v.handleStartError now) now := by
  have hsound : Sound (v.handleStartError now) := sound_handleStartError (hc ▸ hcommand) hloop
  obtain ⟨failures, state, time, heq, hstate⟩ := handleStartError_spec v now
  rw [heq] at hsound ⊢
  refine ⟨hsound, hc, he, fun _ => hcommand, fun hscheduled => Or.inr ?_⟩
  rcases hstate with ⟨rfl, -⟩ | ⟨-, htime⟩
  · cases hscheduled
  · exact htime

private theorem sound_setProcessConfig (h : Sound w) (command : Str) (elevate : Bool) :
    Sound (w.setProcessConfig command elevate) := by
  have hsettling (hloop : w.loop = .settling (w.configGeneration + 1)) : False :=
    absurd (h.generation _ hloop) (Nat.not_succ_le_self _)
  rw [MSWindowsWatchdog.setProcessConfig]
  dsimp only
  split_ifs with hempty
  · exact ⟨nofun, nofun, nofun, fun _ => Or.inr rfl, fun hloop => (hsettling hloop).elim,
      fun g hg => (h.generation g hg).trans (Nat.le_succ _)⟩
  · exact ⟨nofun, nofun, nofun, fun hnone => absurd (List.isEmpty_iff.mpr hnone) hempty,
      fun hloop => (hsettling hloop).elim, fun g hg => (h.generation g hg).trans (Nat.le_succ _)⟩

private theorem sound_locking (h : Sound w) (hfinished : w.loop ≠ .finished) (hescaped : w.loop ≠ .escaped) :
    Sound { w with loop := .locking } :=
  ⟨fun hrunning _ _ => h.running hrunning hfinished hescaped, h.idle, h.scheduled, h.stopped, nofun, nofun⟩

private theorem checkSession_spec (h : Sound w) (o : Outcomes) :
    Sound (w.checkSession o) ∧ (w.checkSession o).loop = w.loop ∧ (w.checkSession o).command = w.command ∧
      (w.checkSession o).elevateProcess = w.elevateProcess ∧ (w.checkSession o).creations = w.creations ∧
      ((w.checkSession o).processState = .startScheduled →
        w.processState = .startScheduled ∧ (w.checkSession o).nextStartTime = w.nextStartTime) ∧
      ((w.checkSession o).processState = .stopPending ↔ w.processState = .stopPending) := by
  rw [MSWindowsWatchdog.checkSession]
  split_ifs with hchanged
  · obtain ⟨hrunning, hcommand, -⟩ := hchanged
    refine ⟨⟨nofun, nofun, nofun, fun hnone => absurd (List.isEmpty_iff.mpr hnone) hcommand, fun hloop => ?_,
        h.generation⟩,
      rfl, rfl, rfl, rfl, nofun, nofun, fun hstop => ?_⟩
    · exact absurd ((h.settling hloop).1.symm.trans hrunning) (by decide)
    · rw [hrunning] at hstop
      cases hstop
  · exact ⟨h, rfl, rfl, rfl, rfl, fun hstate => ⟨hstate, rfl⟩, Iff.rfl⟩

private theorem dispatch_spec (h : Sound w) (hloop : w.loop = .locking) (o : Outcomes) :
    Keeps w (w.dispatch o) o.now := by
  have hnot (generation : Nat) : w.loop ≠ .settling generation := by
    rw [hloop]
    nofun
  have hcommand (hidle : w.processState ≠ .idle) (hstop : w.processState ≠ .stopPending) : w.command ≠ [] :=
    fun hnone => (h.stopped hnone).elim hidle hstop
  have hsame : Keeps w w o.now :=
    ⟨h, rfl, rfl, fun hne => absurd rfl hne, fun hstate => Or.inl ⟨hstate, rfl⟩⟩
  rw [MSWindowsWatchdog.dispatch]
  cases hstate : w.processState with
  | idle => exact hsame
  | startScheduled =>
    have hcommand := hcommand (by rw [hstate]; decide) (by rw [hstate]; decide)
    dsimp only
    split_ifs
    · exact ⟨⟨nofun, nofun, nofun, fun hnone => absurd hnone hcommand, fun hsettling => absurd hsettling (hnot _),
        h.generation⟩, rfl, rfl, fun hne => absurd rfl hne, nofun⟩
    · exact hsame
  | startPending =>
    have hcommand := hcommand (by rw [hstate]; decide) (by rw [hstate]; decide)
    obtain ⟨process, creations, heq, -, hstarted⟩ := startProcess_spec w o
    dsimp only
    rw [heq]
    split_ifs with hreturned
    · refine ⟨⟨fun hrunning _ _ => ?_, fun hidle => ?_, fun hscheduled => ?_, fun hnone => absurd hnone hcommand,
        fun _ =>
        ⟨hstate, hstarted hreturned⟩, fun g hg => ?_⟩, rfl, rfl, fun _ => hcommand, fun hscheduled => ?_⟩
      · exact absurd (hstate.symm.trans hrunning) (by decide)
      · exact absurd (hstate.symm.trans hidle) (by decide)
      · exact absurd (hstate.symm.trans hscheduled) (by decide)
      · cases hg
        exact Nat.le_refl _
      · exact absurd (hstate.symm.trans hscheduled) (by decide)
    · exact Keeps.handleStartError hcommand hnot rfl rfl
  | running =>
    have hcommand := hcommand (by rw [hstate]; decide) (by rw [hstate]; decide)
    dsimp only
    split_ifs
    · exact hsame
    · exact Keeps.handleStartError hcommand hnot rfl rfl
    · exact Keeps.handleStartError hcommand hnot rfl rfl
  | stopPending =>
    dsimp only
    split_ifs
    · exact ⟨⟨nofun, fun _ => rfl, nofun, fun _ => Or.inr rfl, nofun, nofun⟩, rfl, rfl, fun hne => absurd rfl hne,
        nofun⟩
    · exact ⟨⟨nofun, fun _ => rfl, nofun, fun _ => Or.inl rfl, fun hsettling => absurd hsettling (hnot _),
        h.generation⟩,
        rfl, rfl, fun hne => absurd rfl hne, nofun⟩

private theorem settled_spec (h : Sound w) {generation : Nat} (hloop : w.loop = .settling generation) (o : Outcomes) :
    Keeps w (w.settled generation o) o.now := by
  rw [MSWindowsWatchdog.settled]
  dsimp only
  split_ifs with hchanged hrunning
  · exact ⟨sound_locking h (by rw [hloop]; nofun) (by rw [hloop]; nofun), rfl, rfl, fun hne => absurd rfl hne,
      fun hstate => Or.inl ⟨hstate, rfl⟩⟩
  · obtain ⟨rfl, -⟩ := not_or.mp hchanged |>.imp not_not.mp id
    obtain ⟨hstate, hstarted⟩ := h.settling hloop
    refine ⟨⟨fun _ _ _ => hstarted, nofun, nofun, fun hnone => ?_, nofun, nofun⟩, rfl, rfl,
        fun hne => absurd rfl hne, nofun⟩
    rcases h.stopped hnone with hidle | hstop
    · exact absurd (hstate.symm.trans hidle) (by decide)
    · exact absurd (hstate.symm.trans hstop) (by decide)
  · obtain ⟨rfl, -⟩ := not_or.mp hchanged |>.imp not_not.mp id
    obtain ⟨hstate, -⟩ := h.settling hloop
    refine Keeps.handleStartError (fun hnone => ?_) nofun rfl rfl
    rcases h.stopped hnone with hidle | hstop
    · exact absurd (hstate.symm.trans hidle) (by decide)
    · exact absurd (hstate.symm.trans hstop) (by decide)

/-- Every step keeps what the state of the process says, and does what the configuration tells. -/
theorem sound_step (h : Sound w) (hstep : step w a = some w') : Sound w' ∧ Follows w a w' := by
  cases a with
  | setProcessConfig command elevate =>
    obtain rfl := Option.some.inj hstep
    refine ⟨sound_setProcessConfig h command elevate, ?_, ?_, ?_⟩
    all_goals
      rw [MSWindowsWatchdog.setProcessConfig]
      dsimp only
      split_ifs
    · rfl
    · rfl
    · exact fun hne => absurd rfl hne
    · exact fun hne => absurd rfl hne
    · nofun
    · nofun
  | enter shutdownThrows =>
    rw [step] at hstep
    split_ifs at hstep with hloop
    obtain rfl := Option.some.inj hstep
    exact ⟨sound_locking h (by rw [hloop]; nofun) (by rw [hloop]; nofun), rfl, fun hne => absurd rfl hne,
        fun hstate => Or.inl ⟨hstate, rfl⟩⟩
  | iterate o =>
    rw [step] at hstep
    split_ifs at hstep with hloop
    obtain rfl := Option.some.inj hstep
    obtain ⟨hsound, hsame, hcommand, helevate, hcreations, hscheduled, -⟩ := checkSession_spec h o
    have hkeeps := dispatch_spec hsound (hsame.trans hloop) o
    refine ⟨hkeeps.sound, ?_, fun hne => ?_, fun hstate => ?_⟩
    · exact Prod.ext (hkeeps.command.trans hcommand) (hkeeps.elevate.trans helevate)
    · exact hcommand ▸ hkeeps.creations (hcreations ▸ hne)
    · rcases hkeeps.schedule hstate with ⟨hbefore, htime⟩ | htime
      · obtain ⟨hstate', htime'⟩ := hscheduled hbefore
        exact Or.inl ⟨hstate', htime.trans htime'⟩
      · exact Or.inr ⟨o, Or.inl rfl, htime⟩
  | settled o =>
    rw [step] at hstep
    cases hloop : w.loop with
    | settling generation =>
      simp only [hloop] at hstep
      obtain rfl := Option.some.inj hstep
      have hkeeps := settled_spec h hloop o
      exact ⟨hkeeps.sound, Prod.ext hkeeps.command hkeeps.elevate, hkeeps.creations, fun hstate =>
        (hkeeps.schedule hstate).imp id fun htime => ⟨o, Or.inr rfl, htime⟩⟩
    | _ =>
      simp only [hloop, reduceCtorEq] at hstep
  | exit shutdownThrows =>
    rw [step] at hstep
    split_ifs at hstep
    obtain rfl := Option.some.inj hstep
    refine ⟨⟨fun _ hfinished hescaped => ?_, fun _ => rfl, h.scheduled, h.stopped, fun hloop => ?_,
        fun g hloop => ?_⟩, rfl,
      fun hne => absurd rfl hne, fun hstate => Or.inl ⟨hstate, rfl⟩⟩
    all_goals cases shutdownThrows
    · exact absurd rfl hfinished
    · exact absurd rfl hescaped
    all_goals cases hloop

private theorem loop_dispatch (hloop : w.loop = .locking) (o : Outcomes) :
    (w.dispatch o).loop = .escaped ↔ w.processState = .stopPending ∧ o.shutdownThrows = true := by
  have hsame : w.loop ≠ .escaped := by
    rw [hloop]
    nofun
  have herror {v : MSWindowsWatchdog} (hv : v.loop = w.loop) (now : ℚ) : (v.handleStartError now).loop ≠ .escaped := by
    obtain ⟨failures, state, time, heq, -⟩ := handleStartError_spec v now
    rw [heq]
    exact hv ▸ hsame
  rw [MSWindowsWatchdog.dispatch]
  cases hstate : w.processState with
  | idle => exact iff_of_false hsame (by rintro ⟨h, -⟩; cases h)
  | startScheduled =>
    dsimp only
    split_ifs
    · exact iff_of_false hsame (by rintro ⟨h, -⟩; cases h)
    · exact iff_of_false hsame (by rintro ⟨h, -⟩; cases h)
  | startPending =>
    obtain ⟨process, creations, heq, -⟩ := startProcess_spec w o
    dsimp only
    rw [heq]
    split_ifs
    · exact iff_of_false nofun (by rintro ⟨h, -⟩; cases h)
    · exact iff_of_false (herror (by rfl) _) (by rintro ⟨h, -⟩; cases h)
  | running =>
    dsimp only
    split_ifs
    · exact iff_of_false hsame (by rintro ⟨h, -⟩; cases h)
    · exact iff_of_false (herror (by rfl) _) (by rintro ⟨h, -⟩; cases h)
    · exact iff_of_false (herror (by rfl) _) (by rintro ⟨h, -⟩; cases h)
  | stopPending =>
    dsimp only
    split_ifs with hthrows
    · exact iff_of_true rfl ⟨rfl, hthrows⟩
    · exact iff_of_false hsame fun h => hthrows h.2

/-- An exception leaves the loop exactly from the calls that are not guarded. -/
theorem escaped_iff (hw : w.loop ≠ .escaped) (h : Sound w) (hstep : step w a = some w') :
    w'.loop = .escaped ↔ Throws w a := by
  cases a with
  | setProcessConfig command elevate =>
    obtain rfl := Option.some.inj hstep
    rw [MSWindowsWatchdog.setProcessConfig]
    dsimp only
    split_ifs
    · exact iff_of_false hw id
    · exact iff_of_false hw id
  | enter shutdownThrows =>
    rw [step] at hstep
    split_ifs at hstep
    obtain rfl := Option.some.inj hstep
    exact iff_of_false nofun id
  | iterate o =>
    rw [step] at hstep
    split_ifs at hstep with hloop
    obtain rfl := Option.some.inj hstep
    obtain ⟨-, hsame, -, -, -, -, hstop⟩ := checkSession_spec h o
    exact (loop_dispatch (hsame.trans hloop) o).trans (and_congr_left fun _ => hstop)
  | settled o =>
    rw [step] at hstep
    cases hloop : w.loop with
    | settling generation =>
      simp only [hloop] at hstep
      obtain rfl := Option.some.inj hstep
      refine iff_of_false ?_ id
      rw [MSWindowsWatchdog.settled]
      dsimp only
      split_ifs
      · nofun
      · nofun
      · obtain ⟨failures, state, time, heq, -⟩ :=
          handleStartError_spec { w with loop := .locking, process := none } o.now
        rw [heq]
        nofun
    | _ => simp only [hloop, reduceCtorEq] at hstep
  | exit shutdownThrows =>
    rw [step] at hstep
    split_ifs at hstep
    obtain rfl := Option.some.inj hstep
    cases shutdownThrows with
    | false => exact iff_of_false nofun nofun
    | true => exact iff_of_true rfl rfl

/-! ### Runs -/

/-- The watchdog before its first action. -/
def init (foreground : Bool) : MSWindowsWatchdog := { foreground := foreground }

theorem sound_init (foreground : Bool) : Sound (init foreground) :=
  ⟨nofun, fun _ => rfl, nofun, fun _ => Or.inl rfl, nofun, nofun⟩

/-- In every run the process follows the configuration, and no exception leaves the main loop exactly if no call that is
not guarded throws. -/
theorem watchdog_follows (foreground : Bool) {tr : List (Action × MSWindowsWatchdog)}
    (h : Trace (fun w a w' => step w a = some w') (init foreground) tr) :
    Always Sound tr ∧ EachStep Follows (init foreground) tr ∧
      (Always (fun w => w.loop ≠ .escaped) tr ↔ EachStep (fun w a _ => ¬Throws w a) (init foreground) tr) := by
  have hguard : EachStep (fun _ _ _ => True) (init foreground) tr := h.eachStep.imp fun _ _ _ _ => trivial
  have hsound := h.always Sound (fun _ _ _ hs _ hstep => (sound_step hs hstep).1) (sound_init foreground) hguard
  refine ⟨hsound, ?_, ?_⟩
  · exact h.each Sound (fun _ _ _ hs _ hstep => (sound_step hs hstep).2)
      (fun _ _ _ hs _ hstep => (sound_step hs hstep).1)
      (sound_init foreground) hguard
  · rw [← eachStep_state_iff]
    refine (h.eachStep_iff (fun w => w.loop ≠ .escaped ∧ Sound w) ?_ ?_ ⟨nofun, sound_init foreground⟩).symm
    · exact fun w a w' hw hstep => not_congr (escaped_iff hw.1 hw.2 hstep).symm
    · exact fun w a w' hw hstep hthrows =>
        ⟨fun hescaped => hthrows ((escaped_iff hw.1 hw.2 hstep).mp hescaped), (sound_step hw.2 hstep).1⟩

/-- The states that actions lead to one after the other. -/
def run (w : MSWindowsWatchdog) : List Action → Option (List (Action × MSWindowsWatchdog))
  | [] => some []
  | a :: as => (step w a).bind fun w' => (run w' as).map ((a, w') :: ·)

theorem trace_run {as : List Action} {tr : List (Action × MSWindowsWatchdog)} (h : run w as = some tr) :
    Trace (fun w a w' => step w a = some w') w tr := by
  induction as generalizing w tr with
  | nil =>
    obtain rfl := Option.some.inj h
    exact .nil w
  | cons a as ih =>
    rw [run] at h
    obtain ⟨w', hstep, htail⟩ := Option.bind_eq_some_iff.mp h
    obtain ⟨rest, hrest, rfl⟩ := Option.map_eq_some_iff.mp htail
    exact .cons hstep (ih hrest)

/-- What the system answers to a start that goes well. -/
def answers (shutdownThrows : Bool) : Outcomes := ⟨0, false, .created, true, shutdownThrows⟩

/-- The command is cleared while the process settles. -/
theorem watchdog_follows_cleared : ∃ tr, run (init false) [.enter true, .setProcessConfig ['a'] false,
    .iterate (answers false), .setProcessConfig [] false, .settled (answers false)] = some tr ∧
      Always (fun w => w.loop ≠ .escaped) tr := by
  refine ⟨_, rfl, ?_⟩
  apply (watchdog_follows false (trace_run (show run (init false) [.enter true, .setProcessConfig ['a'] false,
    .iterate (answers false), .setProcessConfig [] false, .settled (answers false)] = some _ from rfl))).2.2.mpr
  exact ⟨id, id, (by rintro ⟨h, -⟩; cases h), id, id, trivial⟩

/-- The command has been cleared, and the list of the processes cannot be had. -/
theorem stop_escapes : ∃ tr, Trace (fun w a w' => step w a = some w') (init false) tr ∧
    ¬Always (fun w => w.loop ≠ .escaped) tr := by
  have htrace := trace_run (show run (init false) [.enter false, .setProcessConfig [] false, .iterate (answers true)] =
    some _ from rfl)
  exact ⟨_, htrace, fun h => h _ (.tail _ (.tail _ (.head _))) rfl⟩

end Synergy.Watchdog
