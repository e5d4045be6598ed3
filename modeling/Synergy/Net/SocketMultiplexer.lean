import Mathlib.Data.List.Basic
import Mathlib.Data.List.Perm.Basic
import Synergy.Lib.Trace

/-! The socket multiplexer: a thread that polls the sockets and runs their jobs from a
snapshot, without the lock, while other threads add and remove sockets. A step is one
section under the lock, the poll or one run of a job. -/
namespace Synergy

abbrev ISocket := Nat

/-- A job object; the objects are numbered as they are made. -/
abbrev Job := Nat

structure SocketJobEntry where
  socket : ISocket
  job : Job
  deriving DecidableEq, Repr

/-- The result of a job: the same job, a new one, or none. -/
structure JobTransition where
  socket : ISocket
  previousJob : Job
  nextJob : Option Job
  deriving DecidableEq, Repr

/-- Where the service thread is: waiting for jobs, at the poll with its snapshot, or
running it. -/
inductive ServiceThread
  | waiting
  | polling (snapshot : List SocketJobEntry)
  | running (passed rest : List SocketJobEntry) (transitions : List JobTransition)
  deriving DecidableEq, Repr

/-- What a job returns when it is run, or that it throws. -/
inductive RunResult
  | same
  | fresh
  | null
  | thrown
  deriving DecidableEq, Repr

/-- The state under the lock, the service thread, the number of job objects made and
those that have been deleted. -/
structure SocketMultiplexer where
  jobs : List SocketJobEntry := []
  pendingRemovals : List ISocket := []
  retiredJobs : List Job := []
  jobsReady : Bool := false
  thread : ServiceThread := .waiting
  made : Job := 0
  deleted : List Job := []
  deriving DecidableEq, Repr

namespace SocketMultiplexer

/-- The first entry that satisfies `p` becomes what `change` makes of it. -/
def changeFirst (p : SocketJobEntry → Bool) (change : SocketJobEntry → Option SocketJobEntry) :
    List SocketJobEntry → List SocketJobEntry
  | [] => []
  | entry :: jobs => if p entry then (change entry).toList ++ jobs else entry :: changeFirst p change jobs

def addSocket (m : SocketMultiplexer) (socket : ISocket) (job : Job) : SocketMultiplexer :=
  let m := { m with pendingRemovals := m.pendingRemovals.filter (· ≠ socket) }
  match m.jobs.find? (·.socket = socket) with
  | some entry =>
    if entry.job ≠ job then
      { m with
        retiredJobs := m.retiredJobs ++ [entry.job]
        jobs := changeFirst (·.socket = socket) (fun entry => some { entry with job := job }) m.jobs }
    else m
  | none => { m with jobs := m.jobs ++ [⟨socket, job⟩], jobsReady := true }

def removeSocket (m : SocketMultiplexer) (socket : ISocket) : SocketMultiplexer :=
  if m.jobs.any (·.socket = socket) then { m with pendingRemovals := m.pendingRemovals ++ [socket] } else m

/-- The entries that are not to be removed. -/
def buildJobSnapshot (m : SocketMultiplexer) : List SocketJobEntry :=
  m.jobs.filter fun entry => !m.pendingRemovals.contains entry.socket

/-- A job that has been replaced is deleted; a new job that is not installed, too. -/
def applyTransition (m : SocketMultiplexer) (t : JobTransition) : SocketMultiplexer :=
  let matched := fun entry : SocketJobEntry => decide (entry.socket = t.socket ∧ entry.job = t.previousJob)
  if m.jobs.any matched then
    if t.nextJob ≠ some t.previousJob then
      { m with
        deleted := t.previousJob :: m.deleted
        jobs := changeFirst matched (fun entry => t.nextJob.map fun job => { entry with job := job }) m.jobs }
    else m
  else if t.nextJob ≠ some t.previousJob then { m with deleted := t.nextJob.toList ++ m.deleted }
  else m

/-- The entries of a socket are deleted with their jobs. -/
def removeEntries (m : SocketMultiplexer) (socket : ISocket) : SocketMultiplexer :=
  { m with
    deleted := (m.jobs.filter (·.socket = socket)).map SocketJobEntry.job ++ m.deleted
    jobs := m.jobs.filter (·.socket ≠ socket) }

def updateJobState (m : SocketMultiplexer) (transitions : List JobTransition) : SocketMultiplexer :=
  let m := transitions.foldl applyTransition m
  let m := { m.pendingRemovals.foldl removeEntries m with pendingRemovals := [] }
  { m with deleted := m.retiredJobs ++ m.deleted, retiredJobs := [], jobsReady := !m.jobs.isEmpty }

/-- The next job of an entry whose job has been run, and the number of jobs made by then. -/
def RunResult.newJob (entry : SocketJobEntry) (made : Job) : RunResult → Option Job × Job
  | .same => (some entry.job, made)
  | .fresh => (some made, made + 1)
  | .null | .thrown => (none, made)

/-- A step of any thread. The service thread builds a snapshot when there are jobs, polls
(nothing is run when the poll says nothing), runs job after job and updates the state. -/
inductive Action
  | addSocket (socket : ISocket)
  | removeSocket (socket : ISocket)
  | buildJobSnapshot
  | poll (status : Bool)
  | run (result : RunResult)
  | updateJobState
  deriving DecidableEq, Repr

def step (m : SocketMultiplexer) : Action → SocketMultiplexer
  | .addSocket socket => { m with made := m.made + 1 }.addSocket socket m.made
  | .removeSocket socket => m.removeSocket socket
  | .buildJobSnapshot =>
    match m.thread with
    | .waiting => if m.jobsReady then { m with thread := .polling m.buildJobSnapshot } else m
    | _ => m
  | .poll status =>
    match m.thread with
    | .polling snapshot =>
      { m with thread := if status then .running [] snapshot [] else .running snapshot [] [] }
    | _ => m
  | .run result =>
    match m.thread with
    | .running passed (entry :: rest) transitions =>
      let newJob := RunResult.newJob entry m.made result
      let transitions :=
        if newJob.1 ≠ some entry.job then transitions ++ [⟨entry.socket, entry.job, newJob.1⟩] else transitions
      { m with made := newJob.2, thread := .running (passed ++ [entry]) rest transitions }
    | _ => m
  | .updateJobState =>
    match m.thread with
    | .running _ [] transitions => { m.updateJobState transitions with thread := .waiting }
    | _ => m

/-- The entry whose job the step runs. -/
def runs (m : SocketMultiplexer) : Action → Option SocketJobEntry
  | .run _ =>
    match m.thread with
    | .running _ (entry :: _) _ => some entry
    | _ => none
  | _ => none

/-- The entries that the service thread still has to run from its snapshot. -/
def toRun (m : SocketMultiplexer) : List SocketJobEntry :=
  match m.thread with
  | .waiting => []
  | .polling snapshot => snapshot
  | .running _ rest _ => rest

/-- The snapshot that the service thread works through. -/
def snapshot (m : SocketMultiplexer) : List SocketJobEntry :=
  match m.thread with
  | .waiting => []
  | .polling snapshot => snapshot
  | .running passed rest _ => passed ++ rest

/-- The results that have not been applied yet. -/
def transitions (m : SocketMultiplexer) : List JobTransition :=
  match m.thread with
  | .running _ _ transitions => transitions
  | _ => []

end SocketMultiplexer
end Synergy

/-! When a socket that has been removed from the multiplexer is left alone: the removal is
seen by the next snapshot, not by the one that is being run. -/
namespace Synergy
open Lib

namespace SocketMultiplexer

/-- The step runs a job of the socket. -/
def Services (socket : ISocket) (m : SocketMultiplexer) (a : Action) : Prop := ∃ entry ∈ m.runs a, entry.socket = socket

/-- From here on no job of the socket is run until it is added again. -/
def LeftAlone (socket : ISocket) (m : SocketMultiplexer) : Prop :=
  ∀ actions : List Action, .addSocket socket ∉ actions →
    EachStep (fun m a _ => ¬ Services socket m a) m (runTrace step m actions)

/-- No job of the socket is in what remains of the snapshot, nor will one be in the next. -/
structure Gone (socket : ISocket) (m : SocketMultiplexer) : Prop where
  notRun : ∀ entry ∈ m.toRun, entry.socket ≠ socket
  removed : socket ∈ m.pendingRemovals ∨ ∀ entry ∈ m.jobs, entry.socket ≠ socket

variable {socket : ISocket} {m : SocketMultiplexer}

theorem mem_changeFirst {p : SocketJobEntry → Bool} {change : SocketJobEntry → Option SocketJobEntry}
    {jobs : List SocketJobEntry} {entry : SocketJobEntry} (h : entry ∈ changeFirst p change jobs) :
    entry ∈ jobs ∨ ∃ old ∈ jobs, p old = true ∧ entry ∈ change old := by
  induction jobs with
  | nil => exact .inl h
  | cons first jobs ih =>
    rw [changeFirst] at h
    split at h
    next hp =>
      rcases List.mem_append.mp h with h | h
      · exact .inr ⟨first, by simp, hp, Option.mem_toList.mp h⟩
      · exact .inl (List.mem_cons_of_mem _ h)
    · rcases List.mem_cons.mp h with rfl | h
      · exact .inl (by simp)
      · rcases ih h with h | ⟨old, hold, hp⟩
        · exact .inl (List.mem_cons_of_mem _ h)
        · exact .inr ⟨old, List.mem_cons_of_mem _ hold, hp⟩

@[simp] theorem applyTransition_pendingRemovals (m : SocketMultiplexer) (t : JobTransition) :
    (m.applyTransition t).pendingRemovals = m.pendingRemovals := by
  unfold applyTransition
  simp only
  split_ifs <;> rfl

theorem applyTransitions_pendingRemovals (m : SocketMultiplexer) (transitions : List JobTransition) :
    (transitions.foldl applyTransition m).pendingRemovals = m.pendingRemovals := by
  induction transitions generalizing m with
  | nil => rfl
  | cons t transitions ih => rw [List.foldl_cons, ih, applyTransition_pendingRemovals]

/-- A transition adds no socket. -/
theorem applyTransition_socket {t : JobTransition} {entry : SocketJobEntry} (h : entry ∈ (m.applyTransition t).jobs) :
    ∃ old ∈ m.jobs, old.socket = entry.socket := by
  unfold applyTransition at h
  simp only at h
  split_ifs at h
  · rcases mem_changeFirst h with h | ⟨old, hold, -, hchange⟩
    · exact ⟨entry, h, rfl⟩
    · obtain ⟨job, -, rfl⟩ := Option.map_eq_some_iff.mp hchange
      exact ⟨old, hold, rfl⟩
  all_goals exact ⟨entry, h, rfl⟩

theorem applyTransitions_socket {transitions : List JobTransition} {entry : SocketJobEntry}
    (h : entry ∈ (transitions.foldl applyTransition m).jobs) : ∃ old ∈ m.jobs, old.socket = entry.socket := by
  induction transitions generalizing m with
  | nil => exact ⟨entry, h, rfl⟩
  | cons t transitions ih =>
    obtain ⟨between, hbetween, heq⟩ := ih h
    obtain ⟨old, hold, heq'⟩ := applyTransition_socket hbetween
    exact ⟨old, hold, heq'.trans heq⟩

/-- Removals leave the entries of the other sockets. -/
theorem removals_jobs (m : SocketMultiplexer) (sockets : List ISocket) :
    (sockets.foldl removeEntries m).jobs = m.jobs.filter fun entry => !sockets.contains entry.socket := by
  induction sockets generalizing m with
  | nil => simp
  | cons s sockets ih =>
    rw [List.foldl_cons, ih, removeEntries, List.filter_filter]
    refine List.filter_congr fun entry _ => ?_
    by_cases hs : entry.socket = s <;> simp [hs]

/-- What is left after an update was there before, and its socket was not to be removed. -/
theorem updateJobState_socket {transitions : List JobTransition} {entry : SocketJobEntry}
    (h : entry ∈ (m.updateJobState transitions).jobs) :
    entry.socket ∉ m.pendingRemovals ∧ ∃ old ∈ m.jobs, old.socket = entry.socket := by
  have hjobs : (m.updateJobState transitions).jobs =
      ((transitions.foldl applyTransition m).pendingRemovals.foldl removeEntries
        (transitions.foldl applyTransition m)).jobs := rfl
  rw [hjobs, removals_jobs, applyTransitions_pendingRemovals, List.mem_filter] at h
  exact ⟨by simpa using h.2, applyTransitions_socket h.1⟩

private theorem Gone.of (h : Gone socket m) {m' : SocketMultiplexer} (hrun : ∀ entry ∈ m'.toRun, entry ∈ m.toRun)
    (hpending : socket ∈ m.pendingRemovals → socket ∈ m'.pendingRemovals)
    (hjobs : ∀ entry ∈ m'.jobs, entry.socket = socket → ∃ old ∈ m.jobs, old.socket = socket) : Gone socket m' :=
  ⟨fun entry he => h.notRun entry (hrun entry he), h.removed.imp hpending fun hnone entry he hs =>
    let ⟨old, hold, heq⟩ := hjobs entry he hs
    hnone old hold heq⟩

private theorem Gone.addSocket (h : Gone socket m) {other : ISocket} (hother : other ≠ socket) (job : Job) :
    Gone socket (m.addSocket other job) := by
  have hpending : socket ∈ m.pendingRemovals → socket ∈ m.pendingRemovals.filter (· ≠ other) := fun hs =>
    List.mem_filter.mpr ⟨hs, by simpa using hother.symm⟩
  unfold SocketMultiplexer.addSocket
  simp only
  split
  · split
    · refine h.of (fun _ he => he) hpending fun entry he hs => ?_
      rcases mem_changeFirst he with he | ⟨old, hold, -, hchange⟩
      · exact ⟨entry, he, hs⟩
      · obtain rfl := Option.some.inj hchange
        exact ⟨old, hold, hs⟩
    · exact h.of (fun _ he => he) hpending fun entry he hs => ⟨entry, he, hs⟩
  · refine h.of (fun _ he => he) hpending fun entry he hs => ?_
    rcases List.mem_append.mp he with he | he
    · exact ⟨entry, he, hs⟩
    · rw [List.mem_singleton.mp he] at hs
      exact absurd hs hother

private theorem Gone.removeSocket (h : Gone socket m) (other : ISocket) : Gone socket (m.removeSocket other) := by
  unfold SocketMultiplexer.removeSocket
  split
  · exact h.of (fun _ he => he) (List.mem_append_left _) fun entry he hs => ⟨entry, he, hs⟩
  · exact h

/-- A removal from which the socket is gone: nothing of it was left to be run. -/
private theorem gone_removeSocket (h : ∀ entry ∈ m.toRun, entry.socket ≠ socket) : Gone socket (m.removeSocket socket) := by
  unfold SocketMultiplexer.removeSocket
  split
  · exact ⟨h, .inl (List.mem_append_right _ (List.mem_singleton_self socket))⟩
  next hnone =>
    refine ⟨h, .inr fun entry he hs => hnone ?_⟩
    exact List.any_eq_true.mpr ⟨entry, he, by simpa using hs⟩

private theorem Gone.step (h : Gone socket m) {a : Action} (ha : a ≠ .addSocket socket) : Gone socket (m.step a) := by
  cases a with
  | addSocket other =>
    have hmade : Gone socket { m with made := m.made + 1 } :=
      h.of (fun _ he => he) (fun hs => hs) fun entry he hs => ⟨entry, he, hs⟩
    refine hmade.addSocket ?_ m.made
    rintro rfl
    exact ha rfl
  | removeSocket other => exact h.removeSocket other
  | buildJobSnapshot =>
    unfold SocketMultiplexer.step
    simp only
    split
    · split
      · refine ⟨fun entry he hs => ?_, h.removed⟩
        obtain ⟨hmem, hpending⟩ := List.mem_filter.mp he
        rcases h.removed with hin | hnone
        · rw [hs] at hpending
          simp [hin] at hpending
        · exact hnone entry hmem hs
      · exact h
    · exact h
  | poll status =>
    unfold SocketMultiplexer.step
    simp only
    split
    next snapshot hthread =>
      refine h.of (fun entry he => ?_) (fun hs => hs) fun entry he hs => ⟨entry, he, hs⟩
      cases status with
      | true => simpa [toRun, hthread] using he
      | false => simp [toRun] at he
    · exact h
  | run result =>
    unfold SocketMultiplexer.step
    simp only
    split
    next passed first rest transitions hthread =>
      refine h.of (fun entry he => ?_) (fun hs => hs) fun entry he hs => ⟨entry, he, hs⟩
      have he' : entry ∈ rest := he
      simp [toRun, hthread, he']
    · exact h
  | updateJobState =>
    unfold SocketMultiplexer.step
    simp only
    split
    next passed transitions hthread =>
      refine ⟨by simp [toRun], .inr fun entry he hs => ?_⟩
      obtain ⟨hpending, old, hold, heq⟩ := updateJobState_socket he
      rw [hs] at hpending heq
      exact h.removed.elim hpending fun hnone => hnone old hold heq
    · exact h

/-- The job that a step runs is at the front of what remains. -/
private theorem runs_mem {a : Action} {entry : SocketJobEntry} (h : entry ∈ m.runs a) : entry ∈ m.toRun := by
  cases a with
  | run result =>
    unfold runs at h
    unfold toRun
    simp only at h
    split at h
    next hthread =>
      rw [hthread]
      obtain rfl := Option.some.inj h
      exact List.mem_cons_self
    · cases h
  | _ => cases h

private theorem Gone.leftAlone (h : Gone socket m) : LeftAlone socket m := by
  intro actions hactions
  induction actions generalizing m with
  | nil => trivial
  | cons a actions ih =>
    refine ⟨?_, ih (h.step fun ha => hactions (by simp [ha])) fun hmem => hactions (List.mem_cons_of_mem _ hmem)⟩
    rintro ⟨entry, hentry, hs⟩
    exact h.notRun entry (runs_mem hentry) hs

/-- What remains of a snapshot is run when nothing comes between. -/
private theorem serviced_running {passed rest : List SocketJobEntry} {transitions : List JobTransition}
    (hthread : m.thread = .running passed rest transitions) (h : ∃ entry ∈ rest, entry.socket = socket) :
    ¬ LeftAlone socket m := by
  induction rest generalizing m passed transitions with
  | nil =>
    obtain ⟨_, hmem, -⟩ := h
    cases hmem
  | cons first rest ih =>
    intro halone
    by_cases hs : first.socket = socket
    · have hrun := (halone [.run .same] (by simp)).1
      exact hrun ⟨first, by simp [runs, hthread], hs⟩
    · have hrest : ∃ entry ∈ rest, entry.socket = socket := by
        obtain ⟨entry, hmem, heq⟩ := h
        refine ⟨entry, (List.mem_cons.mp hmem).resolve_left ?_, heq⟩
        rintro rfl
        exact hs heq
      have hstep : (m.step (.run .same)).thread = .running (passed ++ [first]) rest transitions := by
        simp [step, hthread, RunResult.newJob]
      refine ih hstep hrest fun actions hactions => ?_
      exact (halone (.run .same :: actions) (by simp [hactions])).2

private theorem not_leftAlone (h : ∃ entry ∈ m.toRun, entry.socket = socket) : ¬ LeftAlone socket m := by
  unfold toRun at h
  split at h
  · obtain ⟨_, hmem, -⟩ := h
    cases hmem
  next snapshot hthread =>
    intro halone
    have hstep : (m.step (.poll true)).thread = .running [] snapshot [] := by simp [step, hthread]
    refine serviced_running hstep h fun actions hactions => ?_
    exact (halone (.poll true :: actions) (by simp [hactions])).2
  next hthread => exact serviced_running hthread h

private theorem toRun_removeSocket : (m.removeSocket socket).toRun = m.toRun := by
  unfold SocketMultiplexer.removeSocket
  split <;> rfl

/-- After any run a removed socket is left alone until it is added again, whatever the
threads do, if and only if it is not in what the service thread still has to run. -/
theorem leftAlone_iff (actions : List Action) (socket : ISocket) :
    let m := actions.foldl step {}
    LeftAlone socket (m.step (.removeSocket socket)) ↔ ∀ entry ∈ m.toRun, entry.socket ≠ socket := by
  intro m
  constructor
  · intro halone entry hentry hs
    exact not_leftAlone ⟨entry, by rwa [step, toRun_removeSocket], hs⟩ halone
  · exact fun h => (gone_removeSocket h).leftAlone

/-- A socket is removed while the service thread is at the poll, and its job is run. -/
theorem not_always_leftAlone : ¬ ∀ (actions : List Action) (socket : ISocket),
    LeftAlone socket ((actions.foldl step {}).step (.removeSocket socket)) := by
  intro h
  have hrun := h [.addSocket 7, .buildJobSnapshot] 7 [.poll true, .run .same] (by decide)
  refine hrun.2.1 ⟨⟨7, 0⟩, ?_, rfl⟩
  decide

end SocketMultiplexer
end Synergy
