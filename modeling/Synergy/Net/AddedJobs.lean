import Synergy.Net.MultiplexerJobs

/-! The jobs of the multiplexer over whole runs, in any interleaving of its threads: they
are freed once and in time, and an added one stays until it has been run. -/
namespace Synergy
open Lib

namespace SocketMultiplexer

variable {m : SocketMultiplexer} {socket : ISocket} {job : Job}

/-- A socket has at most one entry, a job is deleted once and not while it has an entry or
is in the snapshot that is worked through, and the service thread is awake when there are
entries. -/
structure JobsKept (m : SocketMultiplexer) : Prop where
  oneEntry : (m.jobs.map SocketJobEntry.socket).Nodup
  freedOnce : m.deleted.Nodup
  entriesAlive : ∀ entry ∈ m.jobs, entry.job ∉ m.deleted
  snapshotAlive : ∀ entry ∈ m.snapshot, entry.job ∉ m.deleted
  ready : m.jobs ≠ [] → m.jobsReady = true

private theorem Sound.jobsKept (h : m.Sound) : m.JobsKept := by
  have hnodup := h.owned.nodup
  rw [places] at hnodup
  obtain ⟨hkept, -, -⟩ := List.nodup_append.mp hnodup
  obtain ⟨-, hdeleted, hapart⟩ := List.nodup_append.mp hkept
  have halive : ∀ entry : SocketJobEntry, entry ∈ m.jobs ∨ entry.job ∈ m.retiredJobs → entry.job ∉ m.deleted := by
    intro entry he hmem
    refine hapart entry.job (List.mem_append.mpr ?_) entry.job hmem rfl
    exact he.imp_left fun he => List.mem_map_of_mem he
  exact ⟨h.owned.oneEntry, hdeleted, fun e he => halive e (.inl he), fun e he => halive e (h.snapshot e he), h.ready⟩

/-- Nothing is lost in an update: each job that was made has an entry or is deleted. -/
private theorem Sound.updated (h : m.Sound) {passed : List SocketJobEntry} {transitions : List JobTransition}
    (hthread : m.thread = .running passed [] transitions) (hjob : job < m.made) :
    job ∈ (m.step .updateJobState).jobs.map SocketJobEntry.job ∨ job ∈ (m.step .updateJobState).deleted := by
  have htransitions : m.transitions = transitions := by simp [SocketMultiplexer.transitions, hthread]
  have howned := h.owned
  rw [htransitions] at howned
  have hstep : m.step .updateJobState = { m.updateJobState transitions with thread := .waiting } := by
    simp [SocketMultiplexer.step, hthread]
  have hmade : (m.updateJobState transitions).made = m.made := by
    have hall : ∀ (ts : List JobTransition) (m : SocketMultiplexer), (ts.foldl applyTransition m).made = m.made := by
      intro ts
      induction ts with
      | nil => exact fun _ => rfl
      | cons t ts ih =>
        intro m
        rw [List.foldl_cons, ih]
        unfold applyTransition
        simp only
        split_ifs <;> rfl
    have hremove : ∀ (ss : List ISocket) (m : SocketMultiplexer), (ss.foldl removeEntries m).made = m.made := by
      intro ss
      induction ss with
      | nil => exact fun _ => rfl
      | cons s ss ih => exact fun m => ih (m.removeEntries s)
    exact (hremove _ _).trans (hall transitions m)
  have hmem := howned.updateJobState.places.mem_iff.mpr (List.mem_range.mpr (hmade.symm ▸ hjob))
  have hretired : (m.updateJobState transitions).retiredJobs = [] := rfl
  rw [places, hretired, List.append_nil] at hmem
  rw [hstep]
  simpa [returned] using hmem

/-- The job is the one of the socket's entry, and nothing pending can take it away. -/
private structure Installed (socket : ISocket) (job : Job) (m : SocketMultiplexer) : Prop where
  entry : ⟨socket, job⟩ ∈ m.jobs
  notRemoved : socket ∉ m.pendingRemovals
  notRun : ∀ t ∈ m.transitions, t.previousJob ≠ job

private theorem applyTransitions_keep {transitions : List JobTransition} (h : ⟨socket, job⟩ ∈ m.jobs)
    (hother : ∀ t ∈ transitions, t.previousJob ≠ job) : ⟨socket, job⟩ ∈ (transitions.foldl applyTransition m).jobs := by
  induction transitions generalizing m with
  | nil => exact h
  | cons t transitions ih =>
    refine ih ?_ fun u hu => hother u (List.mem_cons_of_mem _ hu)
    unfold applyTransition
    simp only
    split_ifs
    · refine mem_changeFirst_of_not h ?_
      simp [(hother t (by simp)).symm]
    all_goals exact h

private theorem Installed.step (hi : Installed socket job m) (h : m.Sound) {a : Action} (hadd : a ≠ .addSocket socket)
    (hremove : a ≠ .removeSocket socket) (hrun : ∀ entry ∈ m.runs a, entry.job ≠ job) : Installed socket job (m.step a) := by
  obtain ⟨hentry, hpending, hnot⟩ := hi
  cases a with
  | addSocket other =>
    have hother : socket ≠ other := by
      rintro rfl
      exact hadd rfl
    have hfilter : socket ∉ m.pendingRemovals.filter (· ≠ other) := fun hs => hpending (List.mem_filter.mp hs).1
    rcases addSocket_cases h other with ⟨old, -, -, heq⟩ | ⟨-, heq⟩
    · rw [heq]
      exact ⟨mem_changeFirst_of_not hentry (by simpa using hother), hfilter, hnot⟩
    · rw [heq]
      exact ⟨List.mem_append_left _ hentry, hfilter, hnot⟩
  | removeSocket other =>
    have hother : socket ≠ other := by
      rintro rfl
      exact hremove rfl
    unfold SocketMultiplexer.step SocketMultiplexer.removeSocket
    simp only
    split
    · refine ⟨hentry, fun hs => ?_, hnot⟩
      rcases List.mem_append.mp hs with hs | hs
      · exact hpending hs
      · exact hother (List.mem_singleton.mp hs)
    · exact ⟨hentry, hpending, hnot⟩
  | buildJobSnapshot =>
    unfold SocketMultiplexer.step
    simp only
    split
    · split
      · exact ⟨hentry, hpending, fun t ht => absurd ht List.not_mem_nil⟩
      · exact ⟨hentry, hpending, hnot⟩
    · exact ⟨hentry, hpending, hnot⟩
  | poll status =>
    unfold SocketMultiplexer.step
    simp only
    split
    · cases status <;> exact ⟨hentry, hpending, fun t ht => absurd ht List.not_mem_nil⟩
    · exact ⟨hentry, hpending, hnot⟩
  | run result =>
    unfold SocketMultiplexer.step
    unfold runs at hrun
    simp only at hrun ⊢
    split
    next passed first rest transitions hthread =>
      have htransitions : m.transitions = transitions := by simp [SocketMultiplexer.transitions, hthread]
      rw [hthread] at hrun
      refine ⟨hentry, hpending, fun t ht => ?_⟩
      have ht' : t ∈ transitions ∨ t.previousJob = first.job := by
        change t ∈ (if _ then transitions ++ [_] else transitions) at ht
        split at ht
        · rcases List.mem_append.mp ht with ht | ht
          · exact .inl ht
          · exact .inr (by rw [List.mem_singleton.mp ht])
        · exact .inl ht
      rcases ht' with ht' | ht'
      · exact hnot t (htransitions.symm ▸ ht')
      · rw [ht']
        exact hrun first rfl
    · exact ⟨hentry, hpending, hnot⟩
  | updateJobState =>
    unfold SocketMultiplexer.step
    simp only
    split
    next passed transitions hthread =>
      have htransitions : m.transitions = transitions := by simp [SocketMultiplexer.transitions, hthread]
      refine ⟨?_, List.not_mem_nil, fun t ht => absurd ht List.not_mem_nil⟩
      have hjobs : (m.updateJobState transitions).jobs =
          ((transitions.foldl applyTransition m).pendingRemovals.foldl removeEntries
            (transitions.foldl applyTransition m)).jobs := rfl
      rw [hjobs, removals_jobs, applyTransitions_pendingRemovals, List.mem_filter]
      exact ⟨applyTransitions_keep hentry fun t ht => hnot t (htransitions.symm ▸ ht), by simpa using hpending⟩
    · exact ⟨hentry, hpending, hnot⟩

private theorem mem_changeFirst_of_any {p : SocketJobEntry → Bool} {f : SocketJobEntry → SocketJobEntry}
    {jobs : List SocketJobEntry} (hany : jobs.any p = true) :
    ∃ old ∈ jobs, p old = true ∧ f old ∈ changeFirst p (fun entry => some (f entry)) jobs := by
  induction jobs with
  | nil => cases hany
  | cons first jobs ih =>
    rw [changeFirst]
    split
    next hp => exact ⟨first, by simp, hp, by simp⟩
    next hp =>
      obtain ⟨old, hold, hpold, hmem⟩ := ih (by simpa [hp] using hany)
      exact ⟨old, List.mem_cons_of_mem _ hold, hpold, List.mem_cons_of_mem _ hmem⟩

private theorem installed_addSocket (h : m.Sound) (socket : ISocket) :
    Installed socket m.made (m.step (.addSocket socket)) := by
  have hfilter : socket ∉ m.pendingRemovals.filter (· ≠ socket) := by simp
  have hresults : ∀ t ∈ m.transitions, t.previousJob ≠ m.made := by
    intro t ht
    obtain ⟨entry, he, hjob⟩ := h.results t ht
    rw [← hjob]
    exact Nat.ne_of_lt (h.lt_made (h.snapshot entry he))
  rcases addSocket_cases h socket with ⟨old, hold, hsocket, heq⟩ | ⟨-, heq⟩
  · rw [heq]
    refine ⟨?_, hfilter, hresults⟩
    have hany : m.jobs.any (·.socket = socket) = true := List.any_eq_true.mpr ⟨old, hold, by simpa using hsocket⟩
    obtain ⟨first, -, hfirst, hmem⟩ := mem_changeFirst_of_any (f := fun entry => { entry with job := m.made }) hany
    have hfirst' : (⟨first.socket, m.made⟩ : SocketJobEntry) = ⟨socket, m.made⟩ := by rw [of_decide_eq_true hfirst]
    rw [hfirst'] at hmem
    exact hmem
  · rw [heq]
    exact ⟨List.mem_append_right _ (List.mem_singleton_self _), hfilter, hresults⟩

/-- The socket is neither added again nor removed, and the job is not run. -/
def Untouched (socket : ISocket) (job : Job) (m : SocketMultiplexer) (a : Action) : Prop :=
  a ≠ .addSocket socket ∧ a ≠ .removeSocket socket ∧ ∀ entry ∈ m.runs a, entry.job ≠ job

private theorem Installed.run (hi : Installed socket job m) (h : m.Sound) {actions : List Action}
    (hactions : EachStep (fun m a _ => Untouched socket job m a) m (runTrace SocketMultiplexer.step m actions)) :
    ⟨socket, job⟩ ∈ (actions.foldl SocketMultiplexer.step m).jobs := by
  induction actions generalizing m with
  | nil => exact hi.entry
  | cons a actions ih =>
    obtain ⟨⟨hadd, hremove, hrun⟩, hrest⟩ := hactions
    exact ih (hi.step h hadd hremove hrun) (h.step a) hrest

/-- After any run the jobs are kept, an update loses none of the jobs made, and a job that
is added for a socket stays in its entry until the socket is added again or removed or
the job has been run. -/
theorem jobs_kept (actions : List Action) :
    let m := actions.foldl step {}
    m.JobsKept ∧
    (∀ passed transitions, m.thread = .running passed [] transitions → ∀ job < m.made,
      job ∈ (m.step .updateJobState).jobs.map SocketJobEntry.job ∨ job ∈ (m.step .updateJobState).deleted) ∧
    ∀ (socket : ISocket) (more : List Action),
      EachStep (fun m' a _ => Untouched socket m.made m' a) (m.step (.addSocket socket))
        (runTrace step (m.step (.addSocket socket)) more) →
      ⟨socket, m.made⟩ ∈ (more.foldl step (m.step (.addSocket socket))).jobs := by
  intro m
  have h : m.Sound := Sound.start.run_actions actions
  exact ⟨h.jobsKept, fun _ _ hthread _ hjob => h.updated hthread hjob,
    fun socket _ hmore => (installed_addSocket h socket).run (h.step _) hmore⟩

/-- A socket that is added while another is polled keeps its job. -/
theorem jobs_kept_added :
    let m : SocketMultiplexer := [.addSocket 1, .buildJobSnapshot].foldl step {}
    ⟨2, 1⟩ ∈ ([.poll true, .run .null, .updateJobState].foldl step (m.step (.addSocket 2))).jobs := by
  refine (jobs_kept [.addSocket 1, .buildJobSnapshot]).2.2 2 [.poll true, .run .null, .updateJobState] ?_
  refine ⟨⟨by decide, by decide, ?_⟩, ⟨by decide, by decide, ?_⟩, ⟨by decide, by decide, ?_⟩, trivial⟩
  all_goals decide

end SocketMultiplexer
end Synergy
