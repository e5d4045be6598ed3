import Mathlib.Data.List.Perm.Lattice
import Synergy.Net.SocketMultiplexer

/-! Who owns the jobs of the multiplexer. Each job that has been made is in one place: an
entry, among the retired, a result that has not been applied, or deleted. -/
namespace Synergy
open Lib

namespace SocketMultiplexer

/-- The jobs that a run has returned and no update has installed yet. -/
def returned (transitions : List JobTransition) : List Job := transitions.filterMap JobTransition.nextJob

/-- The places of all jobs, given the results still to be applied. -/
def places (m : SocketMultiplexer) (transitions : List JobTransition) : List Job :=
  m.jobs.map SocketJobEntry.job ++ m.retiredJobs ++ m.deleted ++ returned transitions

/-- What every thread relies on, given the results still to be applied. -/
structure Owned (m : SocketMultiplexer) (transitions : List JobTransition) : Prop where
  oneEntry : (m.jobs.map SocketJobEntry.socket).Nodup
  places : (m.places transitions).Perm (List.range m.made)
  changes : ∀ t ∈ transitions, t.nextJob ≠ some t.previousJob

variable {m : SocketMultiplexer} {transitions : List JobTransition}

theorem Owned.nodup (h : m.Owned transitions) : (m.places transitions).Nodup := h.places.nodup_iff.mpr List.nodup_range

/-- The entries of a changed list: their sockets are the same or one is gone. -/
private theorem sublist_changeFirst {p : SocketJobEntry → Bool} {change : SocketJobEntry → Option SocketJobEntry}
    (hchange : ∀ entry, ∀ entry' ∈ change entry, entry'.socket = entry.socket) (jobs : List SocketJobEntry) :
    ((changeFirst p change jobs).map SocketJobEntry.socket).Sublist (jobs.map SocketJobEntry.socket) := by
  induction jobs with
  | nil => exact List.Sublist.refl _
  | cons entry jobs ih =>
    rw [changeFirst]
    split
    · cases hentry : change entry with
      | none => exact List.sublist_cons_self _ _
      | some entry' =>
        rw [Option.toList_some, List.singleton_append, List.map_cons, List.map_cons, hchange entry entry' hentry]
    · exact ih.cons_cons _

/-- Changing the entry of a job moves the job out and what it becomes in. -/
private theorem perm_changeFirst {p : SocketJobEntry → Bool} (change : SocketJobEntry → Option SocketJobEntry)
    (next : Option Job) (job : Job) {jobs : List SocketJobEntry} (hany : jobs.any p = true)
    (hjob : ∀ entry ∈ jobs, p entry = true → entry.job = job)
    (hchange : ∀ entry, (change entry).map SocketJobEntry.job = next) :
    (job :: (changeFirst p change jobs).map SocketJobEntry.job).Perm (next.toList ++ jobs.map SocketJobEntry.job) := by
  induction jobs with
  | nil => cases hany
  | cons entry jobs ih =>
    rw [changeFirst]
    split
    next hp =>
      have hentry := hjob entry (by simp) hp
      have hnext := hchange entry
      cases hc : change entry with
      | none =>
        rw [hc] at hnext
        simp [← hnext, hentry]
      | some entry' =>
        rw [hc] at hnext
        simp only [← hnext, Option.map_some, Option.toList_some, List.singleton_append, List.map_cons, hentry]
        exact List.Perm.swap _ _ _
    next hp =>
      have hany' : jobs.any p = true := by simpa [hp] using hany
      have ih' := ih hany' fun entry he => hjob entry (List.mem_cons_of_mem _ he)
      refine (List.Perm.swap _ _ _).trans ((ih'.cons entry.job).trans ?_)
      rw [List.map_cons]
      exact List.perm_middle.symm

/-- Entries of one socket are one entry. -/
theorem Owned.same (h : m.Owned transitions) {a b : SocketJobEntry} (ha : a ∈ m.jobs) (hb : b ∈ m.jobs)
    (hs : a.socket = b.socket) : a = b := List.inj_on_of_nodup_map h.oneEntry ha hb hs

/-- Applying a result empties its place. -/
private theorem Owned.applyTransition {t : JobTransition} (h : m.Owned (t :: transitions)) :
    (m.applyTransition t).Owned transitions := by
  have hchange := h.changes t (by simp)
  have hrest : ∀ u ∈ transitions, u.nextJob ≠ some u.previousJob := fun u hu => h.changes u (List.mem_cons_of_mem _ hu)
  have hplaces : returned (t :: transitions) = t.nextJob.toList ++ returned transitions := by
    cases hnext : t.nextJob <;> simp [returned, hnext]
  have hall := h.places
  rw [SocketMultiplexer.places, hplaces, List.perm_iff_count] at hall
  unfold SocketMultiplexer.applyTransition
  simp only
  split_ifs with hany
  · have hperm := perm_changeFirst (fun entry => t.nextJob.map fun job => { entry with job := job }) t.nextJob
      t.previousJob hany (fun entry _ hp => (of_decide_eq_true hp).2) fun entry => by
        rw [Option.map_map]
        exact Option.map_id'
    refine ⟨(sublist_changeFirst ?_ m.jobs).nodup h.oneEntry, List.perm_iff_count.mpr fun job => ?_, hrest⟩
    · intro entry entry' hentry
      obtain ⟨job, -, rfl⟩ := Option.map_eq_some_iff.mp hentry
      rfl
    · have hcount := hall job
      have hmoved := List.perm_iff_count.mp hperm job
      simp only [SocketMultiplexer.places, List.count_append, List.count_cons] at hcount hmoved ⊢
      omega
  · refine ⟨h.oneEntry, List.perm_iff_count.mpr fun job => ?_, hrest⟩
    have hcount := hall job
    simp only [SocketMultiplexer.places, List.count_append] at hcount ⊢
    omega

theorem Owned.applyTransitions (h : m.Owned transitions) : (transitions.foldl SocketMultiplexer.applyTransition m).Owned [] := by
  induction transitions generalizing m with
  | nil => exact h
  | cons t transitions ih => exact ih h.applyTransition

private theorem Owned.removeEntries (h : m.Owned []) (socket : ISocket) : (m.removeEntries socket).Owned [] := by
  refine ⟨(List.filter_sublist.map _).nodup h.oneEntry, ?_, h.changes⟩
  refine (List.perm_iff_count.mpr fun job => ?_).trans h.places
  have hsplit := List.perm_iff_count.mp ((List.filter_append_perm (·.socket = socket) m.jobs).map SocketJobEntry.job) job
  simp only [SocketMultiplexer.places, SocketMultiplexer.removeEntries, List.count_append, List.map_append, ne_eq,
    decide_not] at hsplit ⊢
  omega

private theorem Owned.removals (h : m.Owned []) (sockets : List ISocket) : (sockets.foldl SocketMultiplexer.removeEntries m).Owned [] := by
  induction sockets generalizing m with
  | nil => exact h
  | cons socket sockets ih => exact ih (h.removeEntries socket)

theorem Owned.updateJobState (h : m.Owned transitions) : (m.updateJobState transitions).Owned [] := by
  obtain ⟨hentry, hplaces, hchanges⟩ := h.applyTransitions.removals (transitions.foldl SocketMultiplexer.applyTransition m).pendingRemovals
  refine ⟨hentry, (List.perm_iff_count.mpr fun job => ?_).trans hplaces, hchanges⟩
  simp only [SocketMultiplexer.places, SocketMultiplexer.updateJobState, List.count_append, List.count_nil]
  omega

/-- A new job takes the place of the socket's job, which retires, or a place of its own. -/
theorem Owned.addSocket (h : m.Owned transitions) (socket : ISocket) :
    ({ m with made := m.made + 1 }.addSocket socket m.made).Owned transitions := by
  have hfresh : ∀ entry ∈ m.jobs, entry.job ≠ m.made := by
    intro entry hentry hjob
    have hmem : entry.job ∈ List.range m.made := h.places.mem_iff.mp (by
      simp only [SocketMultiplexer.places, List.mem_append, List.mem_map]
      exact .inl (.inl (.inl ⟨entry, hentry, rfl⟩)))
    rw [hjob] at hmem
    exact Nat.lt_irrefl _ (List.mem_range.mp hmem)
  have hall := List.perm_iff_count.mp h.places
  unfold SocketMultiplexer.addSocket
  simp only
  split
  next old hold =>
    have hmem := List.mem_of_find?_eq_some hold
    have hsocket : old.socket = socket := by simpa using List.find?_some hold
    rw [if_pos (hfresh old hmem)]
    have hany : m.jobs.any (·.socket = socket) = true := List.any_eq_true.mpr ⟨old, hmem, by simpa using hsocket⟩
    have hperm := perm_changeFirst (fun entry => some { entry with job := m.made }) (some m.made) old.job hany
      (fun entry he hp => by rw [h.same he hmem ((of_decide_eq_true hp).trans hsocket.symm)]) fun _ => rfl
    refine ⟨(sublist_changeFirst ?_ m.jobs).nodup h.oneEntry, List.perm_iff_count.mpr fun job => ?_, h.changes⟩
    · intro entry entry' hentry
      obtain rfl := Option.some.inj hentry
      rfl
    · have hcount := hall job
      have hmoved := List.perm_iff_count.mp hperm job
      simp only [SocketMultiplexer.places, List.range_succ, List.count_append, List.count_cons, List.count_nil,
        Option.toList_some] at hcount hmoved ⊢
      omega
  next hnone =>
    have hnew : ∀ entry ∈ m.jobs, entry.socket ≠ socket := fun entry hentry hs =>
      List.find?_eq_none.mp hnone entry hentry (by simpa using hs)
    refine ⟨?_, List.perm_iff_count.mpr fun job => ?_, h.changes⟩
    · rw [List.map_append, List.map_singleton]
      refine List.nodup_append.mpr ⟨h.oneEntry, List.nodup_singleton _, ?_⟩
      rintro s hs _ ht rfl
      obtain ⟨entry, hentry, hes⟩ := List.mem_map.mp hs
      exact hnew entry hentry (hes.trans (List.mem_singleton.mp ht))
    · have hcount := hall job
      simp only [SocketMultiplexer.places, List.range_succ, List.map_append, List.map_singleton, List.count_append] at hcount ⊢
      omega

end SocketMultiplexer
end Synergy

/-! What all threads of the multiplexer keep: who owns the jobs, what a snapshot may hold
and when the service thread is awake. -/
namespace Synergy
open Lib

namespace SocketMultiplexer

/-- What holds after every step of any thread. -/
structure Sound (m : SocketMultiplexer) : Prop where
  owned : m.Owned m.transitions
  snapshot : ∀ entry ∈ m.snapshot, entry ∈ m.jobs ∨ entry.job ∈ m.retiredJobs
  results : ∀ t ∈ m.transitions, ∃ entry ∈ m.snapshot, entry.job = t.previousJob
  ready : m.jobs ≠ [] → m.jobsReady = true

variable {m : SocketMultiplexer}

theorem Sound.lt_made (h : m.Sound) {entry : SocketJobEntry} (he : entry ∈ m.jobs ∨ entry.job ∈ m.retiredJobs) :
    entry.job < m.made := by
  refine List.mem_range.mp (h.owned.places.mem_iff.mp ?_)
  simp only [places, List.mem_append, List.mem_map]
  rcases he with he | he
  · exact .inl (.inl (.inl ⟨entry, he, rfl⟩))
  · exact .inl (.inl (.inr he))

/-- Other entries than the one that changes stay. -/
theorem mem_changeFirst_of_not {p : SocketJobEntry → Bool} {change : SocketJobEntry → Option SocketJobEntry}
    {jobs : List SocketJobEntry} {entry : SocketJobEntry} (he : entry ∈ jobs) (hp : p entry = false) :
    entry ∈ changeFirst p change jobs := by
  induction jobs with
  | nil => cases he
  | cons first jobs ih =>
    rw [changeFirst]
    rcases List.mem_cons.mp he with rfl | he
    · rw [if_neg (by simp [hp])]
      exact List.mem_cons_self
    · split
      · exact List.mem_append_right _ he
      · exact List.mem_cons_of_mem _ (ih he)

/-- What adding a socket does: the job of its entry is replaced and retires, or the socket
gets an entry. -/
theorem addSocket_cases (h : m.Sound) (socket : ISocket) :
    (∃ old ∈ m.jobs, old.socket = socket ∧ m.step (.addSocket socket) =
      { m with
        made := m.made + 1
        pendingRemovals := m.pendingRemovals.filter (· ≠ socket)
        retiredJobs := m.retiredJobs ++ [old.job]
        jobs := changeFirst (·.socket = socket) (fun entry => some { entry with job := m.made }) m.jobs }) ∨
    ((∀ entry ∈ m.jobs, entry.socket ≠ socket) ∧ m.step (.addSocket socket) =
      { m with
        made := m.made + 1
        pendingRemovals := m.pendingRemovals.filter (· ≠ socket)
        jobs := m.jobs ++ [⟨socket, m.made⟩]
        jobsReady := true }) := by
  unfold step SocketMultiplexer.addSocket
  simp only
  split
  next old hold =>
    have hmem := List.mem_of_find?_eq_some hold
    refine .inl ⟨old, hmem, by simpa using List.find?_some hold, ?_⟩
    rw [if_pos (Nat.ne_of_lt (h.lt_made (.inl hmem)))]
  next hnone => exact .inr ⟨fun entry he hs => List.find?_eq_none.mp hnone entry he (by simpa using hs), rfl⟩

private theorem Sound.addSocket (h : m.Sound) (socket : ISocket) : (m.step (.addSocket socket)).Sound := by
  have howned : (m.step (.addSocket socket)).Owned m.transitions := h.owned.addSocket socket
  rcases addSocket_cases h socket with ⟨old, hold, hsocket, heq⟩ | ⟨hnone, heq⟩
  · rw [heq] at howned ⊢
    refine ⟨howned, fun entry he => ?_, h.results, fun _ => h.ready (List.ne_nil_of_mem hold)⟩
    rcases h.snapshot entry he with hin | hretired
    · by_cases hs : entry.socket = socket
      · rw [h.owned.same hin hold (hs.trans hsocket.symm)]
        exact .inr (List.mem_append_right _ (List.mem_singleton_self _))
      · exact .inl (mem_changeFirst_of_not hin (by simpa using hs))
    · exact .inr (List.mem_append_left _ hretired)
  · rw [heq] at howned ⊢
    refine ⟨howned, fun entry he => (h.snapshot entry he).imp_left (List.mem_append_left _), h.results, fun _ => rfl⟩

private theorem Sound.removeSocket (h : m.Sound) (socket : ISocket) : (m.removeSocket socket).Sound := by
  unfold SocketMultiplexer.removeSocket
  split
  · exact ⟨⟨h.owned.oneEntry, h.owned.places, h.owned.changes⟩, h.snapshot, h.results, h.ready⟩
  · exact h

/-- A result that is not the same job is kept to be applied. -/
private theorem Sound.result (h : m.Sound) {passed rest : List SocketJobEntry} {entry : SocketJobEntry}
    {transitions : List JobTransition} (hthread : m.thread = .running passed (entry :: rest) transitions)
    {next : Option Job} {made : Job} (hne : next ≠ some entry.job)
    (hmade : (List.range made).Perm (List.range m.made ++ next.toList)) :
    Sound
      { m with
        made := made
        thread := .running (passed ++ [entry]) rest (transitions ++ [⟨entry.socket, entry.job, next⟩]) } := by
  have htransitions : m.transitions = transitions := by simp [SocketMultiplexer.transitions, hthread]
  have hsnapshot : m.snapshot = passed ++ [entry] ++ rest := by simp [SocketMultiplexer.snapshot, hthread]
  have howned := h.owned
  rw [htransitions] at howned
  have hreturned : returned (transitions ++ [⟨entry.socket, entry.job, next⟩]) = returned transitions ++ next.toList := by
    cases next <;> simp [returned]
  refine ⟨⟨howned.oneEntry, ?_, fun t ht => ?_⟩, fun e he => h.snapshot e (hsnapshot ▸ he), fun t ht => ?_, h.ready⟩
  · refine List.Perm.trans ?_ hmade.symm
    change (_ ++ returned (transitions ++ [_])).Perm _
    rw [hreturned, ← List.append_assoc]
    exact howned.places.append_right _
  · rcases List.mem_append.mp ht with ht | ht
    · exact howned.changes t ht
    · rw [List.mem_singleton.mp ht]
      exact hne
  · rcases List.mem_append.mp ht with ht | ht
    · obtain ⟨e, he, hjob⟩ := h.results t (htransitions.symm ▸ ht)
      have he' : e ∈ passed ++ [entry] ++ rest := hsnapshot ▸ he
      exact ⟨e, he', hjob⟩
    · rw [List.mem_singleton.mp ht]
      exact ⟨entry, by simp [SocketMultiplexer.snapshot], rfl⟩

private theorem Sound.run (h : m.Sound) (result : RunResult) : (m.step (.run result)).Sound := by
  unfold step
  simp only
  split
  next passed entry rest transitions hthread =>
    have hsnapshot : m.snapshot = passed ++ [entry] ++ rest := by simp [SocketMultiplexer.snapshot, hthread]
    have hlt : entry.job < m.made := h.lt_made (h.snapshot entry (by simp [hsnapshot]))
    have hnull : (none : Option Job) ≠ some entry.job := by simp
    have hkept : (List.range m.made).Perm (List.range m.made ++ (none : Option Job).toList) := by simp
    cases result with
    | same =>
      have htransitions : m.transitions = transitions := by simp [SocketMultiplexer.transitions, hthread]
      have howned := h.owned
      have hresults := h.results
      rw [htransitions] at howned hresults
      simp only [RunResult.newJob, ne_eq, not_true_eq_false, if_false]
      refine ⟨⟨howned.oneEntry, howned.places, howned.changes⟩, fun e he => h.snapshot e (hsnapshot ▸ he), fun t ht => ?_,
        h.ready⟩
      obtain ⟨e, he, hjob⟩ := hresults t ht
      have he' : e ∈ passed ++ [entry] ++ rest := hsnapshot ▸ he
      exact ⟨e, he', hjob⟩
    | fresh =>
      have hne : some m.made ≠ some entry.job := by simpa using (Nat.ne_of_lt hlt).symm
      have hrange : (List.range (m.made + 1)).Perm (List.range m.made ++ (some m.made).toList) := by
        simp [List.range_succ]
      have hpushed : (RunResult.newJob entry m.made .fresh).1 ≠ some entry.job := hne
      rw [if_pos hpushed]
      exact h.result hthread hne hrange
    | null =>
      have hpushed : (RunResult.newJob entry m.made .null).1 ≠ some entry.job := hnull
      rw [if_pos hpushed]
      exact h.result hthread hnull hkept
    | thrown =>
      have hpushed : (RunResult.newJob entry m.made .thrown).1 ≠ some entry.job := hnull
      rw [if_pos hpushed]
      exact h.result hthread hnull hkept
  · exact h

theorem Sound.step (h : m.Sound) (a : Action) : (m.step a).Sound := by
  cases a with
  | addSocket socket => exact h.addSocket socket
  | removeSocket socket => exact h.removeSocket socket
  | buildJobSnapshot =>
    unfold SocketMultiplexer.step
    simp only
    split
    next hthread =>
      have htransitions : m.transitions = [] := by simp [SocketMultiplexer.transitions, hthread]
      have howned := h.owned
      rw [htransitions] at howned
      split
      · exact ⟨⟨howned.oneEntry, howned.places, howned.changes⟩, fun e he => .inl (List.mem_filter.mp he).1,
          fun t ht => absurd ht List.not_mem_nil, h.ready⟩
      · exact h
    · exact h
  | poll status =>
    unfold SocketMultiplexer.step
    simp only
    split
    next snapshot hthread =>
      have htransitions : m.transitions = [] := by simp [SocketMultiplexer.transitions, hthread]
      have hsnapshot : m.snapshot = snapshot := by simp [SocketMultiplexer.snapshot, hthread]
      have howned := h.owned
      rw [htransitions] at howned
      cases status with
      | true =>
        exact ⟨⟨howned.oneEntry, howned.places, howned.changes⟩, fun e he => h.snapshot e (hsnapshot ▸ he),
          fun t ht => absurd ht List.not_mem_nil, h.ready⟩
      | false =>
        refine ⟨⟨howned.oneEntry, howned.places, howned.changes⟩, fun e he => h.snapshot e ?_,
          fun t ht => absurd ht List.not_mem_nil, h.ready⟩
        have he' : e ∈ snapshot ++ [] := he
        rwa [List.append_nil, ← hsnapshot] at he'
    · exact h
  | run result => exact h.run result
  | updateJobState =>
    unfold SocketMultiplexer.step
    simp only
    split
    next passed transitions hthread =>
      have htransitions : m.transitions = transitions := by simp [SocketMultiplexer.transitions, hthread]
      have howned := h.owned
      rw [htransitions] at howned
      have hupdated := howned.updateJobState
      refine ⟨⟨hupdated.oneEntry, hupdated.places, hupdated.changes⟩, fun e he => absurd he List.not_mem_nil,
        fun t ht => absurd ht List.not_mem_nil, fun hjobs => ?_⟩
      have hempty : (m.updateJobState transitions).jobs.isEmpty = false := List.isEmpty_eq_false_iff.mpr hjobs
      exact congrArg not hempty
    · exact h

theorem Sound.start : ({} : SocketMultiplexer).Sound :=
  ⟨⟨List.nodup_nil, List.Perm.refl _, fun _ ht => absurd ht List.not_mem_nil⟩, fun _ he => absurd he List.not_mem_nil,
    fun _ ht => absurd ht List.not_mem_nil, fun h => absurd rfl h⟩

theorem Sound.run_actions (h : m.Sound) (actions : List Action) : (actions.foldl SocketMultiplexer.step m).Sound := by
  induction actions generalizing m with
  | nil => exact h
  | cons a actions ih => exact ih (h.step a)

end SocketMultiplexer
end Synergy
