import Synergy.Server.EdgeTests
import Synergy.Server.Removal
import Synergy.Server.SwitchGuards

/-! A delayed switch goes to the point that was found for it, unless an edge leads to
another screen when the wait for the pending one starts again. -/
namespace Synergy
open Synergy.Lib

namespace Server
variable {e : Platform} {s t : Server} {c : BaseClientProxy} {aim : Option BaseClientProxy × Int × Int → Prop}

section takingOut

private theorem fallBack_moves (s : Server) (c : BaseClientProxy) :
    Moves (· = s.primaryClient) aim s (s.fallBack e c) := by
  have hstop : ∀ t : Server, Moves (· = s.primaryClient) aim t (if t.mSwitchScreen = some c then t.stopSwitch else t) :=
    fun t => .ite (stopSwitch_moves _ t) (.refl t)
  have hprimary : ∀ t : Server, t.primaryClient = s.primaryClient →
      Moves (· = s.primaryClient) aim t { t with active := t.primaryClient } := by
    intro t ht
    refine ⟨⟨rfl, ⟨_, rfl⟩, rfl, rfl, rfl, fun _ => .inl rfl⟩, fun d hd => ?_, .of_eq rfl rfl rfl⟩
    rcases hd with hd | hd
    · exact .inr (hd.symm.trans ht)
    · exact .inl (.inr hd)
  have hcenter : Moves (· = s.primaryClient) aim s (s.moveTo e.cursorCenter.1 e.cursorCenter.2) := .of_still rfl
  have hstopped := hcenter.trans (hstop _)
  exact (hstopped.trans (hprimary _ hstopped.primaryClient)).trans (.ite (call_moves _ _ _ _) (.refl _))

private theorem forceLeaveClient_wait (s : Server) (c : BaseClientProxy) : KeepsWait aim s (s.forceLeaveClient e c) := by
  have hleave : Moves (· = s.primaryClient) aim s
      (if s.activeSaver.getD s.active = c then s.fallBack e c else s) := .ite (fallBack_moves s c) (.refl s)
  unfold forceLeaveClient
  dsimp only
  refine (hleave.wait.trans ?_).trans (reconfigure_moves (fun _ => False) _).wait
  split
  · split <;> exact .of_eq rfl rfl rfl
  · split <;> exact .of_eq rfl rfl rfl

private theorem eraseClient_wait (s : Server) (c : BaseClientProxy) : KeepsWait aim s (s.eraseClient c) :=
  .of_eq rfl rfl rfl

private theorem removeClient_wait {u : Server} (h : s.removeClient c = some u) : KeepsWait aim s u := by
  unfold removeClient at h
  split at h
  · cases h
  · obtain rfl := Option.some.inj h
    have hstop : Moves (fun _ => False) aim (s.eraseClient c)
        (if (s.eraseClient c).mSwitchScreen = some c then (s.eraseClient c).stopSwitch else s.eraseClient c) :=
      .ite (stopSwitch_moves _ _) (.refl _)
    exact (eraseClient_wait s c).trans hstop.wait

private theorem closeClient_wait (s : Server) (c : BaseClientProxy) : KeepsWait aim s (s.closeClient e c) := by
  have hremoved : KeepsWait aim s (((s.call c .close).removeClient c).getD (s.call c .close)) := by
    cases h : (s.call c .close).removeClient c with
    | none => exact .of_eq rfl rfl rfl
    | some u =>
      have hcall : KeepsWait aim s (s.call c .close) := .of_eq rfl rfl rfl
      exact hcall.trans (removeClient_wait h)
  unfold closeClient
  dsimp only
  generalize ((s.call c .close).removeClient c).getD (s.call c .close) = u at hremoved ⊢
  have hold : KeepsWait aim u { u with oldClients := insert c u.oldClients } := .of_eq rfl rfl rfl
  exact (hremoved.trans hold).trans (forceLeaveClient_wait _ c)

private theorem closeClients_wait (s : Server) (config : Config) : KeepsWait aim s (s.closeClients e config) := by
  unfold closeClients
  generalize s.droppedClients config = l
  induction l generalizing s with
  | nil => exact .of_eq rfl rfl rfl
  | cons c l ih => exact (closeClient_wait s c).trans (ih _)

private theorem handleClientDisconnected_wait (s : Server) (c : BaseClientProxy) :
    KeepsWait aim s (s.handleClientDisconnected e c) := by
  unfold handleClientDisconnected removeActiveClient
  cases h : s.removeClient c with
  | none => exact .of_eq rfl rfl rfl
  | some u => exact ((removeClient_wait h).trans (forceLeaveClient_wait u c)).trans (.of_eq rfl rfl rfl)

private theorem reloadConfig_wait (s : Server) (config : Config) : KeepsWait aim s (s.reloadConfig e config) := by
  have hover : KeepsWait aim s { s with config := config } := .of_eq rfl rfl rfl
  cases hscreen : config.isScreen s.primaryClient.name with
  | false => exact hover.trans (by rw [reloadConfig, setConfig_refused hscreen]; exact .of_eq rfl rfl rfl)
  | true =>
    have hset : Moves (fun _ => False) aim _ (s.reloadConfig e config) := setConfig_moves hscreen
    exact (hover.trans (closeClients_wait _ config)).trans hset.wait

private theorem adoptClient_wait (s : Server) (c : BaseClientProxy) : KeepsWait aim s (s.adoptClient e c) := by
  rcases s.adoptClient_cases e c with hrej | ⟨-, -, hm⟩
  · exact hrej ▸ closeClient_wait s c
  · exact KeepsWait.trans (.of_eq rfl rfl rfl) (hm (fun _ => False) aim).wait

end takingOut

/-- Whatever the event, a wait is for the same switch as before or for what a test at
an edge aimed at. -/
theorem handle_wait {fuel : Nat} {ev : ServerEvent} {m : Motion} (h : s.handle e fuel ev = some m) :
    KeepsWait (m.Aims e) s m.server := by
  by_cases hq : ev.Quiet
  · exact (handle_moves hq h).wait
  cases ev with
  | adoptClient client =>
    obtain rfl := Option.some.inj h
    exact adoptClient_wait s client
  | clientDisconnected client =>
    obtain rfl := Option.some.inj h
    exact handleClientDisconnected_wait s client
  | clientCloseTimeout client =>
    obtain rfl := Option.some.inj h
    exact .of_eq rfl rfl rfl
  | reloadConfig config =>
    obtain rfl := Option.some.inj h
    exact reloadConfig_wait s config
  | disconnect =>
    obtain rfl := Option.some.inj h
    simp only [stay, disconnect]
    split
    · exact closeClients_wait s .empty
    · exact .of_eq rfl rfl rfl
  | _ => exact absurd trivial hq

/-- One event, with the tests at edges so far. -/
def TestStep (x : Server × List EdgeTest) (input : Platform × ServerEvent) (y : Server × List EdgeTest) : Prop :=
  x.1.Enabled input.2 ∧ ∃ fuel m, x.1.handle input.1 fuel input.2 = some m ∧ y = (m.server, x.2 ++ m.tests)

/-- A screen and a position that one call of `mapToNeighbor` returned for a test. -/
def Found (tests : List EdgeTest) (p : Option BaseClientProxy × Int × Int) : Prop :=
  ∃ t ∈ tests, (∃ e fuel, t.Mapped e fuel) ∧ t.newScreen ≠ none ∧ p = (t.newScreen, t.x, t.y)

/-- A running wait is for a screen and a position that were found together. -/
def WaitAimed (x : Server × List EdgeTest) : Prop := x.1.switchWaitTimer = true → Found x.2 x.1.pending

/-- The end of a wait switches to a screen at the position found on it. -/
def TimeoutAimed (x : Server × List EdgeTest) (input : Platform × ServerEvent) : Prop :=
  input.2 = .switchWaitTimeout → ∀ w, (x.1.handleSwitchWaitTimeout input.1).switch = some w →
    Found x.2 (some w.dst, w.x, w.y)

/-- When an event starts a wait again for the pending switch, the edge leads to the
pending screen or to none. -/
def KeepsAim (s : Server) (input : Platform × ServerEvent) : Prop :=
  ∀ dir p, s.firstEdge input.1 input.2 = some (dir, p) → s.Rewaits input.1 dir → ∀ fuel n q,
    s.mapToNeighbor input.1 fuel s.active dir p = some (some n, q) → s.mSwitchScreen = some n

theorem Found.append {tests : List EdgeTest} {p : Option BaseClientProxy × Int × Int} (h : Found tests p)
    (more : List EdgeTest) : Found (tests ++ more) p := by
  obtain ⟨t, ht, hp⟩ := h
  exact ⟨t, List.mem_append_left more ht, hp⟩

/-- What an event aims at has been found, if it keeps the aim. -/
theorem found_of_aims {fuel : Nat} {ev : ServerEvent} {m : Motion} {p : Option BaseClientProxy × Int × Int}
    (hg : s.KeepsAim (e, ev)) (h : s.handle e fuel ev = some m) (hp : m.Aims e p) : Found m.tests p := by
  obtain ⟨t, ht, hscreen, hp⟩ := hp
  obtain ⟨hmapped, hfirst⟩ := handle_tests h t ht
  refine ⟨t, ht, ⟨e, fuel, hmapped⟩, hscreen, ?_⟩
  rcases hp with hp | ⟨hr, hp⟩
  · exact hp
  · obtain ⟨q, hq, hmoved, hmap⟩ := hfirst.resolve_right (not_not.mpr hr)
    obtain ⟨n, hn⟩ := Option.ne_none_iff_exists'.mp hscreen
    rw [hn] at hmap
    have hkept : s.mSwitchScreen = some n := hg _ _ hq (hmoved.rewaits hr) fuel n _ hmap
    rw [hp, hmoved.mSwitchScreen, hkept, hn]

/-- Along every run in which waits that start again keep their aim, the screen and the
position of a running wait come from one call of `mapToNeighbor`, and it is these that
the switch at its end uses. -/
theorem switches_aimed {s : Server} (hstart : s.switchWaitTimer = false)
    {tr : List ((Platform × ServerEvent) × (Server × List EdgeTest))} (hr : Trace TestStep (s, []) tr)
    (hg : EachStep (fun x input _ => x.1.KeepsAim input) (s, []) tr) :
    Always WaitAimed tr ∧ EachStep (fun x input _ => TimeoutAimed x input) (s, []) tr := by
  have hkeep : ∀ (x : Server × List EdgeTest) input y, x.1.WaitSound ∧ WaitAimed x → x.1.KeepsAim input →
      TestStep x input y → y.1.WaitSound ∧ WaitAimed y := by
    rintro x input y ⟨hsound, haimed⟩ hg ⟨-, fuel, m, hm, rfl⟩
    obtain ⟨hsound', hwait⟩ := handle_wait hm hsound
    refine ⟨hsound', fun hrun => ?_⟩
    rcases hwait hrun with ⟨hrun', hp⟩ | haims
    · exact hp ▸ (haimed hrun').append m.tests
    · obtain ⟨t, ht, hp⟩ := found_of_aims hg hm haims
      exact ⟨t, List.mem_append_right x.2 ht, hp⟩
  have htimeout : ∀ (x : Server × List EdgeTest) input y, x.1.WaitSound ∧ WaitAimed x → x.1.KeepsAim input →
      TestStep x input y → TimeoutAimed x input := by
    rintro x input y ⟨-, haimed⟩ - ⟨hrun, -⟩ hev w hw
    rw [hev] at hrun
    rw [handleSwitchWaitTimeout_switch] at hw
    split at hw
    · cases hw
    · obtain ⟨d, hd, rfl⟩ := Option.map_eq_some_iff.mp hw
      have hpending : x.1.pending = (some d, x.1.switchWaitX, x.1.switchWaitY) := by rw [pending, hd]
      exact hpending ▸ haimed hrun
  have hstopped : (s, ([] : List EdgeTest)).1.switchWaitTimer ≠ true := by simp [hstart]
  have h0 : (s, ([] : List EdgeTest)).1.WaitSound ∧ WaitAimed (s, []) :=
    ⟨fun hrun => absurd hrun hstopped, fun hrun => absurd hrun hstopped⟩
  refine ⟨fun x hx => (hr.always (fun x => x.1.WaitSound ∧ WaitAimed x) hkeep h0 hg x hx).2, ?_⟩
  exact hr.each (fun x => x.1.WaitSound ∧ WaitAimed x) htimeout hkeep h0 hg

/-- Serve an event and note the tests. -/
def serveTests (fuel : Nat) (x : Server × List EdgeTest) (input : Platform × ServerEvent) : Server × List EdgeTest :=
  ((x.1.handle input.1 fuel input.2).map fun m => (m.server, x.2 ++ m.tests)).getD x

theorem trace_serveTests {fuel : Nat} {x : Server × List EdgeTest} {inputs : List (Platform × ServerEvent)}
    (h : EachStep (fun x input _ => x.1.Served fuel input) x (runTrace (serveTests fuel) x inputs)) :
    Trace TestStep x (runTrace (serveTests fuel) x inputs) := by
  induction inputs generalizing x with
  | nil => exact .nil x
  | cons input inputs ih =>
    obtain ⟨m, hm⟩ := Option.isSome_iff_exists.mp h.1.2
    exact .cons ⟨h.1.1, fuel, m, hm, by rw [serveTests, hm]; rfl⟩ (ih h.2)

/-- The right edge of a screen leads to one screen in its upper half and to another
in its lower half; switches are delayed. -/
def splitEdge : Config :=
  let screens := ((Config.empty.addScreen ['a']).bind (·.addScreen ['b'])).bind (·.addScreen ['c'])
  let upper := screens.bind (·.connect ['a'] .right ⟨0, 1 / 2, by norm_num, by norm_num, by norm_num⟩ ['b'] .full)
  let lower := upper.bind (·.connect ['a'] .right ⟨1 / 2, 1, by norm_num, by norm_num, by norm_num⟩ ['c'] .full)
  (lower.bind (·.addOption [] kOptionScreenSwitchDelay 250)).getD .empty

/-- All three screens are connected. -/
def splitServer : Server :=
  ((new .still splitEdge ⟨0, ['a']⟩).adoptClient .still ⟨1, ['b']⟩).adoptClient .still ⟨2, ['c']⟩

/-- The cursor waits at the upper half until the wait ends. -/
theorem switches_aimed_upper :
    Always WaitAimed (runTrace (serveTests 4) (splitServer, [])
      [(.still, .motionPrimary 99 10), (.still, .switchWaitTimeout)]) := by
  have hg : ∀ (s : Server) (ev : ServerEvent), (∀ edge ∈ s.firstEdge .still ev, s.switchDir ≠ some edge.1) →
      s.KeepsAim (.still, ev) := fun s ev h dir p hedge hr => absurd hr.1 (h (dir, p) hedge)
  have hr : Trace TestStep (splitServer, []) (runTrace (serveTests 4) (splitServer, [])
      [(.still, .motionPrimary 99 10), (.still, .switchWaitTimeout)]) := trace_serveTests (by decide +kernel)
  exact (switches_aimed (by decide +kernel) hr
    ⟨hg _ _ (by decide +kernel), hg _ _ (by decide +kernel), trivial⟩).1

/-- The cursor touches the upper half, goes back and touches the lower half: the wait
is for the upper screen and a position on the lower one. -/
theorem switches_not_aimed :
    ¬ ∀ (s : Server) (tr : List ((Platform × ServerEvent) × (Server × List EdgeTest))), s.mSwitchScreen = none →
      s.switchWaitTimer = false → 0 < s.switchWaitDelay → Trace TestStep (s, []) tr → Always WaitAimed tr := by
  intro h
  have hrun := h splitServer (runTrace (serveTests 4) (splitServer, [])
    [(.still, .motionPrimary 99 10), (.still, .motionPrimary 50 50), (.still, .motionPrimary 99 90)])
    (by decide +kernel) (by decide +kernel) (by decide +kernel) (trace_serveTests (by decide +kernel))
  let x := [(Platform.still, ServerEvent.motionPrimary 99 10), (.still, .motionPrimary 50 50),
    (.still, .motionPrimary 99 90)].foldl (serveTests 4) (splitServer, [])
  have haimed : WaitAimed x := hrun ((.still, .motionPrimary 99 90), x) (by simp [runTrace, x])
  obtain ⟨t, ht, -, -, hp⟩ := haimed (by decide +kernel)
  have hno : ∀ t ∈ x.2, x.1.pending ≠ (t.newScreen, t.x, t.y) := by decide +kernel
  exact hno t ht hp

end Server
end Synergy
