import Synergy.Server.NeighborLanding
import Synergy.Server.Step

/-! How a handler moves the focus: what it keeps of the table of clients, where the
pointers may lead after it and what a running wait is for. -/
namespace Synergy
open Synergy.Lib

namespace Server

/-- The same clients under the same names, some of which may have come to own a
clipboard. Only the rules of the configuration may have changed. -/
structure SameTable (s t : Server) : Prop where
  primaryClient : t.primaryClient = s.primaryClient
  config : ∃ rules, t.config = { s.config with inputFilter := rules }
  clients : t.clients = s.clients
  clientSet : t.clientSet = s.clientSet
  oldClients : t.oldClients = s.oldClients
  owner : ∀ id, (t.clipboards id).owner = (s.clipboards id).owner ∨
    ∃ c ∈ s.clientSet, (t.clipboards id).owner = s.getName c

/-- One of the three pointers is set to the client. -/
def Points (s : Server) (c : BaseClientProxy) : Prop := s.active = c ∨ s.activeSaver = some c ∨ s.mSwitchScreen = some c

/-- A client is listed under some name. -/
def Connected (s : Server) (c : BaseClientProxy) : Prop := ∃ name, s.clients.get? name = some c

/-- The pending switch: the screen and the position that a wait is for. -/
def pending (s : Server) : Option BaseClientProxy × Int × Int := (s.mSwitchScreen, s.switchWaitX, s.switchWaitY)

/-- The timer only runs while switches are delayed and one is pending. -/
def WaitSound (s : Server) : Prop := s.switchWaitTimer = true → 0 < s.switchWaitDelay ∧ s.mSwitchScreen ≠ none

/-- A wait that runs afterwards ran before for the same switch or is for a switch
that `aim` admits. -/
def KeepsWait (aim : Option BaseClientProxy × Int × Int → Prop) (s t : Server) : Prop :=
  s.WaitSound → t.WaitSound ∧ (t.switchWaitTimer = true → s.switchWaitTimer = true ∧ t.pending = s.pending ∨ aim t.pending)

/-- The table stays, new pointers lead to destinations only and new waits are for
what is aimed at. -/
structure Moves (dst : BaseClientProxy → Prop) (aim : Option BaseClientProxy × Int × Int → Prop) (s t : Server) : Prop
    extends SameTable s t where
  points : ∀ c, t.Points c → s.Points c ∨ dst c
  wait : KeepsWait aim s t

/-- All that this is about. -/
def core (s : Server) :=
  (s.primaryClient, { s.config with inputFilter := [] }, s.clients, s.clientSet, s.oldClients,
    fun id => (s.clipboards id).owner, s.active, s.activeSaver, s.pending, s.switchWaitTimer, s.switchWaitDelay)

variable {e : Platform} {s t u : Server} {dst : BaseClientProxy → Prop} {aim : Option BaseClientProxy × Int × Int → Prop}

namespace SameTable

theorem refl (s : Server) : SameTable s s := ⟨rfl, ⟨_, rfl⟩, rfl, rfl, rfl, fun _ => .inl rfl⟩

theorem getName (h : SameTable s t) (c : BaseClientProxy) : t.getName c = s.getName c := by
  obtain ⟨rules, hr⟩ := h.config
  simp only [Server.getName, hr]
  rfl

theorem trans (h : SameTable s t) (k : SameTable t u) : SameTable s u := by
  refine ⟨k.primaryClient.trans h.primaryClient, ?_, k.clients.trans h.clients, k.clientSet.trans h.clientSet,
    k.oldClients.trans h.oldClients, fun id => ?_⟩
  · obtain ⟨rules, hr⟩ := h.config
    obtain ⟨rules', hr'⟩ := k.config
    exact ⟨rules', by rw [hr', hr]⟩
  · rcases k.owner id with ho | ⟨c, hc, ho⟩
    · rw [ho]
      exact h.owner id
    · exact .inr ⟨c, h.clientSet ▸ hc, ho.trans (h.getName c)⟩

theorem connected (h : SameTable s t) (c : BaseClientProxy) : t.Connected c ↔ s.Connected c := by
  rw [Connected, Connected, h.clients]

end SameTable

namespace KeepsWait

theorem of_eq (hp : t.pending = s.pending) (ht : t.switchWaitTimer = s.switchWaitTimer)
    (hd : t.switchWaitDelay = s.switchWaitDelay) : KeepsWait aim s t := by
  have hscreen : t.mSwitchScreen = s.mSwitchScreen := congrArg Prod.fst hp
  intro hs
  rw [WaitSound, ht, hd, hscreen]
  exact ⟨hs, fun hrun => .inl ⟨hrun, hp⟩⟩

theorem of_stopped (ht : t.switchWaitTimer = false) : KeepsWait aim s t := fun _ =>
  ⟨fun hrun => (Bool.false_ne_true (ht.symm.trans hrun)).elim, fun hrun => (Bool.false_ne_true (ht.symm.trans hrun)).elim⟩

theorem trans (h : KeepsWait aim s t) (k : KeepsWait aim t u) : KeepsWait aim s u := by
  intro hs
  obtain ⟨ht, h⟩ := h hs
  obtain ⟨hu, k⟩ := k ht
  refine ⟨hu, fun hrun => ?_⟩
  rcases k hrun with ⟨hrun', hp⟩ | ha
  · rw [hp]
    exact h hrun'
  · exact .inr ha

theorem imp {aim' : Option BaseClientProxy × Int × Int → Prop} (ha : ∀ p, aim p → aim' p) (h : KeepsWait aim s t) :
    KeepsWait aim' s t :=
  fun hs => ⟨(h hs).1, fun hrun => ((h hs).2 hrun).imp_right (ha _)⟩

end KeepsWait

namespace Moves

theorem refl (s : Server) : Moves dst aim s s := ⟨.refl s, fun _ => .inl, .of_eq rfl rfl rfl⟩

theorem trans (h : Moves dst aim s t) (k : Moves dst aim t u) : Moves dst aim s u :=
  ⟨h.toSameTable.trans k.toSameTable, fun c hc => (k.points c hc).elim (h.points c) .inr, h.wait.trans k.wait⟩

theorem imp {dst' : BaseClientProxy → Prop} {aim' : Option BaseClientProxy × Int × Int → Prop} (hd : ∀ c, dst c → dst' c)
    (ha : ∀ p, aim p → aim' p) (h : Moves dst aim s t) : Moves dst' aim' s t :=
  ⟨h.toSameTable, fun c hc => (h.points c hc).imp_right (hd c), h.wait.imp ha⟩

theorem imp_dst {dst' : BaseClientProxy → Prop} (hd : ∀ c, dst c → dst' c) (h : Moves dst aim s t) :
    Moves dst' aim s t :=
  h.imp hd fun _ => id

/-- Nothing that this is about changes. -/
theorem of_still (h : t.core = s.core) : Moves dst aim s t := by
  simp only [core, Prod.mk.injEq] at h
  obtain ⟨hprimary, hconfig, hclients, hset, hold, howner, hactive, hsaver, hpending, htimer, hdelay⟩ := h
  have hscreen : t.mSwitchScreen = s.mSwitchScreen := congrArg Prod.fst hpending
  refine ⟨⟨hprimary, ⟨t.config.inputFilter, ?_⟩, hclients, hset, hold, fun id => .inl (congrFun howner id)⟩,
    fun c hc => .inl ?_, .of_eq hpending htimer hdelay⟩
  · exact congrArg (fun c : Config => { c with inputFilter := t.config.inputFilter }) hconfig
  · rwa [Points, hactive, hsaver, hscreen] at hc

theorem ite {p : Prop} [Decidable p] (ht : Moves dst aim s t) (hu : Moves dst aim s u) :
    Moves dst aim s (if p then t else u) := by
  split
  · exact ht
  · exact hu

theorem foldl {α : Type*} {f : Server → α → Server} (h : ∀ s a, Moves dst aim s (f s a)) (l : List α) (s : Server) :
    Moves dst aim s (l.foldl f s) := by
  induction l generalizing s with
  | nil => exact refl s
  | cons a l ih => exact (h s a).trans (ih (f s a))

end Moves

end Server
end Synergy

/-! How the parts of a switch move the focus: stopping, aiming, waiting and the
switch itself, with what happens to the clipboards on the way. -/
namespace Synergy
open Synergy.Lib

namespace Server
variable {e : Platform} {s t u : Server} {dst : BaseClientProxy → Prop} {aim : Option BaseClientProxy × Int × Int → Prop}

section quiet
variable (dst)

theorem call_moves (s : Server) (c : BaseClientProxy) (m : Call) : Moves dst aim s (s.call c m) :=
  .of_still rfl

theorem callEach_moves (s : Server) (m : BaseClientProxy → Call) : Moves dst aim s (s.callEach m) :=
  .of_still rfl

theorem reconfigure_moves (s : Server) : Moves dst aim s s.reconfigure := call_moves dst s _ _

theorem stopSwitch_moves (s : Server) : Moves dst aim s s.stopSwitch := by
  unfold stopSwitch
  split
  · exact .refl s
  · refine ⟨⟨rfl, ⟨_, rfl⟩, rfl, rfl, rfl, fun _ => .inl rfl⟩, fun c hc => .inl ?_, .of_stopped rfl⟩
    rcases hc with hc | hc | hc
    · exact .inl hc
    · exact .inr (.inl hc)
    · cases hc

@[simp] theorem stopSwitch_mSwitchScreen (s : Server) : s.stopSwitch.mSwitchScreen = none := by
  unfold stopSwitch
  split
  · assumption
  · rfl

/-- Arming a double tap touches nothing but the tap. -/
theorem armSwitchTwoTap_eq (s : Server) (x y : Int) : ∃ engaged armed,
    s.armSwitchTwoTap e x y = { s with switchTwoTapEngaged := engaged, switchTwoTapArmed := armed } := by
  unfold armSwitchTwoTap
  dsimp only
  split
  · exact ⟨_, _, rfl⟩
  split
  · exact ⟨_, _, rfl⟩
  split
  · exact ⟨_, _, rfl⟩
  split
  · split <;> exact ⟨_, _, rfl⟩
  · exact ⟨_, _, rfl⟩

theorem armSwitchTwoTap_moves (s : Server) (x y : Int) : Moves dst aim s (s.armSwitchTwoTap e x y) := by
  obtain ⟨engaged, armed, h⟩ := s.armSwitchTwoTap_eq x y
  rw [h]
  exact .of_still rfl

theorem stopSwitchWait_moves (s : Server) : Moves dst aim s s.stopSwitchWait :=
  ⟨⟨rfl, ⟨_, rfl⟩, rfl, rfl, rfl, fun _ => .inl rfl⟩, fun _ => .inl, .of_stopped rfl⟩

theorem noSwitch_moves (s : Server) (x y : Int) : Moves dst aim s (s.noSwitch e x y) :=
  (armSwitchTwoTap_moves dst s x y).trans (stopSwitchWait_moves dst _)

theorem onClipboardChanged_moves (s : Server) (sender : BaseClientProxy) (id : ClipboardID) (seqNum : UInt32) :
    Moves dst aim s (s.onClipboardChanged e sender id seqNum) := by
  have howner : ∀ data data', (fun j => (Function.update s.clipboards id
      { s.clipboards id with clipboard := data, data := data' } j).owner) = fun j => (s.clipboards j).owner := by
    intro data data'
    funext j
    by_cases hj : j = id
    · subst hj
      rw [Function.update_self]
    · rw [Function.update_of_ne hj]
  have hstill : ∀ data data', Moves dst aim s { s with
      clipboards := Function.update s.clipboards id { s.clipboards id with clipboard := data, data := data' } } := by
    intro data data'
    refine .of_still ?_
    unfold core
    dsimp only
    rw [howner data data']
    rfl
  unfold onClipboardChanged
  dsimp only
  refine .ite (.refl s) (.ite (.refl s) (.ite (hstill _ _) (.ite (hstill _ _) ?_)))
  refine Moves.trans ?_ (Moves.trans (callEach_moves dst _ _) (call_moves dst _ _ _))
  rw [Function.update_idem]
  exact hstill _ _

theorem sendLocalFiles_moves (s : Server) (paths : List Str) : Moves dst aim s (s.sendLocalFiles paths) :=
  .ite (.refl s) (.of_still rfl)

theorem updateClipboards_moves (s : Server) : Moves dst aim s (s.updateClipboards e) :=
  .foldl (fun s _ => .ite (onClipboardChanged_moves dst s _ _ _) (.refl s)) _ _

theorem sendClipboards_moves (s : Server) : Moves dst aim s s.sendClipboards :=
  .foldl (fun s _ => .ite (.refl s) (call_moves dst s _ _)) _ _

theorem clampMove_moves (s : Server) (xOld yOld dx dy : Int) : Moves dst aim s (s.clampMove e xOld yOld dx dy) := by
  have hclamp : ∀ x y, Moves dst aim s { s with x := x, y := y } := fun x y =>
    .of_still rfl
  unfold clampMove
  exact (hclamp _ _).trans (.ite (call_moves dst _ _ _) (.refl _))

theorem stopRelativeMoves_moves (s : Server) : Moves dst aim s (s.stopRelativeMoves e) :=
  .ite (.of_still rfl) (.refl s)

theorem sendOptions_moves (s : Server) (client : BaseClientProxy) : Moves dst aim s (s.sendOptions client) :=
  (call_moves dst s _ _).trans (call_moves dst _ _ _)

variable {dst}

theorem Moves.refuseIf {r : Server × Bool} (h : Moves dst aim s r.1) (refused : Bool) :
    Moves dst aim s (Server.refuseIf refused r).1 := by
  unfold Server.refuseIf
  split
  · exact h.trans (stopSwitch_moves dst r.1)
  · exact h

end quiet

theorem cutOver_moves (s : Server) (d : BaseClientProxy) (x y : Int) (forScreensaver : Bool) :
    Moves (· = d) aim s (s.cutOver e d x y forScreensaver) := by
  have hactive : Moves (· = d) aim s { s with active := d, seqNum := s.seqNum + 1 } := by
    refine ⟨⟨rfl, ⟨_, rfl⟩, rfl, rfl, rfl, fun _ => .inl rfl⟩, fun c hc => ?_, .of_eq rfl rfl rfl⟩
    rcases hc with hc | hc
    · exact .inr hc.symm
    · exact .inl (.inr hc)
  unfold cutOver
  exact hactive.trans ((call_moves _ _ _ _).trans (.ite (sendClipboards_moves _ _) (.refl _)))

/-- The focus goes to the destination or stays. -/
theorem switchScreen_moves (s : Server) (d : BaseClientProxy) (x y : Int) (forScreensaver : Bool) :
    Moves (· = d) aim s (s.switchScreen e d x y forScreensaver) := by
  have hstart : Moves (· = d) aim s { s.stopSwitch with
      x := x, y := y, xDelta := 0, yDelta := 0, xDelta2 := 0, yDelta2 := 0 } :=
    (stopSwitch_moves _ s).trans (.of_still rfl)
  unfold switchScreen
  refine hstart.trans (.ite (call_moves _ _ _ _) ((call_moves _ _ _ _).trans (.ite (.refl _) ?_)))
  refine Moves.trans ?_ (cutOver_moves _ d x y forScreensaver)
  exact Moves.trans (.ite (sendLocalFiles_moves _ _ _) (.refl _)) (.ite (updateClipboards_moves _ _) (.refl _))

theorem jumpToScreen_moves (s : Server) (newScreen : BaseClientProxy) :
    Moves (· = newScreen) aim s (s.jumpToScreen e newScreen) := by
  unfold jumpToScreen
  refine Moves.trans ?_ (switchScreen_moves _ newScreen _ _ _)
  exact .of_still rfl

/-- The double tap has come and the switch needs no wait. -/
def DoubleTapped (e : Platform) (s : Server) : Prop :=
  0 < s.switchTwoTapDelay ∧ s.isSwitchTwoTapStarted = true ∧ s.shouldSwitchTwoTap e = true

/-- A test at an edge in this direction starts a new wait for the pending switch. -/
def Rewaits (e : Platform) (s : Server) (dir : Direction) : Prop :=
  s.switchDir = some dir ∧ s.mSwitchScreen ≠ none ∧ s.switchWaitTimer = false ∧ 0 < s.switchWaitDelay ∧ ¬ s.DoubleTapped e

/-- What a wait is for that a test starts at an edge. -/
def AimedAt (e : Platform) (s : Server) (newScreen : Option BaseClientProxy) (dir : Direction) (x y : Int)
    (p : Option BaseClientProxy × Int × Int) : Prop :=
  newScreen ≠ none ∧ (p = (newScreen, x, y) ∨ s.Rewaits e dir ∧ p = (s.mSwitchScreen, x, y))

private theorem testTwoTap_eq (s : Server) (isNewDirection : Bool) : ∃ engaged armed timer,
    (s.testTwoTap e isNewDirection).1 = { s with
      switchTwoTapEngaged := engaged, switchTwoTapArmed := armed, switchTwoTapTimer := timer } ∧
    ((s.testTwoTap e isNewDirection).2.1 = true ↔ isNewDirection = false ∧ s.DoubleTapped e) := by
  unfold testTwoTap DoubleTapped
  split_ifs with hd ht
  · refine ⟨_, _, _, rfl, iff_of_false (by simp) ?_⟩
    rintro ⟨rfl, -, hs, hn⟩
    simp [hs, hn] at ht
  · refine ⟨_, _, _, rfl, iff_of_true rfl ?_⟩
    simpa [hd, and_assoc] using ht
  · exact ⟨_, _, _, rfl, iff_of_false (by simp) (by simp [hd])⟩

private theorem testWait_cases (s : Server) (isNewDirection allowSwitch preventSwitch : Bool) (x y : Int) :
    (s.testWait isNewDirection allowSwitch preventSwitch x y).1 = s.startSwitchWait x y ∧ allowSwitch = false ∧
        0 < s.switchWaitDelay ∧ (isNewDirection = true ∨ s.switchWaitTimer = false) ∨
      (s.testWait isNewDirection allowSwitch preventSwitch x y).1 = s ∧
        (0 < s.switchWaitDelay → isNewDirection = true → allowSwitch = true) := by
  unfold testWait isSwitchWaitStarted
  cases allowSwitch <;> cases isNewDirection <;> by_cases hd : 0 < s.switchWaitDelay <;>
    cases ht : s.switchWaitTimer <;> simp [hd]

/-- A new direction, or none pending: the wait is for the new screen. -/
private theorem aimAndWait_new {s : Server} {n : BaseClientProxy} {dir : Direction} (x y : Int)
    (haim : s.switchDir ≠ some dir ∨ s.mSwitchScreen = none) :
    Moves (· = n) (s.AimedAt e (some n) dir x y) s (s.aimAndWait e n dir x y).1 := by
  have heq : s.aimSwitch n dir = { s with switchDir := some dir, mSwitchScreen := some n } := if_pos haim
  obtain ⟨engaged, armed, timer, htap, hallow⟩ := testTwoTap_eq (e := e)
    { s with switchDir := some dir, mSwitchScreen := some n } (decide (s.switchDir ≠ some dir))
  have hpoints : ∀ {c}, s.active = c ∨ s.activeSaver = some c ∨ some n = some c → s.Points c ∨ c = n := by
    rintro c (hc | hc | hc)
    · exact .inl (.inl hc)
    · exact .inl (.inr (.inl hc))
    · exact .inr (Option.some.inj hc).symm
  unfold aimAndWait
  dsimp only
  rw [heq, htap]
  rcases testWait_cases { s with
      switchDir := some dir, mSwitchScreen := some n, switchTwoTapEngaged := engaged, switchTwoTapArmed := armed,
      switchTwoTapTimer := timer } (decide (s.switchDir ≠ some dir)) _ _ x y with ⟨hw, -, hd, -⟩ | ⟨hw, hskip⟩
  · rw [hw]
    exact ⟨⟨rfl, ⟨_, rfl⟩, rfl, rfl, rfl, fun _ => .inl rfl⟩, fun c hc => hpoints hc,
      fun _ => ⟨fun _ => ⟨hd, Option.some_ne_none n⟩, fun _ => .inr ⟨Option.some_ne_none n, .inl rfl⟩⟩⟩
  · rw [hw]
    refine ⟨⟨rfl, ⟨_, rfl⟩, rfl, rfl, rfl, fun _ => .inl rfl⟩, fun c hc => hpoints hc, fun hs => ?_⟩
    -- a wait that ran before has been started again
    have hoff : s.switchWaitTimer = false := by
      by_contra hrun
      obtain ⟨hd, hscreen⟩ := hs (by simpa using hrun)
      have hnew : decide (s.switchDir ≠ some dir) = true := decide_eq_true (haim.resolve_right hscreen)
      have hnot := (hallow.mp (hskip hd hnew)).1
      simp [hnew] at hnot
    exact KeepsWait.of_stopped hoff hs

/-- The pending direction: a wait that does not run yet is for the pending screen. -/
private theorem aimAndWait_pending {s : Server} (n : BaseClientProxy) {dir : Direction} (x y : Int)
    (hdir : s.switchDir = some dir) (hscreen : s.mSwitchScreen ≠ none) :
    Moves (· = n) (s.AimedAt e (some n) dir x y) s (s.aimAndWait e n dir x y).1 := by
  have heq : s.aimSwitch n dir = s := if_neg (by simp [hdir, hscreen])
  have hnew : decide (s.switchDir ≠ some dir) = false := by simp [hdir]
  unfold aimAndWait
  dsimp only
  rw [heq, hnew]
  obtain ⟨engaged, armed, timer, htap, hallow⟩ := testTwoTap_eq (e := e) s false
  generalize s.testTwoTap e false = r at htap hallow
  rw [htap]
  rcases testWait_cases { s with
      switchTwoTapEngaged := engaged, switchTwoTapArmed := armed, switchTwoTapTimer := timer }
    false r.2.1 r.2.2 x y with ⟨hw, hno, hd, hoff⟩ | ⟨hw, -⟩
  · have htapped : ¬ s.DoubleTapped e := fun htap => by
      rw [hallow.mpr ⟨rfl, htap⟩] at hno
      cases hno
    have hrewaits : s.Rewaits e dir := ⟨hdir, hscreen, hoff.resolve_left Bool.false_ne_true, hd, htapped⟩
    rw [hw]
    exact ⟨⟨rfl, ⟨_, rfl⟩, rfl, rfl, rfl, fun _ => .inl rfl⟩, fun c => .inl,
      fun _ => ⟨fun _ => ⟨hd, hscreen⟩, fun _ => .inr ⟨Option.some_ne_none n, .inr ⟨hrewaits, rfl⟩⟩⟩⟩
  · rw [hw]
    exact .of_still rfl

theorem aimAndWait_switchDir (s : Server) (n : BaseClientProxy) (dir : Direction) (x y : Int) :
    (s.aimAndWait e n dir x y).1.switchDir = some dir := by
  have haim : (s.aimSwitch n dir).switchDir = some dir := by
    unfold aimSwitch
    split
    · rfl
    · rename_i hno
      push Not at hno
      exact hno.1
  obtain ⟨engaged, armed, timer, htap, -⟩ := testTwoTap_eq (e := e) (s.aimSwitch n dir) (decide (s.switchDir ≠ some dir))
  unfold aimAndWait
  dsimp only
  rcases testWait_cases _ (decide (s.switchDir ≠ some dir)) _ _ x y with ⟨hw, -⟩ | ⟨hw, -⟩
  · rw [hw, htap]
    exact haim
  · rw [hw, htap]
    exact haim

theorem isSwitchOkay_moves (s : Server) (newScreen : Option BaseClientProxy) (dir : Direction)
    (x y xActive yActive : Int) : Moves (fun c => newScreen = some c) (s.AimedAt e newScreen dir x y) s
      (s.isSwitchOkay e newScreen dir x y xActive yActive).1 := by
  cases newScreen with
  | none => exact stopSwitch_moves _ s
  | some n =>
    have hsome : ∀ c, c = n → some n = some c := fun c hc => congrArg some hc.symm
    have haim : Moves (fun c => some n = some c) (s.AimedAt e (some n) dir x y) s (s.aimAndWait e n dir x y).1 := by
      by_cases hnew : s.switchDir ≠ some dir ∨ s.mSwitchScreen = none
      · exact (aimAndWait_new x y hnew).imp hsome fun _ => id
      · push Not at hnew
        exact (aimAndWait_pending n x y hnew.1 hnew.2).imp hsome fun _ => id
    unfold isSwitchOkay
    exact Moves.refuseIf (Moves.refuseIf (Moves.refuseIf haim _) _) _

end Server
end Synergy
