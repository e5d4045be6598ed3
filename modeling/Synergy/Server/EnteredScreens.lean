import Mathlib.Data.Option.Basic
import Synergy.Server.FocusSafety
import Synergy.Server.Passages

/-! Which screens are entered, going by what each of them has been told: how a switch
and the loss of a client change it, and that nothing else does. -/
namespace Synergy
open Synergy.Lib

/-- The screens that are entered once one has been told something, or nothing when a
screen is entered twice or left without having been entered. -/
def crossed (entered : Finset BaseClientProxy) : BaseClientProxy × Call → Option (Finset BaseClientProxy)
  | (client, .enter _ _ _ _ _) => if client ∈ entered then none else some (insert client entered)
  | (client, .leave left) =>
    if client ∈ entered then some (if left then entered.erase client else entered) else none
  | _ => some entered

/-- The same after all that has been told. -/
def enteredAfter (entered : Finset BaseClientProxy) (calls : List (BaseClientProxy × Call)) :
    Option (Finset BaseClientProxy) :=
  calls.foldlM crossed entered

theorem crossed_of_not_crossing {entered : Finset BaseClientProxy} {x : BaseClientProxy × Call}
    (h : x.2.isCrossing = false) : crossed entered x = some entered := by
  obtain ⟨client, m⟩ := x
  cases m with
  | enter x y seqNum mask forScreensaver => cases h
  | leave left => cases h
  | _ => rfl

theorem enteredAfter_append (entered : Finset BaseClientProxy) (calls calls' : List (BaseClientProxy × Call)) :
    enteredAfter entered (calls ++ calls') = (enteredAfter entered calls).bind (enteredAfter · calls') :=
  List.foldlM_append

theorem enteredAfter_of_not_crossing {entered : Finset BaseClientProxy} {calls : List (BaseClientProxy × Call)}
    (h : ∀ x ∈ calls, x.2.isCrossing = false) : enteredAfter entered calls = some entered := by
  induction calls with
  | nil => rfl
  | cons x calls ih =>
    rw [enteredAfter, List.foldlM_cons, crossed_of_not_crossing (h x List.mem_cons_self)]
    exact ih fun y hy => h y (List.mem_cons_of_mem x hy)

namespace Server
variable {e : Platform} {s t u : Server} {c : BaseClientProxy} {entered entered' entered'' : Finset BaseClientProxy}

/-- What is told between two states takes the entered screens from one set to another. -/
def Crosses (entered entered' : Finset BaseClientProxy) (s t : Server) : Prop :=
  s.Appends t ∧ enteredAfter entered (callsSince s t) = some entered'

theorem Crosses.trans (h : Crosses entered entered' s t) (k : Crosses entered' entered'' t u) :
    Crosses entered entered'' s u := by
  refine ⟨h.1.trans k.1, ?_⟩
  rw [h.1.callsSince_trans k.1, enteredAfter_append, h.2, Option.bind_some]
  exact k.2

theorem Crosses.of_calls {l : List (BaseClientProxy × Call)} (h : t.calls = s.calls ++ l)
    (hl : enteredAfter entered l = some entered') : Crosses entered entered' s t := by
  refine ⟨.of_calls h, ?_⟩
  rwa [callsSince, h, List.drop_left]

theorem SaysNo.crosses (h : SaysNo Call.isCrossing s t) (entered : Finset BaseClientProxy) :
    Crosses entered entered s t := by
  obtain ⟨l, hcalls, hl⟩ := h
  exact .of_calls hcalls (enteredAfter_of_not_crossing hl)

/-- The active screen stays and no screen is entered or left. -/
structure Unmoved (s t : Server) : Prop where
  active : t.active = s.active
  told : SaysNo Call.isCrossing s t

namespace Unmoved

theorem of_still (hactive : t.active = s.active) (hcalls : t.calls = s.calls) : s.Unmoved t := ⟨hactive, .of_eq hcalls⟩

theorem refl (s : Server) : s.Unmoved s := .of_still rfl rfl

theorem trans (h : s.Unmoved t) (k : t.Unmoved u) : s.Unmoved u := ⟨k.active.trans h.active, h.told.trans k.told⟩

theorem ite {p : Prop} [Decidable p] (ht : s.Unmoved t) (hu : s.Unmoved u) : s.Unmoved (if p then t else u) := by
  split
  · exact ht
  · exact hu

theorem foldl {α : Type*} {f : Server → α → Server} (h : ∀ (s : Server) a, s.Unmoved (f s a)) (l : List α)
    (s : Server) : s.Unmoved (l.foldl f s) := by
  induction l generalizing s with
  | nil => exact refl s
  | cons a l ih => exact (h s a).trans (ih (f s a))

theorem crosses (h : s.Unmoved t) (entered : Finset BaseClientProxy) : Crosses entered entered s t := h.told.crosses entered

end Unmoved

theorem Calm.unmoved (h : s.Calm t) : s.Unmoved t := ⟨h.steady.active, h.crossing⟩

theorem call_unmoved (s : Server) (client : BaseClientProxy) {m : Call} (h : m.isCrossing = false) :
    s.Unmoved (s.call client m) := ⟨rfl, .call s client h⟩

theorem callEach_unmoved (s : Server) {m : BaseClientProxy → Call} (h : ∀ c, (m c).isCrossing = false) :
    s.Unmoved (s.callEach m) := ⟨rfl, .callEach s h⟩

theorem onClipboardChanged_unmoved (s : Server) (sender : BaseClientProxy) (id : ClipboardID) (seqNum : UInt32) :
    s.Unmoved (s.onClipboardChanged e sender id seqNum) := by
  rcases onClipboardChanged_cases (e := e) s sender id seqNum with ⟨-, c, h, -⟩ | ⟨-, h⟩
  · rw [h]
    exact .of_still rfl rfl
  · rw [h]
    refine Unmoved.trans ?_ (call_unmoved _ _ rfl)
    refine Unmoved.trans ?_ (callEach_unmoved _ fun _ => rfl)
    exact .of_still rfl rfl

theorem handleClipboardGrabbed_unmoved (s : Server) (grabber : BaseClientProxy) (id : ClipboardID)
    (sequenceNumber : UInt32) : s.Unmoved (s.handleClipboardGrabbed e grabber id sequenceNumber) := by
  have hassign : s.Unmoved (s.assignClipboard grabber id sequenceNumber) := .of_still rfl rfl
  have htell : ∀ s : Server, s.Unmoved
      (s.callEach fun client => if client = grabber then .setClipboardDirty id false else .grabClipboard id) := by
    refine fun s => callEach_unmoved s fun client => ?_
    split <;> rfl
  unfold handleClipboardGrabbed
  refine .ite (.refl s) (.ite (.refl s) (.ite (.refl s) ?_))
  exact (hassign.trans (htell _)).trans (.ite (onClipboardChanged_unmoved _ _ _ _) (.refl _))

theorem updateClipboards_unmoved (s : Server) : s.Unmoved (s.updateClipboards e) :=
  .foldl (fun s _ => .ite (onClipboardChanged_unmoved s _ _ _) (.refl s)) _ _

theorem sendClipboards_unmoved (s : Server) : s.Unmoved s.sendClipboards :=
  .foldl (fun s _ => .ite (.refl s) (call_unmoved s _ rfl)) _ _

theorem sendOptions_unmoved (s : Server) (client : BaseClientProxy) : s.Unmoved (s.sendOptions client) :=
  (call_unmoved s _ rfl).trans (call_unmoved _ _ rfl)

theorem processOptions_unmoved (s : Server) : s.Unmoved (s.processOptions e) := by
  have hoption : ∀ (r : Server × Bool) option, r.1.Unmoved (processOption r option).1 := by
    intro r option
    unfold processOption
    dsimp only
    repeat' refine iteInduction (motive := fun q : Server × Bool => r.1.Unmoved q.1) (fun _ => ?_) (fun _ => ?_)
    all_goals exact .of_still rfl rfl
  exact processOptions_rule .refl (fun _ _ _ => .trans) (fun _ => .of_still rfl rfl) hoption
    (fun s => (stopRelativeMoves_calm s).unmoved) (fun _ _ => .of_still rfl rfl) s

/-- Once the dropped clients are closed a new configuration takes the cursor nowhere. -/
theorem setConfig_unmoved (h : s.config.isScreen s.primaryClient.name = true) :
    (s.closeClients e s.config).Unmoved (s.setConfig e) := by
  have hrule : ∀ s : Server, s.Unmoved s.addScrollLockRule := fun s => .ite (.of_still rfl rfl) (.refl s)
  unfold setConfig
  rw [h]
  refine Unmoved.trans ?_ (.foldl (fun s client => sendOptions_unmoved s client) _ _)
  refine Unmoved.trans ?_ (call_unmoved _ _ rfl)
  exact (processOptions_unmoved _).trans (hrule _)

theorem addClient_unmoved (h : s.addClient e c = some t) : s.Unmoved t := by
  unfold addClient at h
  dsimp only at h
  split at h
  · cases h
  · obtain rfl := Option.some.inj h
    refine Unmoved.trans ?_ (call_unmoved _ _ rfl)
    exact .of_still rfl rfl

/-- Nor does a server take the cursor anywhere as it starts. -/
theorem new_unmoved (e : Platform) (config : Config) (primaryClient : BaseClientProxy) :
    (initial config primaryClient).Unmoved (new e config primaryClient) := by
  obtain ⟨t, ht, -⟩ := addClient_spec (s := initial config primaryClient) (c := primaryClient) e rfl
  have hset : t.Unmoved (t.setConfig e) := by
    cases hscreen : t.config.isScreen t.primaryClient.name with
    | false => exact (setConfig_refused hscreen).symm ▸ .refl t
    | true =>
      have hafter : (t.closeClients e t.config).Unmoved (t.setConfig e) := setConfig_unmoved hscreen
      rwa [initial_closeClients e ht] at hafter
  unfold new
  dsimp only
  rw [ht, Option.getD_some]
  refine ((addClient_unmoved ht).trans hset).trans ?_
  exact .of_still rfl rfl

/-- A switch leaves the active screen and enters the other, or the cursor stays. -/
theorem switchScreen_crosses (s : Server) (dst : BaseClientProxy) (x y : Int) (forScreensaver : Bool)
    (h : s.active ∈ entered) :
    (s.switchScreen e dst x y forScreensaver).active = s.active ∧
        Crosses entered entered s (s.switchScreen e dst x y forScreensaver) ∨
      s.active ≠ dst ∧ (s.switchScreen e dst x y forScreensaver).active = dst ∧
        (dst ∉ entered → Crosses entered (insert dst (entered.erase s.active)) s
          (s.switchScreen e dst x y forScreensaver)) := by
  have hmoved := (moved_calm s x y).unmoved
  rw [switchScreen_eq]
  by_cases hdst : s.active = dst
  · rw [if_pos hdst]
    have hstay := hmoved.trans (call_unmoved _ dst (m := .mouseMove x y) rfl)
    exact .inl ⟨hstay.active, hstay.crosses entered⟩
  rw [if_neg hdst]
  by_cases hleaves : s.leaves e s.active = true
  swap
  · rw [if_neg hleaves]
    refine .inl ⟨hmoved.active, (hmoved.crosses entered).trans (.of_calls rfl ?_)⟩
    simp [enteredAfter, crossed, h]
  rw [if_pos hleaves]
  have hleave : Crosses entered (entered.erase s.active) s (s.left e x y) := by
    have htold : Crosses entered (entered.erase s.active) (s.moved x y) ((s.moved x y).call s.active (.leave true)) :=
      .of_calls rfl (by simp [enteredAfter, crossed, h])
    have hfiles : ((s.moved x y).call s.active (.leave true)).Unmoved (s.left e x y) :=
      .ite (sendLocalFiles_calm _ _).unmoved (.refl _)
    exact (hmoved.crosses entered).trans (htold.trans (hfiles.crosses _))
  have hupdate : (s.left e x y).Unmoved (if s.active = s.primaryClient ∧ s.enableClipboard = true then
      (s.left e x y).updateClipboards e else s.left e x y) := .ite (updateClipboards_unmoved _) (.refl _)
  generalize (if s.active = s.primaryClient ∧ s.enableClipboard = true then
    (s.left e x y).updateClipboards e else s.left e x y) = u at hupdate
  have hsend : Unmoved ({ u with active := dst, seqNum := u.seqNum + 1 }.call dst
      (.enter x y (u.seqNum + 1) e.toggleMask forScreensaver)) (u.cutOver e dst x y forScreensaver) := by
    unfold cutOver
    exact .ite (sendClipboards_unmoved _) (.refl _)
  refine .inr ⟨hdst, hsend.active, fun hnew => ?_⟩
  have henter : Crosses (entered.erase s.active) (insert dst (entered.erase s.active)) u
      ({ u with active := dst, seqNum := u.seqNum + 1 }.call dst
        (.enter x y (u.seqNum + 1) e.toggleMask forScreensaver)) := by
    refine .of_calls rfl ?_
    simp [enteredAfter, crossed, hnew]
  exact (hleave.trans (hupdate.crosses _)).trans (henter.trans (hsend.crosses _))

end Server
end Synergy
