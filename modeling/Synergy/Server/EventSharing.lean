import Synergy.Server.Passages

/-! What any event comes to as far as the clipboards are concerned: nothing, one
switch between screens, or clients coming and going. -/
namespace Synergy
open Synergy.Lib

namespace Server
variable {e : Platform} {s t u : Server}

/-- Nothing is told of the clipboards and what they hold stays, and the cursor stays
or goes back to the primary screen. -/
structure Settles (s t : Server) : Prop where
  hushed : s.Hushed t
  contents : t.contents = s.contents
  primaryClient : t.primaryClient = s.primaryClient
  active : t.active = s.active ∨ t.active = s.primaryClient

theorem Steady.settles (h : s.Steady t) : s.Settles t := ⟨h.hushed, h.contents, h.primaryClient, .inl h.active⟩

namespace Settles

theorem refl (s : Server) : s.Settles s := (Steady.refl s).settles

theorem trans (h : s.Settles t) (k : t.Settles u) : s.Settles u := by
  refine ⟨h.hushed.trans k.hushed, k.contents.trans h.contents, k.primaryClient.trans h.primaryClient, ?_⟩
  rcases k.active with hk | hk
  · exact hk ▸ h.active
  · exact .inr (hk.trans h.primaryClient)

theorem of_still (hcalls : t.calls = s.calls) (hcontents : t.contents = s.contents)
    (hprimary : t.primaryClient = s.primaryClient) (hactive : t.active = s.active) : s.Settles t :=
  ⟨.of_eq hcalls, hcontents, hprimary, .inl hactive⟩

theorem ite {p : Prop} [Decidable p] (ht : s.Settles t) (hu : s.Settles u) : s.Settles (if p then t else u) := by
  split
  · exact ht
  · exact hu

theorem foldl {α : Type*} {f : Server → α → Server} (h : ∀ (s : Server) a, s.Settles (f s a)) (l : List α) (s : Server) :
    s.Settles (l.foldl f s) := by
  induction l generalizing s with
  | nil => exact refl s
  | cons a l ih => exact (h s a).trans (ih (f s a))

end Settles

private theorem call_settles (s : Server) (c : BaseClientProxy) {m : Call} (h : m.isSetClipboard = false) :
    s.Settles (s.call c m) :=
  (call_steady s c h).settles

theorem reconfigure_settles (s : Server) : s.Settles s.reconfigure := call_settles s _ rfl

theorem sendOptions_settles (s : Server) (client : BaseClientProxy) : s.Settles (s.sendOptions client) :=
  (call_settles s _ rfl).trans (call_settles _ _ rfl)

/-- Only the owners of clipboards change when a client goes. -/
theorem eraseClient_settles (s : Server) (client : BaseClientProxy) : s.Settles (s.eraseClient client) := by
  refine .of_still rfl ?_ rfl rfl
  funext id
  unfold Server.contents eraseClient
  dsimp only
  split <;> rfl

theorem removeClient_settles {client : BaseClientProxy} (h : s.removeClient client = some t) : s.Settles t := by
  unfold removeClient at h
  split at h
  · cases h
  · obtain rfl := Option.some.inj h
    exact (eraseClient_settles s client).trans (.ite (stopSwitch_calm _).steady.settles (.refl _))

theorem forceLeaveClient_settles (s : Server) (client : BaseClientProxy) : s.Settles (s.forceLeaveClient e client) := by
  have hsaver : ∀ s : Server, s.Settles { s with activeSaver := none } := fun s => .of_still rfl rfl rfl rfl
  have hback : s.Settles (s.fallBack e client) := by
    have hcenter : s.Settles { s with x := e.cursorCenter.1, y := e.cursorCenter.2 } := .of_still rfl rfl rfl rfl
    have hprimary : ∀ s : Server, s.Settles { s with active := s.primaryClient } :=
      fun s => ⟨.of_eq rfl, rfl, rfl, .inr rfl⟩
    unfold fallBack
    refine hcenter.trans (Settles.trans ?_ (.ite (call_settles _ _ rfl) (.refl _)))
    refine Settles.trans ?_ (hprimary _)
    exact .ite (stopSwitch_calm _).steady.settles (.refl _)
  have hleft : s.Settles (if s.activeSaver.getD s.active = client then s.fallBack e client else s) :=
    .ite hback (.refl s)
  unfold forceLeaveClient
  refine Settles.trans ?_ (reconfigure_settles _)
  exact hleft.trans (.ite (hsaver _) (.refl _))

theorem closeClient_settles (s : Server) (client : BaseClientProxy) : s.Settles (s.closeClient e client) := by
  have hremove : (s.call client .close).Settles (((s.call client .close).removeClient client).getD (s.call client .close)) := by
    cases h : (s.call client .close).removeClient client with
    | none => exact .refl _
    | some t => exact removeClient_settles h
  have hold : ∀ s : Server, s.Settles { s with oldClients := insert client s.oldClients } :=
    fun s => .of_still rfl rfl rfl rfl
  unfold closeClient
  exact (call_settles s client rfl).trans (hremove.trans ((hold _).trans (forceLeaveClient_settles _ client)))

theorem closeClients_settles (s : Server) (config : Config) : s.Settles (s.closeClients e config) :=
  .foldl (fun s client => closeClient_settles s client) _ s

theorem handleClientDisconnected_settles (s : Server) (client : BaseClientProxy) :
    s.Settles (s.handleClientDisconnected e client) := by
  have hold : ∀ s : Server, s.Settles (s.removeOldClient client) := fun s => .of_still rfl rfl rfl rfl
  unfold handleClientDisconnected removeActiveClient
  split
  · exact hold s
  · rename_i h
    exact ((removeClient_settles h).trans (forceLeaveClient_settles _ client)).trans (hold _)

theorem processOptions_settles (s : Server) : s.Settles (s.processOptions e) := by
  have hoption : ∀ (r : Server × Bool) option, r.1.Settles (processOption r option).1 := by
    intro r option
    unfold processOption
    dsimp only
    repeat' refine iteInduction (motive := fun q : Server × Bool => r.1.Settles q.1) (fun _ => ?_) (fun _ => ?_)
    all_goals exact .of_still rfl rfl rfl rfl
  exact processOptions_rule .refl (fun _ _ _ => .trans) (fun _ => .of_still rfl rfl rfl rfl) hoption
    (fun s => (stopRelativeMoves_calm s).steady.settles) (fun _ _ => .of_still rfl rfl rfl rfl) s

theorem setConfig_settles (s : Server) : s.Settles (s.setConfig e) := by
  have hrule : ∀ s : Server, s.Settles s.addScrollLockRule := fun s => .ite (.of_still rfl rfl rfl rfl) (.refl s)
  unfold setConfig
  refine iteInduction (fun _ => .refl s) fun _ => ?_
  refine Settles.trans ?_ (.foldl (fun s client => sendOptions_settles s client) _ _)
  refine Settles.trans ?_ (reconfigure_settles _)
  exact ((closeClients_settles s _).trans (processOptions_settles _)).trans (hrule _)

theorem adoptClient_settles (s : Server) (client : BaseClientProxy) : s.Settles (s.adoptClient e client) := by
  unfold adoptClient
  refine .ite (closeClient_settles s client) ?_
  split
  · exact closeClient_settles s client
  · rename_i u h
    have hadd : s.Settles u := by
      unfold addClient at h
      dsimp only at h
      split at h
      · cases h
      · obtain rfl := Option.some.inj h
        refine Settles.trans ?_ (reconfigure_settles _)
        exact .of_still rfl rfl rfl rfl
    exact hadd.trans ((sendOptions_settles u client).trans (.ite (call_settles _ _ rfl) (.refl _)))

/-- The cursor and the clients may move; what a clipboard holds is told by one switch only. -/
inductive Course (e : Platform) (s t : Server) : Prop
  | settled (h : s.Settles t)
  | switched (u : Server) (dst : BaseClientProxy) (x y : Int) (forScreensaver : Bool) (hu : s.Steady u)
      (ht : (u.switchScreen e dst x y forScreensaver).Steady t)

namespace Course

theorem steady (h : s.Steady t) : s.Course e t := .settled h.settles

theorem of_passage (h : s.Passage e t) : s.Course e t := by
  cases h with
  | calm h => exact steady h.steady
  | switched u dst x y forScreensaver hu ht => exact .switched u dst x y forScreensaver hu.steady ht.steady

end Course

/-- Nothing of the clipboards is told, or the primary screen is left with one changed. -/
theorem Course.hushed_iff (he : e.Marshalled) (hoff : s.SharingOff) (hs : s.Filled) (h : s.Course e t) :
    s.Appends t ∧ (s.Hushed t ↔ ¬ LeavesChanged e s t) := by
  cases h with
  | settled h =>
    refine ⟨h.hushed.1, iff_of_true h.hushed fun hl => hl.2.1 ?_⟩
    exact h.active.elim (·.trans hl.1) id
  | switched u dst x y forScreensaver hu ht =>
    obtain ⟨happ, hiff⟩ := switchScreen_hushed_iff he (hu.sharingOff_iff.mpr hoff) (hu.filled hs) dst x y forScreensaver
    have hpart : s.Hushed t ↔ u.Hushed (u.switchScreen e dst x y forScreensaver) :=
      ⟨fun h => ((h.parts hu.hushed.1 (happ.trans ht.hushed.1)).2.parts happ ht.hushed.1).1,
        fun h => hu.hushed.trans (h.trans ht.hushed)⟩
    have henable : u.enableClipboard = s.enableClipboard := congrArg (·.2.2.2.2.2.1) hu.sharing
    refine ⟨hu.hushed.1.trans (happ.trans ht.hushed.1), hpart.trans (hiff.trans (not_congr ?_))⟩
    unfold LeavesChanged
    rw [hu.active, hu.primaryClient, henable, ht.active, hu.anyPrimaryChanged_iff]

theorem Course.filled (he : e.Marshalled) (hs : s.Filled) (h : s.Course e t) : t.Filled := by
  cases h with
  | settled h => exact fun id => h.contents.symm ▸ hs id
  | switched u dst x y forScreensaver hu ht => exact ht.filled (switchScreen_filled he (hu.filled hs) dst x y forScreensaver)

/-- Every event that is not about a clipboard takes such a course. -/
theorem handle_course {fuel : Nat} {ev : ServerEvent} {m : Motion}
    (hgrabbed : ∀ client id sequenceNumber, ev ≠ .clipboardGrabbed client id sequenceNumber)
    (hchanged : ∀ client id sequenceNumber, ev ≠ .clipboardChanged client id sequenceNumber)
    (h : s.handle e fuel ev = some m) : s.Course e m.server := by
  by_cases hq : ev.Quiet
  · exact .of_passage (handle_passage hq hgrabbed hchanged h)
  cases ev with
  | adoptClient client =>
    obtain rfl := Option.some.inj h
    exact .settled (adoptClient_settles s client)
  | clientDisconnected client =>
    obtain rfl := Option.some.inj h
    exact .settled (handleClientDisconnected_settles s client)
  | clientCloseTimeout client =>
    obtain rfl := Option.some.inj h
    exact .steady (.of_still rfl rfl)
  | reloadConfig config =>
    obtain rfl := Option.some.inj h
    have hreplace : s.Settles { s with config := config } := .of_still rfl rfl rfl rfl
    exact .settled (hreplace.trans (setConfig_settles _))
  | disconnect =>
    obtain rfl := Option.some.inj h
    exact .settled (.ite (closeClients_settles s _) (.refl s))
  | _ => exact absurd trivial hq

end Server
end Synergy
