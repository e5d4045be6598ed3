import Mathlib.Tactic.SplitIfs
import Synergy.Server.EventSharing

/-! Two states that only differ in what the clipboards hold go on in the same way while
sharing is off. -/
namespace Synergy
open Synergy.Lib

/-- The same answers, but for the clipboards. -/
@[simps] def Platform.withClipboards (e : Platform) (k : BaseClientProxy → ClipboardID → Str) : Platform :=
  { e with clipboard := k }

namespace Server
variable {e : Platform} {s t u : Server} (k : BaseClientProxy → ClipboardID → Str) (c : Contents)

@[simp] theorem call_withContents (s : Server) (client : BaseClientProxy) (m : Call) :
    (s.withContents c).call client m = (s.call client m).withContents c := rfl

@[simp] theorem stopSwitch_withContents (s : Server) : (s.withContents c).stopSwitch = s.stopSwitch.withContents c := by
  unfold stopSwitch
  simp only [withContents_mSwitchScreen]
  split <;> rfl

@[simp] theorem noSwitch_withContents (s : Server) (x y : Int) :
    (s.withContents c).noSwitch (e.withClipboards k) x y = (s.noSwitch e x y).withContents c := by
  have harm : (s.withContents c).armSwitchTwoTap (e.withClipboards k) x y = (s.armSwitchTwoTap e x y).withContents c := by
    unfold armSwitchTwoTap
    simp only [withContents_switchTwoTapEngaged, withContents_switchTwoTapArmed, withContents_switchTwoTapDelay,
      withContents_active, withContents_switchDir, Platform.withClipboards_shape, Platform.withClipboards_jumpZoneSize,
      show (s.withContents c).switchTwoTapTime (e.withClipboards k) = s.switchTwoTapTime e from rfl]
    split_ifs
    · rfl
    · rfl
    · rfl
    · split <;> rfl
    · rfl
  rw [noSwitch, harm]
  rfl

@[simp] theorem aimAndWait_withContents (s : Server) (newScreen : BaseClientProxy) (dir : Direction) (x y : Int) :
    (s.withContents c).aimAndWait (e.withClipboards k) newScreen dir x y =
      ((s.aimAndWait e newScreen dir x y).1.withContents c, (s.aimAndWait e newScreen dir x y).2) := by
  have haim : (s.withContents c).aimSwitch newScreen dir = (s.aimSwitch newScreen dir).withContents c := by
    unfold aimSwitch
    simp only [withContents_switchDir, withContents_mSwitchScreen]
    split <;> rfl
  have htap : ∀ (s : Server) isNewDirection, (s.withContents c).testTwoTap (e.withClipboards k) isNewDirection =
      ((s.testTwoTap e isNewDirection).1.withContents c, (s.testTwoTap e isNewDirection).2) := by
    intro s isNewDirection
    unfold testTwoTap
    simp only [withContents_switchTwoTapDelay, show (s.withContents c).isSwitchTwoTapStarted = s.isSwitchTwoTapStarted from rfl,
      show (s.withContents c).shouldSwitchTwoTap (e.withClipboards k) = s.shouldSwitchTwoTap e from rfl]
    split_ifs <;> rfl
  have hwait : ∀ (s : Server) isNewDirection allowSwitch preventSwitch,
      (s.withContents c).testWait isNewDirection allowSwitch preventSwitch x y =
        ((s.testWait isNewDirection allowSwitch preventSwitch x y).1.withContents c,
          (s.testWait isNewDirection allowSwitch preventSwitch x y).2) := by
    intro s isNewDirection allowSwitch preventSwitch
    unfold testWait
    simp only [withContents_switchWaitDelay, show (s.withContents c).isSwitchWaitStarted = s.isSwitchWaitStarted from rfl]
    split_ifs <;> rfl
  unfold aimAndWait
  simp only [withContents_switchDir, haim, htap, hwait]

@[simp] theorem isSwitchOkay_withContents (s : Server) (newScreen : Option BaseClientProxy) (dir : Direction)
    (x y xActive yActive : Int) : (s.withContents c).isSwitchOkay (e.withClipboards k) newScreen dir x y xActive yActive =
      ((s.isSwitchOkay e newScreen dir x y xActive yActive).1.withContents c,
        (s.isSwitchOkay e newScreen dir x y xActive yActive).2) := by
  have hrefuse : ∀ refused (r : Server × Bool), refuseIf refused (r.1.withContents c, r.2) =
      ((refuseIf refused r).1.withContents c, (refuseIf refused r).2) := by
    intro refused r
    unfold refuseIf
    simp only [stopSwitch_withContents]
    split <;> rfl
  have hcorner : ∀ s : Server, (s.withContents c).isInLockedCorner (e.withClipboards k) xActive yActive =
      s.isInLockedCorner e xActive yActive := fun s => rfl
  have hlocked : ∀ s : Server, (s.withContents c).isLockedToScreen (e.withClipboards k) = s.isLockedToScreen e := fun s => rfl
  have hheld : ∀ s : Server, (s.withContents c).modifiersHeld (e.withClipboards k) = s.modifiersHeld e := fun s => rfl
  unfold isSwitchOkay
  cases newScreen with
  | none => simp only [stopSwitch_withContents]
  | some newScreen => simp only [aimAndWait_withContents, hcorner, hrefuse, hlocked, hheld]

@[simp] theorem leaveBorder_withContents (s : Server) :
    (s.withContents c).leaveBorder (e.withClipboards k) = (s.leaveBorder e).withContents c := by
  unfold leaveBorder
  simp only [withContents_mSwitchScreen, withContents_x, withContents_y, noSwitch_withContents,
    show (s.withContents c).clearWait (e.withClipboards k) = s.clearWait e from rfl]
  split <;> rfl

@[simp] theorem clampMove_withContents (s : Server) (xOld yOld dx dy : Int) :
    (s.withContents c).clampMove (e.withClipboards k) xOld yOld dx dy = (s.clampMove e xOld yOld dx dy).withContents c := by
  unfold clampMove
  refine Eq.trans ?_ (apply_ite (fun t : Server => t.withContents c) _ _ _).symm
  rfl

@[simp] theorem stopRelativeMoves_withContents (s : Server) :
    (s.withContents c).stopRelativeMoves (e.withClipboards k) = (s.stopRelativeMoves e).withContents c := by
  unfold stopRelativeMoves
  simp only [withContents_relativeMoves, withContents_active, withContents_primaryClient, Platform.withClipboards_shape]
  split <;> rfl

@[simp] theorem takeCursorPos_withContents (s : Server) (client : BaseClientProxy) :
    (s.withContents c).takeCursorPos (e.withClipboards k) client = (s.takeCursorPos e client).withContents c := by
  unfold takeCursorPos
  simp only [withContents_active, Platform.withClipboards_cursorPos]
  split <;> rfl

@[simp] theorem relayKey_withContents (s : Server) (screens : Option Str) (m : Call) :
    (s.withContents c).relayKey screens m = (s.relayKey screens m).withContents c := by
  unfold relayKey
  simp only [withContents_keyboardBroadcasting]
  split <;> rfl

@[simp] theorem sendLocalFiles_withContents (s : Server) (paths : List Str) :
    (s.withContents c).sendLocalFiles paths = (s.sendLocalFiles paths).withContents c := by
  unfold sendLocalFiles
  split <;> rfl

@[simp] theorem moved_withContents (s : Server) (x y : Int) :
    (s.withContents c).moved x y = (s.moved x y).withContents c := by
  unfold moved
  rw [stopSwitch_withContents]
  rfl

@[simp] theorem left_withContents (s : Server) (x y : Int) :
    (s.withContents c).left (e.withClipboards k) x y = (s.left e x y).withContents c := by
  unfold left
  rw [moved_withContents]
  refine Eq.trans ?_ (apply_ite (fun t : Server => t.withContents c) _ _ _).symm
  rw [← sendLocalFiles_withContents]
  rfl

section removal

private theorem eraseClient_eq (s : Server) (client : BaseClientProxy) :
    s.eraseClient client = { s with
      clients := s.clients.erase (s.getName client)
      clientSet := s.clientSet.erase client
      clipboards := fun id => { s.clipboards id with
        owner := if (s.clipboards id).owner = s.getName client then s.getName s.primaryClient
          else (s.clipboards id).owner } } := by
  have howner : ∀ id, (if (s.clipboards id).owner = s.getName client then
      { s.clipboards id with owner := s.getName s.primaryClient } else s.clipboards id) =
      { s.clipboards id with owner := if (s.clipboards id).owner = s.getName client then s.getName s.primaryClient
        else (s.clipboards id).owner } := by
    intro id
    split <;> rfl
  unfold eraseClient
  dsimp only
  rw [funext howner]

theorem eraseClient_withContents (s : Server) (client : BaseClientProxy) :
    (s.withContents c).eraseClient client = (s.eraseClient client).withContents c := by
  rw [eraseClient_eq, eraseClient_eq]
  rfl

theorem removeClient_withContents (s : Server) (client : BaseClientProxy) :
    (s.withContents c).removeClient client = (s.removeClient client).map (·.withContents c) := by
  unfold removeClient
  rw [eraseClient_withContents]
  simp only [withContents_clientSet]
  split
  · rfl
  · simp only [withContents_mSwitchScreen, stopSwitch_withContents, Option.map_some]
    split <;> rfl

private theorem ite_withContents {p : Prop} [Decidable p] {t t' u u' : Server} (ht : t' = t.withContents c)
    (hu : u' = u.withContents c) : (if p then t' else u') = (if p then t else u).withContents c := by
  split
  · exact ht
  · exact hu

theorem handleLockCursorToScreenEvent_withContents (s : Server) (mode : InputFilter.Mode) :
    (s.withContents c).handleLockCursorToScreenEvent (e.withClipboards k) mode =
      (s.handleLockCursorToScreenEvent e mode).withContents c := by
  let stop (t : Server) : Server := if !t.isLockedToScreenServer then t.stopRelativeMoves e else t
  have hstop : ∀ t : Server, (if !t.isLockedToScreenServer then (t.withContents c).stopRelativeMoves (e.withClipboards k)
      else t.withContents c) = (stop t).withContents c :=
    fun t => ite_withContents c (stopRelativeMoves_withContents k c t) rfl
  unfold handleLockCursorToScreenEvent
  exact ite_withContents c rfl (hstop { s with lockedToScreen := applyMode mode s.lockedToScreen }.reconfigure)

private theorem ite_pair {p : Prop} [Decidable p] {r r' q q' : Server × Bool} (hr : r' = r.map (·.withContents c) id)
    (hq : q' = q.map (·.withContents c) id) : (if p then r' else q') = (if p then r else q).map (·.withContents c) id := by
  split
  · exact hr
  · exact hq

private theorem fallBack_withContents (s : Server) (client : BaseClientProxy) :
    (s.withContents c).fallBack (e.withClipboards k) client = (s.fallBack e client).withContents c := by
  let enter (t : Server) : Server :=
    let t := { t with active := t.primaryClient }
    if t.activeSaver = none then t.call t.primaryClient (.enter t.x t.y t.seqNum e.toggleMask false) else t
  have hstop : ∀ t : Server, (if t.mSwitchScreen = some client then (t.withContents c).stopSwitch else t.withContents c) =
      (if t.mSwitchScreen = some client then t.stopSwitch else t).withContents c :=
    fun t => ite_withContents c (stopSwitch_withContents c t) rfl
  have henter : ∀ t : Server, enter (t.withContents c) = (enter t).withContents c := fun t => ite_withContents c rfl rfl
  exact (congrArg enter (hstop { s with x := e.cursorCenter.1, y := e.cursorCenter.2 })).trans (henter _)

theorem forceLeaveClient_withContents (s : Server) (client : BaseClientProxy) :
    (s.withContents c).forceLeaveClient (e.withClipboards k) client = (s.forceLeaveClient e client).withContents c := by
  let forget (t : Server) : Server := (if t.activeSaver = some client then { t with activeSaver := none } else t).reconfigure
  have hback : (if s.activeSaver.getD s.active = client then (s.withContents c).fallBack (e.withClipboards k) client
      else s.withContents c) = (if s.activeSaver.getD s.active = client then s.fallBack e client else s).withContents c :=
    ite_withContents c (fallBack_withContents k c s client) rfl
  have hsaver : ∀ t : Server, (if t.activeSaver = some client then { t.withContents c with activeSaver := none }
      else t.withContents c) = (if t.activeSaver = some client then { t with activeSaver := none } else t).withContents c :=
    fun t => ite_withContents c rfl rfl
  have hforget : ∀ t : Server, forget (t.withContents c) = (forget t).withContents c :=
    fun t => congrArg reconfigure (hsaver t)
  exact (congrArg forget hback).trans (hforget _)

theorem closeClient_withContents (s : Server) (client : BaseClientProxy) :
    (s.withContents c).closeClient (e.withClipboards k) client = (s.closeClient e client).withContents c := by
  have hremove : ∀ t : Server, ((t.withContents c).removeClient client).getD (t.withContents c) =
      ((t.removeClient client).getD t).withContents c := by
    intro t
    rw [removeClient_withContents]
    cases t.removeClient client <;> rfl
  have hleave : ∀ t : Server, { t.withContents c with oldClients := insert client t.oldClients }.forceLeaveClient
      (e.withClipboards k) client =
        ({ t with oldClients := insert client t.oldClients }.forceLeaveClient e client).withContents c :=
    fun t => forceLeaveClient_withContents k c { t with oldClients := insert client t.oldClients } client
  unfold closeClient
  dsimp only
  rw [call_withContents, hremove]
  exact hleave _

private theorem foldl_withContents {α : Type*} {f f' : Server → α → Server}
    (h : ∀ (s : Server) a, f' (s.withContents c) a = (f s a).withContents c) (l : List α) (s : Server) :
    l.foldl f' (s.withContents c) = (l.foldl f s).withContents c := by
  induction l generalizing s with
  | nil => rfl
  | cons a l ih => rw [List.foldl_cons, h, ih, List.foldl_cons]

theorem closeClients_withContents (s : Server) (config : Config) :
    (s.withContents c).closeClients (e.withClipboards k) config = (s.closeClients e config).withContents c :=
  foldl_withContents c (closeClient_withContents k c) _ s

theorem handleClientDisconnected_withContents (s : Server) (client : BaseClientProxy) :
    (s.withContents c).handleClientDisconnected (e.withClipboards k) client =
      (s.handleClientDisconnected e client).withContents c := by
  unfold handleClientDisconnected removeActiveClient
  rw [removeClient_withContents]
  cases s.removeClient client with
  | none => rfl
  | some t =>
    dsimp only [Option.map_some]
    rw [forceLeaveClient_withContents]
    rfl

theorem processOptions_withContents (s : Server) :
    (s.withContents c).processOptions (e.withClipboards k) = (s.processOptions e).withContents c := by
  have hoption : ∀ (s : Server) newRelativeMoves option, processOption (s.withContents c, newRelativeMoves) option =
      (processOption (s, newRelativeMoves) option).map (·.withContents c) id := by
    intro s newRelativeMoves option
    unfold processOption
    dsimp only
    repeat' refine ite_pair c ?_ ?_
    all_goals rfl
  have hall : ∀ (options : List (OptionID × OptionValue)) (s : Server) newRelativeMoves,
      options.foldl processOption (s.withContents c, newRelativeMoves) =
        (options.foldl processOption (s, newRelativeMoves)).map (·.withContents c) id := by
    intro options
    induction options with
    | nil => exact fun _ _ => rfl
    | cons option options ih =>
      intro s newRelativeMoves
      rw [List.foldl_cons, List.foldl_cons, hoption]
      exact ih _ _
  have hrelative : ∀ (s : Server) newRelativeMoves, (s.withContents c).setRelativeMoves (e.withClipboards k) newRelativeMoves =
      (s.setRelativeMoves e newRelativeMoves).withContents c := by
    intro s newRelativeMoves
    unfold setRelativeMoves
    rw [stopRelativeMoves_withContents]
    simp only [withContents_relativeMoves]
    split <;> rfl
  have hclear : (s.withContents c).clearSwitchNeeds = s.clearSwitchNeeds.withContents c := rfl
  unfold processOptions
  simp only [hclear, withContents_config, withContents_relativeMoves, hall, Prod.map_fst, Prod.map_snd, hrelative, id]

theorem setConfig_withContents (s : Server) :
    (s.withContents c).setConfig (e.withClipboards k) = (s.setConfig e).withContents c := by
  have hrule : ∀ s : Server, (s.withContents c).addScrollLockRule = s.addScrollLockRule.withContents c := by
    intro s
    unfold addScrollLockRule
    simp only [withContents_disableLockToScreen, withContents_config]
    split <;> rfl
  have hsend : ∀ (s : Server) client, (s.withContents c).sendOptions client = (s.sendOptions client).withContents c :=
    fun _ _ => rfl
  unfold setConfig
  refine ite_withContents c rfl ?_
  dsimp only
  rw [withContents_config, closeClients_withContents, processOptions_withContents, hrule]
  generalize (processOptions e (closeClients e s s.config)).addScrollLockRule = t
  exact foldl_withContents c hsend (t.clients.entries.map Prod.snd) t.reconfigure

theorem adoptClient_withContents (s : Server) (client : BaseClientProxy) :
    (s.withContents c).adoptClient (e.withClipboards k) client = (s.adoptClient e client).withContents c := by
  have hadd : (s.withContents c).addClient (e.withClipboards k) client = (s.addClient e client).map (·.withContents c) := by
    unfold addClient
    simp only [withContents_clients, show (s.withContents c).getName client = s.getName client from rfl]
    split <;> rfl
  unfold adoptClient
  rw [hadd, closeClient_withContents]
  refine ite_withContents c rfl ?_
  cases s.addClient e client with
  | none => rfl
  | some t => exact ite_withContents c rfl rfl

end removal

end Server
end Synergy
