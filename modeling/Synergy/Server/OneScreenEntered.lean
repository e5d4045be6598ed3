import Synergy.Server.EnteredScreens

/-! Exactly one of the connected screens is entered and it is the active one, unless a
client goes away while the screen saver remembers a screen and a hotkey has moved on. -/
namespace Synergy
open Synergy.Lib

namespace Server
variable {e : Platform} {s t : Server} {c : BaseClientProxy} {entered entered' : Finset BaseClientProxy}

/-- Of the connected screens the active one is entered and no other. -/
def Focused (entered : Finset BaseClientProxy) (s : Server) : Prop := s.clientSet ∩ entered = {s.active}

instance : Decidable (Focused entered s) := inferInstanceAs (Decidable (_ = _))

/-- Who is taken out is listed under the name it has then. While the screen saver
remembers a screen, the client with the cursor is not among them, and the remembered
one only if the cursor is on the primary screen. -/
structure GivesBack (s : Server) (ev : ServerEvent) : Prop where
  listed : ∀ c ∈ s.takenOut ev, s.clients.get? ((s.configUnder ev).getName c) = some c
  saver : ∀ c ∈ s.activeSaver, s.active ∉ s.takenOut ev ∧ (c ∈ s.takenOut ev → s.active = s.primaryClient)

instance (s : Server) (ev : ServerEvent) : Decidable (s.GivesBack ev) :=
  decidable_of_iff ((∀ c ∈ s.takenOut ev, s.clients.get? ((s.configUnder ev).getName c) = some c) ∧
    ∀ c ∈ s.activeSaver, s.active ∉ s.takenOut ev ∧ (c ∈ s.takenOut ev → s.active = s.primaryClient))
    ⟨fun h => ⟨h.1, h.2⟩, fun h => ⟨h.1, h.2⟩⟩

theorem GivesBack.leavesCleanly {ev : ServerEvent} (h : s.GivesBack ev) : s.LeavesCleanly ev :=
  ⟨h.listed, fun ha c hc => absurd ha (h.saver c hc).1⟩

namespace Focused

theorem active (h : Focused entered s) : s.active ∈ s.clientSet ∧ s.active ∈ entered := by
  have hmem : s.active ∈ s.clientSet ∩ entered := by
    rw [h]
    exact Finset.mem_singleton_self _
  exact Finset.mem_inter.mp hmem

theorem eq_active (h : Focused entered s) (hc : c ∈ s.clientSet) (he : c ∈ entered) : c = s.active := by
  have hmem : c ∈ s.clientSet ∩ entered := Finset.mem_inter.mpr ⟨hc, he⟩
  rw [h] at hmem
  exact Finset.mem_singleton.mp hmem

theorem of_iff (h : ∀ d, d ∈ s.clientSet ∧ d ∈ entered ↔ d = s.active) : Focused entered s := by
  ext d
  rw [Finset.mem_inter, Finset.mem_singleton]
  exact h d

theorem iff_active (h : Focused entered s) (d : BaseClientProxy) : d ∈ s.clientSet ∧ d ∈ entered ↔ d = s.active := by
  rw [← Finset.mem_inter, h, Finset.mem_singleton]

theorem unmoved (h : Focused entered s) (hu : s.Unmoved t) (hset : t.clientSet = s.clientSet) : Focused entered t := by
  rw [Focused, hset, hu.active]
  exact h

/-- The cursor goes to another connected screen. -/
theorem switched (h : Focused entered s) (hset : t.clientSet = s.clientSet)
    (ht : t.active ∈ t.clientSet) : Focused (insert t.active (entered.erase s.active)) t := by
  refine of_iff fun d => ?_
  rw [Finset.mem_insert, Finset.mem_erase]
  constructor
  · rintro ⟨hd, hd' | ⟨hda, hde⟩⟩
    · exact hd'
    · exact absurd (h.eq_active (hset ▸ hd) hde) hda
  · rintro rfl
    exact ⟨ht, .inl rfl⟩

end Focused

/-- The saved screen and the clients that are still to be taken out. -/
def SaverReady (l : List BaseClientProxy) (s : Server) : Prop :=
  ∀ c, s.activeSaver = some c → s.active ∉ l ∧ (c ∈ l → s.active = s.primaryClient)

theorem removeClient_unmoved (h : s.removeClient c = some t) : s.Unmoved t := by
  have herase : s.Unmoved (s.eraseClient c) := .of_still rfl rfl
  unfold removeClient at h
  split at h
  · cases h
  · obtain rfl := Option.some.inj h
    exact herase.trans (.ite (stopSwitch_calm _).unmoved (.refl _))

/-- The primary screen is entered if the client had the cursor and no screen is saved. -/
def enteredWithout (entered : Finset BaseClientProxy) (s : Server) (c : BaseClientProxy) : Finset BaseClientProxy :=
  if s.activeSaver = none ∧ s.active = c then insert s.primaryClient entered else entered

private theorem stopped_spec (s : Server) (p : Prop) [Decidable p] : s.Unmoved (if p then s.stopSwitch else s) ∧
    (if p then s.stopSwitch else s).activeSaver = s.activeSaver ∧
    (if p then s.stopSwitch else s).primaryClient = s.primaryClient := by
  refine ⟨.ite (stopSwitch_calm s).unmoved (.refl s), ?_⟩
  unfold stopSwitch
  split
  · split <;> exact ⟨rfl, rfl⟩
  · exact ⟨rfl, rfl⟩

private theorem fallBack_crosses (e : Platform) (entered : Finset BaseClientProxy)
    (h : s.activeSaver = none → s.primaryClient ∉ entered) :
    Crosses entered (if s.activeSaver = none then insert s.primaryClient entered else entered) s (s.fallBack e c) := by
  obtain ⟨v, hfall, hv, hsaver, hprimary⟩ : ∃ v : Server, s.fallBack e c = (if v.activeSaver = none then
      { v with active := v.primaryClient }.call v.primaryClient (.enter v.x v.y v.seqNum e.toggleMask false)
      else { v with active := v.primaryClient }) ∧ Unmoved { s with x := e.cursorCenter.1, y := e.cursorCenter.2 } v ∧
      v.activeSaver = s.activeSaver ∧ v.primaryClient = s.primaryClient :=
    ⟨_, rfl, stopped_spec { s with x := e.cursorCenter.1, y := e.cursorCenter.2 } (s.mSwitchScreen = some c)⟩
  have hstart : Crosses entered entered s v :=
    (Unmoved.trans (.of_still rfl rfl) hv).crosses entered
  rw [hfall, hsaver, hprimary]
  refine hstart.trans ?_
  split
  · rename_i hnone
    refine .of_calls (l := [(s.primaryClient, _)]) rfl ?_
    simp [enteredAfter, crossed, h hnone]
  · exact .of_calls (l := []) (List.append_nil _).symm rfl

private theorem forceLeaveClient_crosses (e : Platform) (entered : Finset BaseClientProxy)
    (h : s.activeSaver = none → s.active = c → s.primaryClient ∉ entered) :
    Crosses entered (enteredWithout entered s c) s (s.forceLeaveClient e c) := by
  have hend : ∀ u : Server, u.Unmoved (if u.activeSaver = some c then { u with activeSaver := none } else u).reconfigure :=
    fun u => Unmoved.trans (t := if u.activeSaver = some c then { u with activeSaver := none } else u)
      (.ite (.of_still rfl rfl) (.refl u)) (call_unmoved _ _ rfl)
  unfold forceLeaveClient
  refine Crosses.trans ?_ ((hend _).crosses _)
  cases hv : s.activeSaver with
  | none =>
    rw [Option.getD_none]
    by_cases ha : s.active = c
    · rw [if_pos ha, enteredWithout, if_pos ⟨hv, ha⟩]
      have hback := fallBack_crosses e entered (c := c) fun hv => h hv ha
      rwa [if_pos hv] at hback
    · rw [if_neg ha, enteredWithout, if_neg fun hc => ha hc.2]
      exact (Unmoved.refl s).crosses entered
  | some d =>
    have hnot : enteredWithout entered s c = entered := if_neg (by simp [hv])
    have hback := fallBack_crosses e entered (s := s) (c := c) (by simp [hv])
    rw [if_neg (by simp [hv])] at hback
    rw [hnot, Option.getD_some]
    split
    · exact hback
    · exact (Unmoved.refl s).crosses entered

/-- A client is told to hang up or not before it is taken out. -/
private theorem takeOut_crosses (e : Platform) {u v : Server} (hc : c ∈ s.clientSet) (hu : s.removeClient c = some u)
    (hv : v.calls = u.calls) (hactive : v.active = u.active) (hsaver : v.activeSaver = u.activeSaver)
    (hprimary : v.primaryClient = u.primaryClient) (h : s.activeSaver = none → s.active = c → s.primaryClient ∉ entered) :
    Crosses entered (enteredWithout entered s c) s (v.forceLeaveClient e c) := by
  obtain ⟨w, hw, hl, ha, hs, -⟩ := removeClient_spec hc
  obtain rfl := Option.some.inj (hu.symm.trans hw)
  have hstart : s.Unmoved v := (removeClient_unmoved hu).trans (.of_still hactive hv)
  have hp : v.primaryClient = s.primaryClient := hprimary.trans hl.primaryClient
  have hsame : enteredWithout entered v c = enteredWithout entered s c := by
    rw [enteredWithout, hsaver, hs, hactive, ha, hp]
    rfl
  have hleave := forceLeaveClient_crosses (s := v) (c := c) e entered
    (by rwa [hsaver, hs, hactive, ha, hp])
  rw [hsame] at hleave
  exact (hstart.crosses entered).trans hleave

private theorem closeClient_crosses (e : Platform) (hc : c ∈ s.clientSet)
    (h : s.activeSaver = none → s.active = c → s.primaryClient ∉ entered) :
    Crosses entered (enteredWithout entered s c) s (s.closeClient e c) := by
  have hcall : c ∈ (s.call c .close).clientSet := hc
  obtain ⟨u, hu, -⟩ := removeClient_spec hcall
  have hout : Crosses entered (enteredWithout entered s c) (s.call c .close) (s.closeClient e c) := by
    rw [closeClient, hu, Option.getD_some]
    exact takeOut_crosses e hcall hu rfl rfl rfl rfl h
  exact ((call_unmoved s c rfl).crosses entered).trans hout

private theorem handleClientDisconnected_crosses (e : Platform) (hc : c ∈ s.clientSet)
    (h : s.activeSaver = none → s.active = c → s.primaryClient ∉ entered) :
    Crosses entered (enteredWithout entered s c) s (s.handleClientDisconnected e c) := by
  obtain ⟨u, hu, -⟩ := removeClient_spec hc
  rw [handleClientDisconnected, removeActiveClient, hu]
  exact takeOut_crosses e hc hu rfl rfl rfl rfl h

/-- One client is taken out. -/
private theorem Focused.removed {l : List BaseClientProxy} (h : Focused entered s) (hready : s.SaverReady (c :: l))
    (hprimary : s.primaryClient ∈ s.clientSet) (hne : s.primaryClient ≠ c) (hr : Removed c s t) :
    Focused (enteredWithout entered s c) t ∧ t.SaverReady l := by
  have hset : ∀ d, d ∈ t.clientSet ↔ d ≠ c ∧ d ∈ s.clientSet := fun d => by rw [hr.clientSet, Finset.mem_erase]
  cases hv : s.activeSaver with
  | none =>
    have hactive : t.active = if s.active = c then s.primaryClient else s.active := by rw [hr.active, hv]; rfl
    have hsaver : t.activeSaver = none := by rw [hr.activeSaver, hv, ite_self]
    refine ⟨.of_iff fun d => ?_, by simp [SaverReady, hsaver]⟩
    rw [hset, hactive, enteredWithout]
    by_cases ha : s.active = c
    · rw [if_pos ⟨hv, ha⟩, if_pos ha, Finset.mem_insert]
      constructor
      · rintro ⟨⟨hdc, hd⟩, hp | hde⟩
        · exact hp
        · exact absurd ((h.eq_active hd hde).trans ha) hdc
      · rintro rfl
        exact ⟨⟨hne, hprimary⟩, .inl rfl⟩
    · rw [if_neg fun hc => ha hc.2, if_neg ha, and_assoc, h.iff_active]
      exact and_iff_right_of_imp fun hd => hd ▸ ha
  | some v =>
    obtain ⟨hstay, hback⟩ := hready v hv
    have hac : s.active ≠ c := fun hc => hstay (hc ▸ List.mem_cons_self)
    -- the cursor is on the primary screen if the saved one goes
    have hactive : t.active = s.active := by
      rw [hr.active, hv, Option.getD_some]
      by_cases hvc : v = c
      · rw [if_pos hvc, hback (hvc ▸ List.mem_cons_self)]
      · rw [if_neg hvc]
    refine ⟨.of_iff fun d => ?_, fun d hd => ?_⟩
    · rw [hset, hactive, enteredWithout, if_neg (by simp [hv]), and_assoc, h.iff_active]
      exact and_iff_right_of_imp fun hd => hd ▸ hac
    · rw [hr.activeSaver] at hd
      have hds : s.activeSaver = some d := by
        split at hd
        · cases hd
        · exact hd
      rw [hactive, hr.primaryClient]
      exact ⟨fun hl => (hready d hds).1 (List.mem_cons_of_mem c hl),
        fun hl => (hready d hds).2 (List.mem_cons_of_mem c hl)⟩

/-- Taking a client out that had the cursor leaves the primary screen to be entered. -/
private theorem Focused.primary_free (h : Focused entered s) (hprimary : s.primaryClient ∈ s.clientSet)
    (hne : s.primaryClient ≠ c) : s.activeSaver = none → s.active = c → s.primaryClient ∉ entered :=
  fun _ ha he => hne ((h.eq_active hprimary he).trans ha)

/-- All clients of a list are taken out. -/
private theorem Focused.closeAll (e : Platform) {l : List BaseClientProxy} (hl : Leaving l s) (h : Focused entered s)
    (hready : s.SaverReady l) : ∃ entered', Crosses entered entered' s (l.foldl (fun s c => s.closeClient e c) s) ∧
      Focused entered' (l.foldl (fun s c => s.closeClient e c) s) := by
  induction l generalizing s entered with
  | nil => exact ⟨entered, (Unmoved.refl s).crosses entered, h⟩
  | cons c l ih =>
    have hc : c ∈ s.clientSet := hl.connected c ⟨_, hl.listed c List.mem_cons_self⟩
    have hne : s.primaryClient ≠ c := fun hp => hl.stays (hp ▸ List.mem_cons_self)
    obtain ⟨hr, hold⟩ := closeClient_removed e hc
    obtain ⟨hfocused, hready'⟩ := h.removed hready hl.primary hne hr
    obtain ⟨entered', hcross, hend⟩ := ih (hl.removed hr hold.subset) hfocused hready'
    exact ⟨entered', (closeClient_crosses e hc (h.primary_free hl.primary hne)).trans hcross, hend⟩

private theorem Focused.reloadConfig {config : Config} (hl : Leaving [] s) (h : Focused entered s)
    (hg : s.GivesBack (.reloadConfig config)) : ∃ entered', Crosses entered entered' s (s.reloadConfig e config) ∧
      Focused entered' (s.reloadConfig e config) := by
  have hreplace : s.Unmoved { s with config := config } := .of_still rfl rfl
  unfold Server.reloadConfig
  cases hscreen : config.isScreen s.primaryClient.name with
  | false =>
    rw [setConfig_refused hscreen]
    exact ⟨entered, hreplace.crosses entered, h⟩
  | true =>
    have htaken : s.takenOut (.reloadConfig config) = s.droppedClients config := if_pos hscreen
    have hlisted := hg.listed
    have hsaver := hg.saver
    rw [htaken] at hlisted hsaver
    have hstart : Leaving (s.droppedClients config) { s with config := config } :=
      hl.dropping config config hlisted fun ha c hc => absurd ha (hsaver c hc).1
    have hfocused : Focused entered { s with config := config } := h
    obtain ⟨entered', hcross, hend⟩ := hfocused.closeAll e hstart hsaver
    have htail := setConfig_unmoved (e := e) (s := { s with config := config }) hscreen
    have hmoves : Moves (fun _ => False) (fun _ => False) _ (setConfig e { s with config := config }) :=
      setConfig_moves hscreen
    exact ⟨entered', (hreplace.crosses entered).trans (hcross.trans (htail.crosses entered')),
      hend.unmoved htail hmoves.clientSet⟩

private theorem Focused.disconnect (hl : Leaving [] s) (h : Focused entered s) (hg : s.GivesBack .disconnect) :
    ∃ entered', Crosses entered entered' s (s.disconnect e) ∧ Focused entered' (s.disconnect e) := by
  unfold Server.disconnect
  split
  · rename_i hany
    have htaken : s.takenOut .disconnect = s.droppedClients .empty := if_pos hany
    have hlisted := hg.listed
    have hsaver := hg.saver
    rw [htaken] at hlisted hsaver
    exact h.closeAll e (hl.dropping s.config .empty hlisted fun ha c hc => absurd ha (hsaver c hc).1) hsaver
  · exact ⟨entered, (Unmoved.refl s).crosses entered, h⟩

private theorem Focused.clientDisconnected (hl : Leaving [] s) (h : Focused entered s) (hp : c ≠ s.primaryClient)
    (hg : s.GivesBack (.clientDisconnected c)) : ∃ entered',
      Crosses entered entered' s (s.handleClientDisconnected e c) ∧ Focused entered' (s.handleClientDisconnected e c) := by
  by_cases hc : c ∈ s.clientSet
  · have htaken : s.takenOut (.clientDisconnected c) = [c] := if_pos hc
    have hsaver := hg.saver
    rw [htaken] at hsaver
    have hend := h.removed hsaver hl.primary hp.symm (handleClientDisconnected_removed e hc).1
    exact ⟨_, handleClientDisconnected_crosses e hc (h.primary_free hl.primary hp.symm), hend.1⟩
  · rw [handleClientDisconnected_old e hc]
    exact ⟨entered, Unmoved.crosses (.of_still rfl rfl) entered, h⟩

private theorem adoptClient_unmoved {s : Server} {c : BaseClientProxy} (hset : c ∉ s.clientSet) (ha : s.active ≠ c)
    (hv : s.activeSaver ≠ some c) :
    ∀ entered, Crosses entered entered s (s.adoptClient e c) ∧ (s.adoptClient e c).active = s.active := by
  have hreject : ∀ entered, Crosses entered entered s (s.closeClient e c) ∧ (s.closeClient e c).active = s.active := by
    intro entered
    have hcall : (s.call c .close).removeClient c = none := if_pos hset
    have hstart : s.Unmoved { s.call c .close with oldClients := insert c s.oldClients } :=
      (call_unmoved s c rfl).trans (.of_still rfl rfl)
    have hstay : enteredWithout entered { s.call c .close with oldClients := insert c s.oldClients } c = entered :=
      if_neg fun h => ha h.2
    have hleave := forceLeaveClient_crosses (s := { s.call c .close with oldClients := insert c s.oldClients })
      (c := c) e entered fun _ h => absurd h ha
    rw [hstay] at hleave
    obtain ⟨calls, heq⟩ := closeClient_rejected e hset ha hv
    refine ⟨?_, by rw [heq]⟩
    rw [closeClient, hcall, Option.getD_none]
    exact (hstart.crosses entered).trans hleave
  intro entered
  unfold adoptClient
  split
  · exact hreject entered
  · split
    · exact hreject entered
    · rename_i u h
      have hall : s.Unmoved (if (u.sendOptions c).activeSaver ≠ none then (u.sendOptions c).call c (.screensaver true)
          else u.sendOptions c) :=
        (addClient_unmoved h).trans ((sendOptions_unmoved u c).trans (.ite (call_unmoved _ c rfl) (.refl _)))
      exact ⟨hall.crosses entered, hall.active⟩

/-- A new proxy is not entered yet, whatever was at its address before. -/
private theorem Focused.adoptClient (hl : Leaving [] s) (h : Focused entered s) (hc : c ∉ s.clientSet) :
    Crosses (entered.erase c) (entered.erase c) s (s.adoptClient e c) ∧
      Focused (entered.erase c) (s.adoptClient e c) := by
  obtain ⟨hin, hv, -⟩ := hl.focusSafe
  have ha : s.active ≠ c := fun hac => hc (hac ▸ hin)
  obtain ⟨hcross, hactive⟩ := adoptClient_unmoved (e := e) hc ha (fun hs => hc (hv c hs)) (entered.erase c)
  refine ⟨hcross, .of_iff fun d => ?_⟩
  have hset : d ≠ c → (d ∈ (s.adoptClient e c).clientSet ↔ d ∈ s.clientSet) := by
    intro hdc
    rcases s.adoptClient_cases e c with hrej | ⟨-, -, hm⟩
    · rw [hrej, (closeClient_unlisted e hc).clientSet]
    · rw [(hm (fun _ => False) fun _ => False).clientSet, Finset.mem_insert, or_iff_right hdc]
  rw [Finset.mem_erase, hactive, ← h.iff_active]
  constructor
  · rintro ⟨hd, hdc, hde⟩
    exact ⟨(hset hdc).mp hd, hde⟩
  · rintro ⟨hd, hde⟩
    have hdc : d ≠ c := fun hdc => hc (hdc ▸ hd)
    exact ⟨(hset hdc).mpr hd, hdc, hde⟩

/-- An event that neither connects nor disconnects anyone switches once at most. -/
private theorem Focused.quiet {fuel : Nat} {ev : ServerEvent} {m : Motion} (h : Focused entered s) (hq : ev.Quiet)
    (hm : s.handle e fuel ev = some m) (hl : Leaving [] m.server) :
    ∃ entered', Crosses entered entered' s m.server ∧ Focused entered' m.server := by
  have hset : m.server.clientSet = s.clientSet := (handle_moves hq hm).clientSet
  have hstay : s.Unmoved m.server → ∃ entered', Crosses entered entered' s m.server ∧ Focused entered' m.server :=
    fun hu => ⟨entered, hu.crosses entered, h.unmoved hu hset⟩
  have hpass : s.Passage e m.server → ∃ entered', Crosses entered entered' s m.server ∧ Focused entered' m.server := by
    intro hp
    cases hp with
    | calm hc => exact hstay hc.unmoved
    | switched u dst x y forScreensaver hu ht =>
      have hin : u.active ∈ entered := hu.unmoved.active ▸ h.active.2
      rcases switchScreen_crosses (e := e) u dst x y forScreensaver hin with ⟨hactive, hcross⟩ | ⟨hne, hactive, hcross⟩
      · refine ⟨entered, (hu.unmoved.crosses _).trans (hcross.trans (ht.unmoved.crosses _)), ?_⟩
        rw [Focused, hset, ht.unmoved.active, hactive, hu.unmoved.active]
        exact h
      · have hdst : m.server.active = dst := ht.unmoved.active.trans hactive
        have hend := h.switched hset hl.focusSafe.1
        have hnew : dst ∉ entered := by
          intro hd
          have hds : dst ∈ s.clientSet := hset ▸ hdst ▸ hl.focusSafe.1
          exact hne (hu.unmoved.active.trans (h.eq_active hds hd).symm)
        rw [hdst, ← hu.unmoved.active] at hend
        exact ⟨_, (hu.unmoved.crosses _).trans ((hcross hnew).trans (ht.unmoved.crosses _)), hend⟩
  cases ev with
  | clipboardGrabbed client id sequenceNumber =>
    obtain rfl := Option.some.inj hm
    exact hstay (handleClipboardGrabbed_unmoved s client id sequenceNumber)
  | clipboardChanged client id sequenceNumber =>
    obtain rfl := Option.some.inj hm
    exact hstay (.ite (.refl s) (onClipboardChanged_unmoved s _ _ _))
  | _ => exact hpass (handle_passage hq (by simp) (by simp) hm)

/-- The proxy of a client that is adopted is a new object. -/
def renewed (entered : Finset BaseClientProxy) : ServerEvent → Finset BaseClientProxy
  | .adoptClient client => entered.erase client
  | _ => entered

/-- One event, whoever it takes out giving the cursor back. -/
private theorem Focused.step {ev : ServerEvent} (hl : Leaving [] s) (h : Focused entered s) (hg : s.GivesBack ev)
    (hs : s.Step (e, ev) t) : ∃ entered', Crosses (renewed entered ev) entered' s t ∧ Focused entered' t := by
  have hend : Leaving [] t := hl.step hg.leavesCleanly hs
  obtain ⟨hen, fuel, m, hm, rfl⟩ := hs
  by_cases hq : ev.Quiet
  · have hsame : renewed entered ev = entered := by
      cases ev with
      | adoptClient client => exact hq.elim
      | _ => rfl
    rw [hsame]
    exact h.quiet hq hm hend
  cases ev with
  | adoptClient client =>
    obtain rfl := Option.some.inj hm
    exact ⟨_, h.adoptClient hl hen.1⟩
  | clientDisconnected client =>
    obtain rfl := Option.some.inj hm
    exact h.clientDisconnected hl hen.2 hg
  | clientCloseTimeout client =>
    obtain rfl := Option.some.inj hm
    exact ⟨entered, Unmoved.crosses (.of_still rfl rfl) entered, h⟩
  | reloadConfig config =>
    obtain rfl := Option.some.inj hm
    exact h.reloadConfig hl hg
  | disconnect =>
    obtain rfl := Option.some.inj hm
    exact h.disconnect hl hg
  | _ => exact absurd trivial hq

end Server

/-- A server and the screens that are entered, as long as each has been entered and
left in turn. -/
structure Watched where
  server : Server
  entered : Option (Finset BaseClientProxy)

namespace Watched
variable {e : Platform} {w w' : Watched}

/-- The primary screen is entered before it is told anything. -/
def new (e : Platform) (config : Config) (primaryClient : BaseClientProxy) : Watched where
  server := .new e config primaryClient
  entered := enteredAfter {primaryClient} (Server.new e config primaryClient).calls

/-- Who is entered once a server has handled an event. -/
def after (w : Watched) (ev : ServerEvent) (t : Server) : Watched :=
  ⟨t, w.entered.bind fun entered => enteredAfter (Server.renewed entered ev) (Server.callsSince w.server t)⟩

def Step (w : Watched) (input : Platform × ServerEvent) (w' : Watched) : Prop :=
  w.server.Step input w'.server ∧ w' = w.after input.2 w'.server

/-- Each screen has been entered and left in turn and the active one is entered, the
only one of those that are connected. -/
def OneEntered (w : Watched) : Prop := ∃ entered ∈ w.entered, Server.Focused entered w.server

instance : DecidablePred OneEntered := fun w => inferInstanceAs (Decidable (∃ entered ∈ w.entered, _))

theorem new_oneEntered (e : Platform) (config : Config) (primaryClient : BaseClientProxy) :
    (new e config primaryClient).OneEntered := by
  have hstart := Server.new_unmoved e config primaryClient
  have hmoves : Server.Moves (fun _ => False) (fun _ => False) _ (Server.new e config primaryClient) :=
    Server.new_moves e config primaryClient
  have hset : (Server.new e config primaryClient).clientSet = {primaryClient} := hmoves.clientSet
  refine ⟨{primaryClient}, (hstart.crosses {primaryClient}).2, ?_⟩
  change (Server.new e config primaryClient).clientSet ∩ {primaryClient} = {(Server.new e config primaryClient).active}
  rw [hset, hstart.active]
  exact Finset.inter_self _

theorem OneEntered.step {ev : ServerEvent} (hl : Server.Leaving [] w.server) (h : w.OneEntered)
    (hg : w.server.GivesBack ev) (hs : w.Step (e, ev) w') : Server.Leaving [] w'.server ∧ w'.OneEntered := by
  obtain ⟨entered, he, hf⟩ := h
  obtain ⟨hstep, hw⟩ := hs
  obtain ⟨entered', hcross, hend⟩ := hf.step hl hg hstep
  refine ⟨hl.step hg.leavesCleanly hstep, entered', ?_, hend⟩
  have hentered : w'.entered = _ := congrArg Watched.entered hw
  rw [Option.mem_def, hentered, after, Option.mem_def.mp he]
  exact hcross.2

/-- Along every run in which whoever goes gives the cursor back, each screen is entered
and left in turn and just the active one is entered. -/
theorem one_entered (e : Platform) (config : Config) (primaryClient : BaseClientProxy)
    {tr : List ((Platform × ServerEvent) × Watched)} (hr : Trace Step (new e config primaryClient) tr)
    (hg : EachStep (fun w input _ => w.server.GivesBack input.2) (new e config primaryClient) tr) :
    (new e config primaryClient).OneEntered ∧ Always OneEntered tr := by
  have h := new_oneEntered e config primaryClient
  have hall := hr.always (fun w => Server.Leaving [] w.server ∧ w.OneEntered)
    (fun w input w' hw hg hs => hw.2.step hw.1 hg hs) ⟨Server.Leaving.new e config primaryClient, h⟩ hg
  exact ⟨h, fun x hx => (hall x hx).2⟩

/-- The state after an event, or the same state when the fuel does not do. -/
def serve (fuel : Nat) (w : Watched) (input : Platform × ServerEvent) : Watched :=
  w.after input.2 (w.server.serve fuel input)

theorem trace_serve {fuel : Nat} {w : Watched} {inputs : List (Platform × ServerEvent)}
    (h : EachStep (fun w input _ => w.server.Served fuel input) w (runTrace (serve fuel) w inputs)) :
    Trace Step w (runTrace (serve fuel) w inputs) := by
  induction inputs generalizing w with
  | nil => exact .nil w
  | cons input inputs ih => exact .cons ⟨Server.step_serve h.1, rfl⟩ (ih h.2)

/-- The cursor goes to a client, which then disconnects. -/
theorem one_entered_after_loss :
    Always OneEntered (runTrace (serve 0) (new .still Server.twoScreens ⟨0, ['a']⟩)
      [(.still, .adoptClient ⟨1, ['b']⟩), (.still, .switchToScreen ['b']), (.still, .clientDisconnected ⟨1, ['b']⟩)]) :=
  (one_entered .still Server.twoScreens ⟨0, ['a']⟩ (trace_serve (by decide)) (by decide)).2

/-- The screen saver starts on the client, a hotkey goes back to it and it disconnects:
the primary screen is active and has not been entered. -/
theorem not_always_entered :
    ¬ ∀ (e : Platform) (config : Config) (primaryClient : BaseClientProxy) (tr : List ((Platform × ServerEvent) × Watched)),
      Trace Step (new e config primaryClient) tr → Always OneEntered tr := by
  intro h
  have hrun : Always OneEntered (runTrace (serve 0) (new .still Server.twoScreens ⟨0, ['a']⟩)
      [(.still, .adoptClient ⟨1, ['b']⟩), (.still, .switchToScreen ['b']), (.still, .screensaver true),
        (.still, .switchToScreen ['b']), (.still, .clientDisconnected ⟨1, ['b']⟩)]) :=
    h _ _ _ _ (trace_serve (by decide))
  revert hrun
  decide

end Watched
end Synergy
