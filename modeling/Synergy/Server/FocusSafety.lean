import Synergy.Server.Removal

/-! The three pointers lead to connected clients, unless a client goes away that has
the cursor while the screen saver remembers another one. -/
namespace Synergy
open Synergy.Lib

namespace Server
variable {e : Platform} {s t : Server} {c : BaseClientProxy}

/-- The active screen is connected, the saved and the pending one are if there are any. -/
def FocusSafe (s : Server) : Prop :=
  s.active ∈ s.clientSet ∧ (∀ c ∈ s.activeSaver, c ∈ s.clientSet) ∧ ∀ c ∈ s.mSwitchScreen, c ∈ s.clientSet

instance : DecidablePred FocusSafe := fun s => by unfold FocusSafe; infer_instance

/-- The configuration in force while an event is handled. -/
def configUnder (s : Server) : ServerEvent → Config
  | .reloadConfig config => config
  | _ => s.config

/-- The clients that an event takes out, in that order. -/
def takenOut (s : Server) : ServerEvent → List BaseClientProxy
  | .clientDisconnected client => if client ∈ s.clientSet then [client] else []
  | .reloadConfig config => if config.isScreen s.primaryClient.name then s.droppedClients config else []
  | .disconnect => if 1 < s.clients.size ∨ s.oldClients.Nonempty then s.droppedClients .empty else []
  | _ => []

/-- Who is taken out is listed under the name it has then, and the client with the
cursor does not go without the one that the screen saver remembers. -/
structure LeavesCleanly (s : Server) (ev : ServerEvent) : Prop where
  listed : ∀ c ∈ s.takenOut ev, s.clients.get? ((s.configUnder ev).getName c) = some c
  saver : s.active ∈ s.takenOut ev → ∀ c ∈ s.activeSaver, c ∈ s.takenOut ev

instance (s : Server) (ev : ServerEvent) : Decidable (s.LeavesCleanly ev) :=
  decidable_of_iff ((∀ c ∈ s.takenOut ev, s.clients.get? ((s.configUnder ev).getName c) = some c) ∧
    (s.active ∈ s.takenOut ev → ∀ c ∈ s.activeSaver, c ∈ s.takenOut ev)) ⟨fun h => ⟨h.1, h.2⟩, fun h => ⟨h.1, h.2⟩⟩

/-- The invariant while the clients of a list are still to be taken out. Until the
last one is gone the cursor may be on one that went before, but then the client that
the screen saver remembers is still to go. -/
structure Leaving (l : List BaseClientProxy) (s : Server) : Prop where
  primary : s.primaryClient ∈ s.clientSet
  stays : s.primaryClient ∉ l
  connected : ∀ c, s.Connected c → c ∈ s.clientSet
  once : ∀ m n c, s.clients.get? m = some c → s.clients.get? n = some c → m = n
  apart : Disjoint s.clientSet s.oldClients
  nodup : l.Nodup
  listed : ∀ c ∈ l, s.clients.get? (s.getName c) = some c
  saver : ∀ c, s.activeSaver = some c → c ∈ s.clientSet
  pending : ∀ c, s.mSwitchScreen = some c → c ∈ s.clientSet
  active : s.active ∈ s.clientSet ∨ ∃ c ∈ l, s.activeSaver = some c
  saved : s.active ∈ l → ∀ c, s.activeSaver = some c → c ∈ l

theorem Leaving.focusSafe (h : Leaving [] s) : s.FocusSafe :=
  ⟨h.active.resolve_right (by simp), fun c hc => h.saver c hc, fun c hc => h.pending c hc⟩

/-- One client is taken out. -/
theorem Leaving.removed {l : List BaseClientProxy} (h : Leaving (c :: l) s) (hr : Removed c s t)
    (hold : t.oldClients ⊆ insert c s.oldClients) : Leaving l t := by
  have hc : s.clients.get? (s.getName c) = some c := h.listed c List.mem_cons_self
  have hget : ∀ n d, t.clients.get? n = some d → n ≠ s.getName c ∧ s.clients.get? n = some d := by
    intro n d hd
    rw [hr.clients, SortedMap.get?_erase] at hd
    split at hd
    · cases hd
    · rename_i hne
      exact ⟨hne, hd⟩
  have hname : ∀ d, t.getName d = s.getName d := fun d => by rw [getName, getName, hr.config]
  obtain ⟨hcl, hnodup⟩ := List.nodup_cons.mp h.nodup
  have hne : s.primaryClient ≠ c := fun hp => h.stays (hp ▸ List.mem_cons_self)
  have hmem : ∀ {d}, d ∈ s.clientSet → d ≠ c → d ∈ t.clientSet := fun hd hdc => by
    rw [hr.clientSet]
    exact Finset.mem_erase.mpr ⟨hdc, hd⟩
  have hsaver : ∀ d, t.activeSaver = some d → s.activeSaver = some d ∧ d ≠ c := by
    intro d hd
    rw [hr.activeSaver] at hd
    split at hd
    · cases hd
    · rename_i hsc
      exact ⟨hd, fun hdc => hsc (hdc ▸ hd)⟩
  -- a client that goes before the remembered one keeps the cursor for now
  have hkept : t.active ≠ s.primaryClient → t.active = s.active ∧ s.activeSaver.getD s.active ≠ c := by
    intro hp
    rw [hr.active] at hp ⊢
    split at hp
    · exact absurd rfl hp
    · rename_i hac
      exact ⟨if_neg hac, hac⟩
  refine ⟨?_, ?_, ?_, ?_, ?_, hnodup, ?_, ?_, ?_, ?_, ?_⟩
  · rw [hr.primaryClient]
    exact hmem h.primary hne
  · rw [hr.primaryClient]
    exact fun hp => h.stays (List.mem_cons_of_mem c hp)
  · rintro d ⟨n, hd⟩
    obtain ⟨hn, hd⟩ := hget n d hd
    refine hmem (h.connected d ⟨n, hd⟩) ?_
    rintro rfl
    exact hn (h.once _ _ _ hd hc)
  · exact fun m n d hm hn => h.once m n d (hget m d hm).2 (hget n d hn).2
  · rw [hr.clientSet, Finset.disjoint_left]
    intro d hd hdo
    rcases Finset.mem_insert.mp (hold hdo) with hdc | hdo
    · exact (Finset.mem_erase.mp hd).1 hdc
    · exact Finset.disjoint_left.mp h.apart (Finset.mem_of_mem_erase hd) hdo
  · intro d hd
    have hs := h.listed d (List.mem_cons_of_mem c hd)
    rw [hr.clients, hname, SortedMap.get?_erase, if_neg, hs]
    intro heq
    rw [show s.getName d = s.getName c from heq, hc] at hs
    exact hcl ((Option.some.inj hs).symm ▸ hd)
  · intro d hd
    exact hmem (h.saver d (hsaver d hd).1) (hsaver d hd).2
  · intro d hd
    obtain ⟨hd, hdc⟩ := hr.mSwitchScreen d hd
    exact hmem (h.pending d hd) hdc
  · by_cases hp : t.active = s.primaryClient
    · exact .inl (hp ▸ hmem h.primary hne)
    · obtain ⟨ha, hac⟩ := hkept hp
      rw [ha]
      cases hs : s.activeSaver with
      | none =>
        have hin : s.active ∈ s.clientSet := h.active.resolve_right (by simp [hs])
        rw [hs] at hac
        exact .inl (hmem hin hac)
      | some d =>
        have hdc : d ≠ c := by rwa [hs] at hac
        have hkeep : t.activeSaver = some d := by
          rw [hr.activeSaver, hs, if_neg (fun heq => hdc (Option.some.inj heq))]
        have hstay : d ∈ c :: l → s.active ∈ t.clientSet ∨ ∃ d ∈ l, t.activeSaver = some d := fun hd =>
          .inr ⟨d, (List.mem_cons.mp hd).resolve_left hdc, hkeep⟩
        rcases h.active with hin | ⟨d', hd', hs'⟩
        · by_cases hsc : s.active = c
          · exact hstay (h.saved (hsc ▸ List.mem_cons_self) d hs)
          · exact .inl (hmem hin hsc)
        · exact hstay (Option.some.inj (hs.symm.trans hs') ▸ hd')
  · intro hd d hds
    obtain ⟨hs, hdc⟩ := hsaver d hds
    have hp : t.active ≠ s.primaryClient := fun hp => h.stays (hp ▸ List.mem_cons_of_mem c hd)
    rw [(hkept hp).1] at hd
    exact (List.mem_cons.mp (h.saved (List.mem_cons_of_mem c hd) d hs)).resolve_left hdc

/-- All of them are taken out. -/
theorem Leaving.closeAll (e : Platform) {l : List BaseClientProxy} (h : Leaving l s) :
    Leaving [] (l.foldl (fun s c => s.closeClient e c) s) := by
  induction l generalizing s with
  | nil => exact h
  | cons c l ih =>
    have hc : c ∈ s.clientSet := h.connected c ⟨_, h.listed c List.mem_cons_self⟩
    obtain ⟨hr, hold⟩ := closeClient_removed e hc
    exact ih (h.removed hr hold.subset)

/-- Nothing else of a move matters than where the pointers go. -/
theorem Leaving.moves {dst : BaseClientProxy → Prop}
    {aim : Option BaseClientProxy × Int × Int → Prop} (h : Leaving [] s) (hm : Moves dst aim s t)
    (hdst : ∀ c, dst c → c ∈ s.clientSet) : Leaving [] t := by
  obtain ⟨ha, hv, hs⟩ := h.focusSafe
  have hpoints : ∀ c, t.Points c → c ∈ t.clientSet := by
    intro c hc
    rw [hm.clientSet]
    rcases hm.points c hc with (rfl | hc | hc) | hc
    · exact ha
    · exact hv c hc
    · exact hs c hc
    · exact hdst c hc
  refine ⟨?_, by simp, fun c hc => ?_, ?_, ?_, .nil, by simp, fun c hc => hpoints c (.inr (.inl hc)),
    fun c hc => hpoints c (.inr (.inr hc)), .inl (hpoints _ (.inl rfl)), by simp⟩
  · rw [hm.primaryClient, hm.clientSet]
    exact h.primary
  · rw [hm.clientSet]
    exact h.connected c ((hm.connected c).mp hc)
  · rw [hm.clients]
    exact h.once
  · rw [hm.clientSet, hm.oldClients]
    exact h.apart

theorem Leaving.still (h : Leaving [] s) (hm : ∀ dst aim, Moves dst aim s t) : Leaving [] t :=
  h.moves (hm (fun _ => False) fun _ => False) fun _ => False.elim

/-- The clients that a configuration drops can be taken out under another one. -/
theorem Leaving.dropping (h : Leaving [] s) (config config' : Config)
    (hlisted : ∀ c ∈ s.droppedClients config', s.clients.get? (config.getName c) = some c)
    (hsaver : s.active ∈ s.droppedClients config' → ∀ c ∈ s.activeSaver, c ∈ s.droppedClients config') :
    Leaving (s.droppedClients config') { s with config := config } :=
  ⟨h.primary, fun hp => (mem_droppedClients hp).2 rfl, h.connected, h.once, h.apart, s.nodup_droppedClients config',
    hlisted, h.saver, h.pending, .inl h.focusSafe.1, hsaver⟩

theorem Leaving.reloadConfig {config : Config} (h : Leaving [] s) (hg : s.LeavesCleanly (.reloadConfig config)) :
    Leaving [] (s.reloadConfig e config) := by
  unfold Server.reloadConfig
  cases hscreen : config.isScreen s.primaryClient.name with
  | false =>
    rw [setConfig_refused hscreen]
    exact ⟨h.primary, h.stays, h.connected, h.once, h.apart, .nil, by simp, h.saver, h.pending, h.active, h.saved⟩
  | true =>
    have htaken : s.takenOut (.reloadConfig config) = s.droppedClients config := if_pos hscreen
    have hlisted := hg.listed
    have hsaver := hg.saver
    rw [htaken] at hlisted hsaver
    have hclosed := (h.dropping config config hlisted hsaver).closeAll e
    exact hclosed.still fun _ _ => setConfig_moves hscreen

theorem Leaving.disconnect (h : Leaving [] s) (hg : s.LeavesCleanly .disconnect) : Leaving [] (s.disconnect e) := by
  unfold Server.disconnect
  split
  · rename_i hany
    have htaken : s.takenOut .disconnect = s.droppedClients .empty := if_pos hany
    have hlisted := hg.listed
    have hsaver := hg.saver
    rw [htaken] at hlisted hsaver
    exact (h.dropping s.config .empty hlisted hsaver).closeAll e
  · exact h

theorem Leaving.clientDisconnected (h : Leaving [] s) (hp : c ≠ s.primaryClient)
    (hg : s.LeavesCleanly (.clientDisconnected c)) : Leaving [] (s.handleClientDisconnected e c) := by
  by_cases hc : c ∈ s.clientSet
  · have htaken : s.takenOut (.clientDisconnected c) = [c] := if_pos hc
    have hlisted := hg.listed
    have hsaver := hg.saver
    rw [htaken] at hlisted hsaver
    obtain ⟨hr, hold⟩ := handleClientDisconnected_removed e hc
    have hone : Leaving [c] s := ⟨h.primary, by simpa using hp.symm, h.connected, h.once, h.apart,
      List.nodup_singleton c, hlisted, h.saver, h.pending, .inl h.focusSafe.1, hsaver⟩
    refine hone.removed hr ?_
    rw [hold]
    exact (Finset.erase_subset _ _).trans (Finset.subset_insert _ _)
  · rw [handleClientDisconnected_old e hc]
    exact ⟨h.primary, h.stays, h.connected, h.once, h.apart.mono_right (Finset.erase_subset _ _), .nil, by simp,
      h.saver, h.pending, h.active, h.saved⟩

/-- A new client under a free name. -/
private theorem Leaving.adding (h : Leaving [] s) {name : Str} (hname : s.clients.contains name = false)
    (hc : c ∉ s.clientSet) (hold : c ∉ s.oldClients) :
    Leaving [] { s with clientSet := insert c s.clientSet, clients := s.clients.insert name c } := by
  have hget : ∀ n d, (s.clients.insert name c).get? n = some d → n = name ∧ d = c ∨ s.clients.get? n = some d := by
    intro n d hd
    rw [SortedMap.get?_insert] at hd
    split at hd
    · rename_i hn
      exact .inl ⟨hn.1.symm, (Option.some.inj hd).symm⟩
    · exact .inr hd
  have hnew : ∀ n, s.clients.get? n ≠ some c := fun n hn => hc (h.connected c ⟨n, hn⟩)
  refine ⟨Finset.mem_insert_of_mem h.primary, by simp, ?_, ?_, ?_, .nil, by simp,
    fun d hd => Finset.mem_insert_of_mem (h.saver d hd), fun d hd => Finset.mem_insert_of_mem (h.pending d hd),
    .inl (Finset.mem_insert_of_mem h.focusSafe.1), by simp⟩
  · rintro d ⟨n, hd⟩
    rcases hget n d hd with ⟨-, rfl⟩ | hd
    · exact Finset.mem_insert_self d _
    · exact Finset.mem_insert_of_mem (h.connected d ⟨n, hd⟩)
  · intro m n d hm hn
    rcases hget m d hm with ⟨rfl, rfl⟩ | hm' <;> rcases hget n _ hn with ⟨rfl, hd⟩ | hn'
    · rfl
    · exact absurd hn' (hnew n)
    · exact absurd (hd ▸ hm') (hnew m)
    · exact h.once m n d hm' hn'
  · exact Finset.disjoint_insert_left.mpr ⟨hold, h.apart⟩

theorem Leaving.adoptClient (h : Leaving [] s) (hc : c ∉ s.clientSet) (hold : c ∉ s.oldClients) :
    Leaving [] (s.adoptClient e c) := by
  obtain ⟨ha, hv, -⟩ := h.focusSafe
  rcases s.adoptClient_cases e c with hrej | ⟨hname, -, hm⟩
  · obtain ⟨calls, heq⟩ := closeClient_rejected e hc (fun h => hc (h ▸ ha)) fun h => hc (hv c h)
    rw [hrej, heq]
    refine ⟨h.primary, h.stays, h.connected, h.once, ?_, .nil, by simp, h.saver, h.pending, h.active, h.saved⟩
    exact Finset.disjoint_insert_right.mpr ⟨hc, h.apart⟩
  · exact (h.adding hname hc hold).still hm

/-- One event, whoever it takes out leaving cleanly. -/
theorem Leaving.step {ev : ServerEvent} (h : Leaving [] s) (hg : s.LeavesCleanly ev) (hs : s.Step (e, ev) t) :
    Leaving [] t := by
  obtain ⟨hen, fuel, m, hm, rfl⟩ := hs
  by_cases hq : ev.Quiet
  · refine h.moves (handle_moves hq hm) fun c hc => ?_
    rcases hc with hc | rfl
    · exact h.connected c hc
    · exact h.primary
  cases ev with
  | adoptClient client =>
    obtain rfl := Option.some.inj hm
    exact h.adoptClient hen.1 hen.2.1
  | clientDisconnected client =>
    obtain rfl := Option.some.inj hm
    exact h.clientDisconnected hen.2 hg
  | clientCloseTimeout client =>
    obtain rfl := Option.some.inj hm
    exact ⟨h.primary, h.stays, h.connected, h.once, h.apart.mono_right (Finset.erase_subset _ _), .nil, by simp,
      h.saver, h.pending, h.active, h.saved⟩
  | reloadConfig config =>
    obtain rfl := Option.some.inj hm
    exact h.reloadConfig hg
  | disconnect =>
    obtain rfl := Option.some.inj hm
    exact h.disconnect hg
  | _ => exact absurd trivial hq

/-- The server starts with the primary client. -/
theorem Leaving.new (e : Platform) (config : Config) (primaryClient : BaseClientProxy) :
    Leaving [] (new e config primaryClient) := by
  have hget : ∀ n d, (SortedMap.empty.insert (config.getName primaryClient) primaryClient : ClientList).get? n = some d →
      n = config.getName primaryClient ∧ d = primaryClient := by
    intro n d hd
    rw [SortedMap.get?_insert] at hd
    split at hd
    · rename_i hn
      exact ⟨hn.1.symm, (Option.some.inj hd).symm⟩
    · cases hd
  have hstart : Leaving [] (withPrimary config primaryClient) :=
    ⟨Finset.mem_singleton_self _, by simp, fun c ⟨n, hc⟩ => Finset.mem_singleton.mpr (hget n c hc).2,
      fun m n c hm hn => (hget m c hm).1.trans (hget n c hn).1.symm, Finset.disjoint_empty_right _, .nil, by simp,
      by simp [withPrimary, initial], by simp [withPrimary, initial], .inl (Finset.mem_singleton_self _), by simp⟩
  exact hstart.still fun _ _ => new_moves e config primaryClient

/-- Along every run in which clients leave cleanly, the pointers lead to connected
clients, none of which waits among the old ones to be deleted. -/
theorem focus_safe (e : Platform) (config : Config) (primaryClient : BaseClientProxy)
    {tr : List ((Platform × ServerEvent) × Server)} (hr : Trace Step (new e config primaryClient) tr)
    (hg : EachStep (fun s input _ => s.LeavesCleanly input.2) (new e config primaryClient) tr) :
    (new e config primaryClient).FocusSafe ∧
      Always (fun s => s.FocusSafe ∧ Disjoint s.clientSet s.oldClients) tr := by
  have h := Leaving.new e config primaryClient
  have hall := hr.always (Leaving []) (fun s input t hs hg ht => hs.step hg ht) h hg
  exact ⟨h.focusSafe, fun x hx => ⟨(hall x hx).focusSafe, (hall x hx).apart⟩⟩

/-- Two screens without links. -/
def twoScreens : Config := ((Config.empty.addScreen ['a']).bind (·.addScreen ['b'])).getD .empty

/-- A client connects and leaves again. -/
theorem focus_safe_one_client :
    Always (fun s => s.FocusSafe ∧ Disjoint s.clientSet s.oldClients) (runTrace (serve 0) (new .still twoScreens ⟨0, ['a']⟩)
      [(.still, .adoptClient ⟨1, ['b']⟩), (.still, .clientDisconnected ⟨1, ['b']⟩)]) :=
  (focus_safe .still twoScreens ⟨0, ['a']⟩ (trace_serve (by decide)) (by decide)).2

/-- The screen saver starts on the primary screen, a hotkey jumps to the client and
the client disconnects: the cursor stays with it. -/
theorem focus_not_safe :
    ¬ ∀ (e : Platform) (config : Config) (primaryClient : BaseClientProxy) (tr : List ((Platform × ServerEvent) × Server)),
      Trace Step (new e config primaryClient) tr → Always FocusSafe tr := by
  intro h
  have hrun : Always FocusSafe (runTrace (serve 0) (new .still twoScreens ⟨0, ['a']⟩)
      [(.still, .adoptClient ⟨1, ['b']⟩), (.still, .screensaver true), (.still, .switchToScreen ['b']),
        (.still, .clientDisconnected ⟨1, ['b']⟩)]) :=
    h _ _ _ _ (trace_serve (by decide))
  revert hrun
  decide

end Server
end Synergy
