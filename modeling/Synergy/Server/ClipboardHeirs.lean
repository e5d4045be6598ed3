import Synergy.Server.ClipboardCopies
import Synergy.Server.EventSharing
import Synergy.Server.FocusSafety

/-! The handlers that take clients out and in, and new configurations: none of them is
about the clipboards, but an owner that goes leaves its clipboards to the primary screen. -/
namespace Synergy
open Synergy.Lib

namespace Server
variable {e : Platform} {s t u : Server} {c : BaseClientProxy} {deaf : Finset BaseClientProxy} {copies : Copies}

/-- The clipboards stay and nothing is told of them. -/
structure Unheard (s t : Server) : Prop where
  clipboards : t.clipboards = s.clipboards
  told : SaysNo Call.isClipboard s t

namespace Unheard

theorem of_still (hclipboards : t.clipboards = s.clipboards) (hcalls : t.calls = s.calls) : s.Unheard t :=
  ⟨hclipboards, .of_eq hcalls⟩

theorem refl (s : Server) : s.Unheard s := .of_still rfl rfl

theorem trans (h : s.Unheard t) (k : t.Unheard u) : s.Unheard u :=
  ⟨k.clipboards.trans h.clipboards, h.told.trans k.told⟩

theorem ite {p : Prop} [Decidable p] (ht : s.Unheard t) (hu : s.Unheard u) : s.Unheard (if p then t else u) := by
  split
  · exact ht
  · exact hu

theorem foldl {α : Type*} {f : Server → α → Server} (h : ∀ (s : Server) a, s.Unheard (f s a)) (l : List α)
    (s : Server) : s.Unheard (l.foldl f s) := by
  induction l generalizing s with
  | nil => exact refl s
  | cons a l ih => exact (h s a).trans (ih (f s a))

end Unheard

theorem Calm.unheard (h : s.Calm t) : s.Unheard t := ⟨congrArg (·.2.2.2.2.1) h.sharing, h.clipboard⟩

theorem call_unheard (s : Server) (client : BaseClientProxy) {m : Call} (h : m.isClipboard = false) :
    s.Unheard (s.call client m) := ⟨rfl, .call s client h⟩

theorem sendOptions_unheard (s : Server) (client : BaseClientProxy) : s.Unheard (s.sendOptions client) :=
  (call_unheard s _ rfl).trans (call_unheard _ _ rfl)

theorem processOptions_unheard (s : Server) : s.Unheard (s.processOptions e) := by
  have hoption : ∀ (r : Server × Bool) option, r.1.Unheard (processOption r option).1 := by
    intro r option
    unfold processOption
    dsimp only
    repeat' refine iteInduction (motive := fun q : Server × Bool => r.1.Unheard q.1) (fun _ => ?_) (fun _ => ?_)
    all_goals exact .of_still rfl rfl
  exact processOptions_rule .refl (fun _ _ _ => .trans) (fun _ => .of_still rfl rfl) hoption
    (fun s => (stopRelativeMoves_calm s).unheard) (fun _ _ => .of_still rfl rfl) s

/-- Once the dropped clients are closed a new configuration is not about clipboards. -/
theorem setConfig_unheard (h : s.config.isScreen s.primaryClient.name = true) :
    (s.closeClients e s.config).Unheard (s.setConfig e) := by
  have hrule : ∀ s : Server, s.Unheard s.addScrollLockRule := fun s => .ite (.of_still rfl rfl) (.refl s)
  unfold setConfig
  rw [h]
  refine Unheard.trans ?_ (.foldl (fun s client => sendOptions_unheard s client) _ _)
  refine Unheard.trans ?_ (call_unheard _ _ rfl)
  exact (processOptions_unheard _).trans (hrule _)

theorem forceLeaveClient_unheard (s : Server) (client : BaseClientProxy) : s.Unheard (s.forceLeaveClient e client) := by
  have hback : s.Unheard (s.fallBack e client) := by
    have hstart : s.Unheard { s with x := e.cursorCenter.1, y := e.cursorCenter.2 } := .of_still rfl rfl
    have hactive : ∀ s : Server, s.Unheard { s with active := s.primaryClient } := fun s => .of_still rfl rfl
    unfold fallBack
    refine hstart.trans (Unheard.trans ?_ (.ite (call_unheard _ _ rfl) (.refl _)))
    exact Unheard.trans (.ite (stopSwitch_calm _).unheard (.refl _)) (hactive _)
  have hleft : s.Unheard (if s.activeSaver.getD s.active = client then s.fallBack e client else s) := .ite hback (.refl s)
  have hsaver : ∀ s : Server, s.Unheard { s with activeSaver := none } := fun s => .of_still rfl rfl
  unfold forceLeaveClient
  refine Unheard.trans ?_ (call_unheard _ _ rfl)
  exact hleft.trans (.ite (hsaver _) (.refl _))

theorem removeClient_saysNo (h : s.removeClient c = some t) : SaysNo Call.isClipboard s t := by
  have herase : SaysNo Call.isClipboard s (s.eraseClient c) := .of_eq rfl
  unfold removeClient at h
  split at h
  · cases h
  · obtain rfl := Option.some.inj h
    exact herase.trans (.ite (stopSwitch_calm _).clipboard (.refl _))

theorem closeClient_saysNo (s : Server) (client : BaseClientProxy) : SaysNo Call.isClipboard s (s.closeClient e client) := by
  have hremove : SaysNo Call.isClipboard (s.call client .close)
      (((s.call client .close).removeClient client).getD (s.call client .close)) := by
    cases h : (s.call client .close).removeClient client with
    | none => exact .refl _
    | some t => exact removeClient_saysNo h
  have hold : ∀ s : Server, SaysNo Call.isClipboard s { s with oldClients := insert client s.oldClients } := fun s => .of_eq rfl
  unfold closeClient
  exact (SaysNo.call s client rfl).trans (hremove.trans ((hold _).trans (forceLeaveClient_unheard _ client).told))

theorem handleClientDisconnected_saysNo (s : Server) (client : BaseClientProxy) :
    SaysNo Call.isClipboard s (s.handleClientDisconnected e client) := by
  have hold : ∀ s : Server, SaysNo Call.isClipboard s (s.removeOldClient client) := fun s => .of_eq rfl
  unfold handleClientDisconnected removeActiveClient
  split
  · exact hold s
  · rename_i h
    exact ((removeClient_saysNo h).trans (forceLeaveClient_unheard _ client).told).trans (hold _)

/-- The primary screen has a clear copy of every clipboard that a client owns. -/
def Inherits (s : Server) (copies : Copies) (c : BaseClientProxy) : Prop :=
  ∀ id, (s.clipboards id).owner = s.getName c → (copies s.primaryClient id).dirty = false

instance (s : Server) (copies : Copies) (c : BaseClientProxy) : Decidable (s.Inherits copies c) :=
  inferInstanceAs (Decidable (∀ id, (s.clipboards id).owner = s.getName c → (copies s.primaryClient id).dirty = false))

/-- One client is taken out. -/
theorem UpToDate.removed (h : UpToDate s copies) (hc : c ∈ s.clientSet) (hp : c ≠ s.primaryClient) (hi : s.Inherits copies c)
    (hr : Removed c s t) (hcontents : t.contents = s.contents) : UpToDate t copies := by
  have hdata : ∀ id, (t.clipboards id).data = (s.clipboards id).data := fun id => congrArg Prod.snd (congrFun hcontents id)
  have hclipboard : ∀ id, (t.clipboards id).clipboard = (s.clipboards id).clipboard :=
    fun id => congrArg Prod.fst (congrFun hcontents id)
  have hget : ∀ {d}, d ∈ s.clientSet → d ≠ c → t.clients.get? (s.getName d) = some d := by
    intro d hd hdc
    rw [hr.clients, SortedMap.get?_erase, if_neg, h.named.listed d hd]
    exact fun heq => hdc (h.named.inj hd hc heq)
  refine ⟨h.named.removed hc hp hr, fun d hd id hclear => ?_, fun id => ?_, fun id => ?_⟩
  · rw [hr.clientSet] at hd
    obtain ⟨hdc, hds⟩ := Finset.mem_erase.mp hd
    rw [hdata]
    refine (h.fresh.current d hds id hclear).imp_left fun howner => ?_
    have hname := (h.named.named _ d howner).1
    rw [hr.owner, if_neg, ← hname]
    · exact hget hds hdc
    · exact fun heq => hdc (h.named.inj hds hc (hname.trans heq))
  · rw [hr.owner]
    split
    · rename_i hown
      exact ⟨s.primaryClient, hget h.named.primary hp.symm, hi id hown⟩
    · rename_i hown
      obtain ⟨d, hd, hclear⟩ := h.fresh.owner id
      obtain ⟨hname, hds⟩ := h.named.named _ d hd
      refine ⟨d, ?_, hclear⟩
      rw [← hname]
      refine hget hds ?_
      rintro rfl
      exact hown hname.symm
  · rw [hdata, hclipboard]
    exact h.fresh.marshalled id

theorem Inherits.removed {d : BaseClientProxy} (h : s.Inherits copies d) (hn : Named s) (hd : d ∈ s.clientSet)
    (hp : d ≠ s.primaryClient) (hr : Removed c s t) : t.Inherits copies d := by
  have hname : ∀ d, t.getName d = s.getName d := fun d => by rw [getName, getName, hr.config]
  intro id howner
  rw [hr.owner, hname] at howner
  rw [hr.primaryClient]
  split at howner
  · exact absurd (hn.inj hd hn.primary howner.symm) hp
  · exact h id howner

/-- All clients of a list are taken out. -/
theorem UpToDate.closeAll (e : Platform) {l : List BaseClientProxy} (h : UpToDate s copies) (hnodup : l.Nodup)
    (hl : ∀ c ∈ l, (c ∈ s.clientSet ∧ c ≠ s.primaryClient) ∧ s.Inherits copies c) :
    SaysNo Call.isClipboard s (l.foldl (fun s c => s.closeClient e c) s) ∧
      UpToDate (l.foldl (fun s c => s.closeClient e c) s) copies := by
  induction l generalizing s with
  | nil => exact ⟨.refl s, h⟩
  | cons c l ih =>
    obtain ⟨hcl, hnodup⟩ := List.nodup_cons.mp hnodup
    obtain ⟨⟨hc, hp⟩, hi⟩ := hl c List.mem_cons_self
    obtain ⟨hr, -⟩ := closeClient_removed e hc
    have hupToDate := h.removed hc hp hi hr (closeClient_settles s c).contents
    obtain ⟨hrest, hend⟩ := ih hupToDate hnodup fun d hd => by
      obtain ⟨⟨hd', hdp⟩, hdi⟩ := hl d (List.mem_cons_of_mem c hd)
      rw [hr.clientSet, hr.primaryClient]
      exact ⟨⟨Finset.mem_erase.mpr ⟨fun hdc => hcl (hdc ▸ hd), hd'⟩, hdp⟩, hdi.removed h.named hd' hdp hr⟩
    exact ⟨(closeClient_saysNo s c).trans hrest, hend⟩

theorem UpToDate.closeClients (e : Platform) {config : Config} (h : UpToDate s copies)
    (hi : ∀ c ∈ s.droppedClients config, s.Inherits copies c) :
    SaysNo Call.isClipboard s (s.closeClients e config) ∧ UpToDate (s.closeClients e config) copies := by
  refine h.closeAll e (s.nodup_droppedClients config) fun c hc => ⟨?_, hi c hc⟩
  obtain ⟨⟨k, hk⟩, hp⟩ := mem_droppedClients hc
  exact ⟨(h.named.named k c hk).2, hp⟩

/-- A proxy that is not in the list may be replaced by a new one. -/
theorem UpToDate.update (h : UpToDate s copies) (hc : c ∉ s.clientSet) (copy : ClipboardID → Copy) :
    UpToDate s (Function.update copies c copy) := by
  have hother : ∀ {d}, d ∈ s.clientSet → Function.update copies c copy d = copies d := by
    intro d hd
    refine Function.update_of_ne ?_ _ _
    rintro rfl
    exact hc hd
  refine ⟨h.named, fun d hd id hclear => ?_, fun id => ?_, h.fresh.marshalled⟩
  · rw [hother hd] at hclear ⊢
    exact h.fresh.current d hd id hclear
  · obtain ⟨d, hget, hclear⟩ := h.fresh.owner id
    exact ⟨d, hget, by rwa [hother (h.named.named _ d hget).2]⟩

theorem addClient_unheard (h : s.addClient e c = some t) : s.Unheard t := by
  unfold addClient at h
  dsimp only at h
  split at h
  · cases h
  · obtain rfl := Option.some.inj h
    refine Unheard.trans ?_ (call_unheard _ _ rfl)
    exact .of_still rfl rfl

/-- Nor is a server as it starts. -/
theorem new_unheard (e : Platform) (config : Config) (primaryClient : BaseClientProxy) :
    (initial config primaryClient).Unheard (new e config primaryClient) := by
  obtain ⟨t, ht, -⟩ := addClient_spec (s := initial config primaryClient) (c := primaryClient) e rfl
  have hset : t.Unheard (t.setConfig e) := by
    cases hscreen : t.config.isScreen t.primaryClient.name with
    | false => exact (setConfig_refused hscreen).symm ▸ .refl t
    | true =>
      have hafter : (t.closeClients e t.config).Unheard (t.setConfig e) := setConfig_unheard hscreen
      rwa [initial_closeClients e ht] at hafter
  unfold new
  dsimp only
  rw [ht, Option.getD_some]
  refine ((addClient_unheard ht).trans hset).trans ?_
  exact .of_still rfl rfl

theorem adoptClient_unheard (hc : c ∉ s.clientSet) : s.Unheard (s.adoptClient e c) := by
  have hreject : s.Unheard (s.closeClient e c) := ⟨(closeClient_unlisted e hc).clipboards, closeClient_saysNo s c⟩
  unfold adoptClient
  split
  · exact hreject
  split
  · exact hreject
  · rename_i t h
    exact (addClient_unheard h).trans ((sendOptions_unheard t c).trans (.ite (call_unheard _ _ rfl) (.refl _)))

/-- A client is adopted, whose copies are all dirty. -/
theorem UpToDate.adoptClient (e : Platform) (h : UpToDate s copies) (hc : c ∉ s.clientSet)
    (hdirty : ∀ id, (copies c id).dirty = true) : UpToDate (s.adoptClient e c) copies := by
  have hb := (adoptClient_unheard (e := e) hc).clipboards
  have hset : ∀ d ∈ (s.adoptClient e c).clientSet, d = c ∨ d ∈ s.clientSet := by
    intro d hd
    rcases s.adoptClient_cases e c with hrej | ⟨-, -, hm⟩
    · rw [hrej, (closeClient_unlisted e hc).clientSet] at hd
      exact .inr hd
    · rw [(hm (fun _ => False) fun _ => False).clientSet] at hd
      exact Finset.mem_insert.mp hd
  have hget : ∀ {k d}, s.clients.get? k = some d → (s.adoptClient e c).clients.get? k = some d := by
    intro k d hd
    rcases s.adoptClient_cases e c with hrej | ⟨hfree, -, hm⟩
    · rw [hrej, (closeClient_unlisted e hc).clients]
      exact hd
    · rw [(hm (fun _ => False) fun _ => False).clients, SortedMap.get?_insert, if_neg]
      · exact hd
      · rintro ⟨hk, -⟩
        rw [show s.getName c = k from hk, SortedMap.contains_eq_isSome_get?, hd] at hfree
        cases hfree
  refine ⟨h.named.adoptClient e hc, fun d hd id hclear => ?_, fun id => ?_, fun id => ?_⟩
  · rw [hb]
    rcases hset d hd with rfl | hd
    · rw [hdirty] at hclear
      cases hclear
    · exact (h.fresh.current d hd id hclear).imp_left hget
  · obtain ⟨d, hd, hclear⟩ := h.fresh.owner id
    exact ⟨d, hb ▸ hget hd, hclear⟩
  · rw [hb]
    exact h.fresh.marshalled id

/-- A new configuration that keeps the names. -/
theorem UpToDate.reloadConfig {config : Config} (h : UpToDate s copies)
    (hi : ∀ c ∈ s.takenOut (.reloadConfig config), s.Inherits copies c) (hnames : s.KeepsNames (.reloadConfig config)) :
    SaysNo Call.isClipboard s (s.reloadConfig e config) ∧ UpToDate (s.reloadConfig e config) copies := by
  have hname : ∀ k d, s.clients.get? k = some d → config.getName d = k := by
    intro k d hk
    obtain ⟨j, hj, rfl⟩ := (s.clients.get?_eq_some_iff k d).mp hk
    exact hnames (j, d) hj
  have hreplace : UpToDate { s with config := config } copies :=
    ⟨h.named.reconfigured hname, h.fresh.current, h.fresh.owner, h.fresh.marshalled⟩
  have hstart : SaysNo Call.isClipboard s { s with config := config } := .of_eq rfl
  unfold Server.reloadConfig
  cases hscreen : config.isScreen s.primaryClient.name with
  | false =>
    rw [setConfig_refused hscreen]
    exact ⟨hstart, hreplace⟩
  | true =>
    have htaken : s.takenOut (.reloadConfig config) = s.droppedClients config := if_pos hscreen
    rw [htaken] at hi
    have hinherits : ∀ c ∈ droppedClients { s with config := config } config,
        Inherits { s with config := config } copies c := by
      intro c hc id howner
      obtain ⟨⟨k, hk⟩, -⟩ := mem_droppedClients hc
      exact hi c hc id (howner.trans ((hname k c hk).trans (h.named.named k c hk).1.symm))
    obtain ⟨hclose, hupToDate⟩ := hreplace.closeClients e hinherits
    have htail := setConfig_unheard (e := e) (s := { s with config := config }) hscreen
    have hmoves : Moves (fun _ => False) (fun _ => False) _ (setConfig e { s with config := config }) :=
      setConfig_moves hscreen
    exact ⟨hstart.trans (hclose.trans htail.told), hupToDate.sameTable hmoves.toSameTable htail.clipboards⟩

theorem UpToDate.disconnect (h : UpToDate s copies) (hi : ∀ c ∈ s.takenOut .disconnect, s.Inherits copies c) :
    SaysNo Call.isClipboard s (s.disconnect e) ∧ UpToDate (s.disconnect e) copies := by
  unfold Server.disconnect
  split
  · rename_i hany
    have htaken : s.takenOut .disconnect = s.droppedClients .empty := if_pos hany
    rw [htaken] at hi
    exact h.closeClients e hi
  · exact ⟨.refl s, h⟩

theorem UpToDate.clientDisconnected (h : UpToDate s copies) (hp : c ≠ s.primaryClient)
    (hi : ∀ d ∈ s.takenOut (.clientDisconnected c), s.Inherits copies d) :
    UpToDate (s.handleClientDisconnected e c) copies := by
  by_cases hc : c ∈ s.clientSet
  · have htaken : s.takenOut (.clientDisconnected c) = [c] := if_pos hc
    rw [htaken] at hi
    exact h.removed hc hp (hi c (List.mem_singleton_self c)) (handleClientDisconnected_removed e hc).1
      (handleClientDisconnected_settles s c).contents
  · rw [handleClientDisconnected_old e hc]
    exact ⟨⟨h.named.primary, h.named.named, h.named.listed, h.named.owner⟩, h.fresh.current, h.fresh.owner, h.fresh.marshalled⟩

end Server
end Synergy
