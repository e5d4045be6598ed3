import Synergy.Server.Removal

/-! The list of clients by name and the set of clients agree, as long as a new
configuration gives every connected client the name that it is listed under. -/
namespace Synergy
open Synergy.Lib

namespace Server
variable {e : Platform} {s t : Server} {c : BaseClientProxy}

/-- List and set agree, removing a client removes its entry and no other one, and the
clipboards belong to names in the list. -/
structure TableConsistent (s : Server) : Prop where
  unique : ∀ c ∈ s.clientSet, ∃! k, s.clients.get? k = some c
  connected : ∀ k c, s.clients.get? k = some c → c ∈ s.clientSet
  removal : ∀ c ∈ s.clientSet, ∃ t, s.removeClient c = some t ∧
    ∀ k d, t.clients.get? k = some d ↔ s.clients.get? k = some d ∧ d ≠ c
  owner : ∀ id, s.clients.contains (s.clipboards id).owner = true

/-- Every client is listed under the name it has, and under no other. -/
structure Named (s : Server) : Prop where
  primary : s.primaryClient ∈ s.clientSet
  named : ∀ k c, s.clients.get? k = some c → s.getName c = k ∧ c ∈ s.clientSet
  listed : ∀ c ∈ s.clientSet, s.clients.get? (s.getName c) = some c
  owner : ∀ id, ∃ c ∈ s.clientSet, (s.clipboards id).owner = s.getName c

namespace Named

theorem inj (h : Named s) {d : BaseClientProxy} (hc : c ∈ s.clientSet) (hd : d ∈ s.clientSet)
    (hn : s.getName c = s.getName d) : c = d := by
  have hget := h.listed c hc
  rw [hn, h.listed d hd] at hget
  exact (Option.some.inj hget).symm

theorem tableConsistent (h : Named s) : s.TableConsistent := by
  refine ⟨fun c hc => ⟨_, h.listed c hc, fun k hk => (h.named k c hk).1.symm⟩, fun k c hk => (h.named k c hk).2,
    fun c hc => ?_, fun id => ?_⟩
  · obtain ⟨t, ht, hclients⟩ := removeClient_clients hc
    refine ⟨t, ht, fun k d => ?_⟩
    rw [hclients, SortedMap.get?_erase]
    constructor
    · intro hk
      split at hk
      · cases hk
      · rename_i hne
        refine ⟨hk, ?_⟩
        rintro rfl
        exact hne (h.named k d hk).1.symm
    · rintro ⟨hk, hne⟩
      obtain ⟨hname, hd⟩ := h.named k d hk
      rw [if_neg, hk]
      exact fun heq => hne (h.inj hd hc (hname.trans heq))
  · obtain ⟨c, hc, ho⟩ := h.owner id
    rw [SortedMap.contains_eq_isSome_get?, ho, h.listed c hc]
    rfl

theorem sameTable (h : Named s) (hm : SameTable s t) : Named t := by
  refine ⟨?_, ?_, ?_, fun id => ?_⟩
  · rw [hm.primaryClient, hm.clientSet]
    exact h.primary
  · intro k c hk
    rw [hm.clients] at hk
    rw [hm.getName, hm.clientSet]
    exact h.named k c hk
  · intro c hc
    rw [hm.clientSet] at hc
    rw [hm.getName, hm.clients]
    exact h.listed c hc
  · simp only [hm.clientSet, hm.getName]
    rcases hm.owner id with ho | ho
    · rw [ho]
      exact h.owner id
    · exact ho

theorem moves {dst : BaseClientProxy → Prop} {aim : Option BaseClientProxy × Int × Int → Prop} (h : Named s)
    (hm : Moves dst aim s t) : Named t := h.sameTable hm.toSameTable

theorem lists (h : Named s) (hl : SameLists s t) : Named t := by
  have hname : ∀ c, t.getName c = s.getName c := fun c => by rw [getName, getName, hl.config]
  refine ⟨?_, ?_, ?_, ?_⟩
  · rw [hl.primaryClient, hl.clientSet]
    exact h.primary
  · simp only [hl.clients, hl.clientSet, hname]
    exact h.named
  · simp only [hl.clients, hl.clientSet, hname]
    exact h.listed
  · simp only [hl.clipboards, hl.clientSet, hname]
    exact h.owner

/-- A client other than the primary one is taken out. -/
theorem removed (h : Named s) (hc : c ∈ s.clientSet) (hp : c ≠ s.primaryClient) (hr : Removed c s t) : Named t := by
  have hname : ∀ d, t.getName d = s.getName d := fun d => by rw [getName, getName, hr.config]
  have hkeep : ∀ {d}, d ∈ s.clientSet → d ≠ c → d ∈ t.clientSet := fun hd hdc => by
    rw [hr.clientSet]
    exact Finset.mem_erase.mpr ⟨hdc, hd⟩
  refine ⟨?_, ?_, ?_, fun id => ?_⟩
  · rw [hr.primaryClient]
    exact hkeep h.primary hp.symm
  · intro k d hk
    rw [hr.clients, SortedMap.get?_erase] at hk
    split at hk
    · cases hk
    · rename_i hne
      obtain ⟨hn, hd⟩ := h.named k d hk
      refine ⟨(hname d).trans hn, hkeep hd ?_⟩
      rintro rfl
      exact hne hn.symm
  · intro d hd
    rw [hr.clientSet] at hd
    obtain ⟨hdc, hd⟩ := Finset.mem_erase.mp hd
    rw [hr.clients, hname, SortedMap.get?_erase, if_neg, h.listed d hd]
    exact fun heq => hdc (h.inj hd hc heq)
  · rw [hr.owner]
    split
    · exact ⟨s.primaryClient, hkeep h.primary hp.symm, (hname _).symm⟩
    · rename_i hne
      obtain ⟨d, hd, ho⟩ := h.owner id
      refine ⟨d, hkeep hd ?_, ho.trans (hname d).symm⟩
      rintro rfl
      exact hne ho

/-- Some of the clients other than the primary one are taken out. -/
theorem closeAll (e : Platform) {l : List BaseClientProxy} (h : Named s) (hnodup : l.Nodup)
    (hl : ∀ c ∈ l, c ∈ s.clientSet ∧ c ≠ s.primaryClient) : Named (l.foldl (fun s c => s.closeClient e c) s) := by
  induction l generalizing s with
  | nil => exact h
  | cons c l ih =>
    obtain ⟨hcl, hnodup⟩ := List.nodup_cons.mp hnodup
    obtain ⟨hc, hp⟩ := hl c List.mem_cons_self
    obtain ⟨hr, -⟩ := closeClient_removed e hc
    refine ih (h.removed hc hp hr) hnodup fun d hd => ?_
    obtain ⟨hd', hdp⟩ := hl d (List.mem_cons_of_mem c hd)
    rw [hr.clientSet, hr.primaryClient]
    exact ⟨Finset.mem_erase.mpr ⟨fun hdc => hcl (hdc ▸ hd), hd'⟩, hdp⟩

theorem closeClients (e : Platform) (h : Named s) (config : Config) : Named (s.closeClients e config) := by
  refine h.closeAll e (s.nodup_droppedClients config) fun c hc => ?_
  obtain ⟨⟨k, hk⟩, hp⟩ := mem_droppedClients hc
  exact ⟨(h.named k c hk).2, hp⟩

/-- Another configuration under which every client has the name it is listed under. -/
theorem reconfigured (h : Named s) {config : Config}
    (hg : ∀ k c, s.clients.get? k = some c → config.getName c = k) : Named { s with config := config } := by
  have hname : ∀ c ∈ s.clientSet, config.getName c = s.getName c := fun c hc => hg _ c (h.listed c hc)
  refine ⟨h.primary, fun k c hk => ⟨hg k c hk, (h.named k c hk).2⟩, fun c hc => ?_, fun id => ?_⟩
  · exact (congrArg s.clients.get? (hname c hc)).trans (h.listed c hc)
  · obtain ⟨c, hc, ho⟩ := h.owner id
    exact ⟨c, hc, ho.trans (hname c hc).symm⟩

theorem setConfig (e : Platform) (h : Named s) : Named (s.setConfig e) := by
  cases hscreen : s.config.isScreen s.primaryClient.name with
  | false => exact (setConfig_refused hscreen).symm ▸ h
  | true =>
    have hm : Moves (fun _ => False) (fun _ => False) (s.closeClients e s.config) (s.setConfig e) := setConfig_moves hscreen
    exact (h.closeClients e s.config).moves hm

/-- A new client under a free name. -/
theorem added (h : Named s) (hc : c ∉ s.clientSet) (hfree : s.clients.contains (s.getName c) = false) :
    Named { s with clientSet := insert c s.clientSet, clients := s.clients.insert (s.getName c) c } := by
  have hget : ∀ k, (s.clients.insert (s.getName c) c).get? k =
      if s.getName c = k then some c else s.clients.get? k := fun k => by
    rw [SortedMap.get?_insert, hfree]
    simp
  have hother : ∀ d ∈ s.clientSet, s.getName c ≠ s.getName d := by
    intro d hd heq
    rw [heq, SortedMap.contains_eq_isSome_get?, h.listed d hd] at hfree
    cases hfree
  refine ⟨Finset.mem_insert_of_mem h.primary, fun k d hk => ?_, fun d hd => ?_, fun id => ?_⟩
  · rw [show _ = _ from hget k] at hk
    split at hk
    · rename_i hk'
      obtain rfl := Option.some.inj hk
      exact ⟨hk', Finset.mem_insert_self _ _⟩
    · exact ⟨(h.named k d hk).1, Finset.mem_insert_of_mem (h.named k d hk).2⟩
  · refine (hget _).trans ?_
    rcases Finset.mem_insert.mp hd with rfl | hd
    · exact if_pos rfl
    · exact (if_neg (hother d hd)).trans (h.listed d hd)
  · obtain ⟨d, hd, ho⟩ := h.owner id
    exact ⟨d, Finset.mem_insert_of_mem hd, ho⟩

theorem adoptClient (e : Platform) (h : Named s) (hc : c ∉ s.clientSet) : Named (s.adoptClient e c) := by
  rcases s.adoptClient_cases e c with hrej | ⟨hfree, -, hm⟩
  · have hold : Named { s with oldClients := insert c s.oldClients } := ⟨h.primary, h.named, h.listed, h.owner⟩
    exact hrej ▸ hold.lists (closeClient_unlisted e hc)
  · exact (h.added hc hfree).moves (hm (fun _ => False) fun _ => False)

theorem clientDisconnected (e : Platform) (h : Named s) (hp : c ≠ s.primaryClient) :
    Named (s.handleClientDisconnected e c) := by
  by_cases hc : c ∈ s.clientSet
  · exact h.removed hc hp (handleClientDisconnected_removed e hc).1
  · rw [handleClientDisconnected_old e hc]
    exact ⟨h.primary, h.named, h.listed, h.owner⟩

end Named

/-- A new configuration gives every client in the list the name it is listed under. -/
def KeepsNames (s : Server) : ServerEvent → Prop
  | .reloadConfig config => ∀ i ∈ s.clients.entries, config.getName i.2 = i.1
  | _ => True

instance (s : Server) (ev : ServerEvent) : Decidable (s.KeepsNames ev) :=
  match ev with
  | .reloadConfig config => inferInstanceAs (Decidable (∀ i ∈ s.clients.entries, config.getName i.2 = i.1))
  | .adoptClient .. | .clientDisconnected .. | .clientCloseTimeout .. | .disconnect | .screensaver .. | .switchToScreen ..
  | .switchInDirection .. | .toggleScreen | .keyboardBroadcast .. | .lockCursorToScreen .. | .motionPrimary ..
  | .motionSecondary .. | .switchWaitTimeout | .shapeChanged .. | .clipboardGrabbed .. | .clipboardChanged ..
  | .keyDown .. | .keyUp .. | .keyRepeat .. | .buttonDown .. | .buttonUp .. | .wheel .. =>
    inferInstanceAs (Decidable True)

theorem Named.step {ev : ServerEvent} (h : Named s) (hg : s.KeepsNames ev) (hs : s.Step (e, ev) t) : Named t := by
  obtain ⟨hen, fuel, m, hm, rfl⟩ := hs
  by_cases hq : ev.Quiet
  · exact h.moves (handle_moves hq hm)
  cases ev with
  | adoptClient client =>
    obtain rfl := Option.some.inj hm
    exact h.adoptClient e hen.1
  | clientDisconnected client =>
    obtain rfl := Option.some.inj hm
    exact h.clientDisconnected e hen.2
  | clientCloseTimeout client =>
    obtain rfl := Option.some.inj hm
    exact ⟨h.primary, h.named, h.listed, h.owner⟩
  | reloadConfig config =>
    obtain rfl := Option.some.inj hm
    refine Named.setConfig e (h.reconfigured fun k c hk => ?_)
    obtain ⟨j, hj, rfl⟩ := (s.clients.get?_eq_some_iff k c).mp hk
    exact hg (j, c) hj
  | disconnect =>
    obtain rfl := Option.some.inj hm
    simp only [stay, disconnect]
    split
    · exact h.closeClients e .empty
    · exact h
  | _ => exact absurd trivial hq

theorem Named.new (e : Platform) (config : Config) (primaryClient : BaseClientProxy) :
    Named (new e config primaryClient) := by
  have hget : ∀ k, (withPrimary config primaryClient).clients.get? k =
      if config.getName primaryClient = k then some primaryClient else none := fun k => by
    rw [withPrimary, SortedMap.get?_insert]
    simp [SortedMap.contains]
  have hstart : Named (withPrimary config primaryClient) := by
    refine ⟨Finset.mem_singleton_self _, fun k c hk => ?_, fun c hc => ?_, fun id => ?_⟩
    · rw [hget] at hk
      split at hk
      · rename_i hk'
        obtain rfl := Option.some.inj hk
        exact ⟨hk', Finset.mem_singleton_self _⟩
      · cases hk
    · obtain rfl := Finset.mem_singleton.mp hc
      exact (hget _).trans (if_pos rfl)
    · exact ⟨primaryClient, Finset.mem_singleton_self _, rfl⟩
  have hm : Moves (fun _ => False) (fun _ => False) (withPrimary config primaryClient) (Server.new e config primaryClient) :=
    new_moves e config primaryClient
  exact hstart.moves hm

/-- Along every run in which new configurations keep the names of the connected
clients, list and set agree. -/
theorem table_consistent (e : Platform) (config : Config) (primaryClient : BaseClientProxy)
    {tr : List ((Platform × ServerEvent) × Server)} (hr : Trace Step (new e config primaryClient) tr)
    (hg : EachStep (fun s input _ => s.KeepsNames input.2) (new e config primaryClient) tr) :
    (new e config primaryClient).TableConsistent ∧ Always TableConsistent tr := by
  have h := Named.new e config primaryClient
  have hall := hr.always Named (fun s input t hs hg ht => hs.step hg ht) h hg
  exact ⟨h.tableConsistent, fun x hx => (hall x hx).tableConsistent⟩

/-- The primary screen a and two others, one of which is also called x. -/
def threeScreens (canonical : Str) : Config :=
  let screens := ((Config.empty.addScreen ['a']).bind (·.addScreen ['b'])).bind (·.addScreen ['c'])
  (screens.bind (·.addAlias canonical ['x'])).getD .empty

/-- A client is listed under its alias and the configuration is read again. -/
theorem table_consistent_reload :
    Always TableConsistent (runTrace (serve 0) (new .still (threeScreens ['b']) ⟨0, ['a']⟩)
      [(.still, .adoptClient ⟨1, ['x']⟩), (.still, .reloadConfig (threeScreens ['b'])),
        (.still, .clientDisconnected ⟨1, ['x']⟩)]) :=
  (table_consistent .still (threeScreens ['b']) ⟨0, ['a']⟩ (trace_serve (by decide)) (by decide)).2

/-- A new configuration still names the primary client. -/
def NamesPrimary (s : Server) : ServerEvent → Prop
  | .reloadConfig config => config.isScreen s.primaryClient.name = true
  | _ => True

instance (s : Server) (ev : ServerEvent) : Decidable (s.NamesPrimary ev) :=
  match ev with
  | .reloadConfig config => inferInstanceAs (Decidable (config.isScreen s.primaryClient.name = true))
  | .adoptClient .. | .clientDisconnected .. | .clientCloseTimeout .. | .disconnect | .screensaver .. | .switchToScreen ..
  | .switchInDirection .. | .toggleScreen | .keyboardBroadcast .. | .lockCursorToScreen .. | .motionPrimary ..
  | .motionSecondary .. | .switchWaitTimeout | .shapeChanged .. | .clipboardGrabbed .. | .clipboardChanged ..
  | .keyDown .. | .keyUp .. | .keyRepeat .. | .buttonDown .. | .buttonUp .. | .wheel .. =>
    inferInstanceAs (Decidable True)

/-- The alias moves to another screen, and the entry of the client stays when it leaves. -/
theorem table_not_consistent :
    ¬ ∀ (e : Platform) (config : Config) (primaryClient : BaseClientProxy) (tr : List ((Platform × ServerEvent) × Server)),
      Trace Step (new e config primaryClient) tr →
        EachStep (fun s input _ => s.NamesPrimary input.2) (new e config primaryClient) tr → Always TableConsistent tr := by
  intro h
  have hrun := h .still (threeScreens ['b']) ⟨0, ['a']⟩ (runTrace (serve 0) (new .still (threeScreens ['b']) ⟨0, ['a']⟩)
    [(.still, .adoptClient ⟨1, ['x']⟩), (.still, .reloadConfig (threeScreens ['c'])),
      (.still, .clientDisconnected ⟨1, ['x']⟩)]) (trace_serve (by decide)) (by decide)
  have hconnected : Always (fun s : Server => ∀ i ∈ s.clients.entries, i.2 ∈ s.clientSet) _ := fun x hx i hi =>
    (hrun x hx).connected i.1 i.2 (x.2.clients.get?_of_mem hi)
  revert hconnected
  decide

end Server
end Synergy
