import Synergy.Server.EventMoves

/-! Taking clients out: what it does to the table and to the three pointers, for one
client and for all that a configuration drops. -/
namespace Synergy
open Synergy.Lib

namespace Server
variable {e : Platform} {s t : Server} {c : BaseClientProxy}

/-- What taking a connected client out comes to. -/
structure Removed (c : BaseClientProxy) (s t : Server) : Prop where
  primaryClient : t.primaryClient = s.primaryClient
  config : t.config = s.config
  clients : t.clients = s.clients.erase (s.getName c)
  clientSet : t.clientSet = s.clientSet.erase c
  owner : ∀ id, (t.clipboards id).owner =
    if (s.clipboards id).owner = s.getName c then s.getName s.primaryClient else (s.clipboards id).owner
  mSwitchScreen : ∀ d, t.mSwitchScreen = some d → s.mSwitchScreen = some d ∧ d ≠ c
  activeSaver : t.activeSaver = if s.activeSaver = some c then none else s.activeSaver
  active : t.active = if s.activeSaver.getD s.active = c then s.primaryClient else s.active

/-- Only the position, the calls and the pointers change. -/
structure SameLists (s t : Server) : Prop where
  primaryClient : t.primaryClient = s.primaryClient
  config : t.config = s.config
  clients : t.clients = s.clients
  clientSet : t.clientSet = s.clientSet
  oldClients : t.oldClients = s.oldClients
  clipboards : t.clipboards = s.clipboards

/-- The pending switch ends and the other pointers stay. -/
theorem stopSwitch_spec (s : Server) : SameLists s s.stopSwitch ∧
    s.stopSwitch.active = s.active ∧ s.stopSwitch.activeSaver = s.activeSaver ∧ s.stopSwitch.mSwitchScreen = none := by
  unfold stopSwitch
  split
  · rename_i h
    exact ⟨⟨rfl, rfl, rfl, rfl, rfl, rfl⟩, rfl, rfl, h⟩
  · exact ⟨⟨rfl, rfl, rfl, rfl, rfl, rfl⟩, rfl, rfl, rfl⟩

private theorem fallBack_spec (e : Platform) (s : Server) (c : BaseClientProxy) : SameLists s (s.fallBack e c) ∧
    (s.fallBack e c).active = s.primaryClient ∧ (s.fallBack e c).activeSaver = s.activeSaver ∧
    ∀ d, (s.fallBack e c).mSwitchScreen = some d → s.mSwitchScreen = some d := by
  let u := { s with x := e.cursorCenter.1, y := e.cursorCenter.2 }
  obtain ⟨hl, -, hv, hs⟩ := u.stopSwitch_spec
  unfold fallBack
  dsimp only
  split
  · split
    · exact ⟨⟨hl.1, hl.2, hl.3, hl.4, hl.5, hl.6⟩, hl.1, hv, fun d hd => by cases hs.symm.trans hd⟩
    · exact ⟨⟨hl.1, hl.2, hl.3, hl.4, hl.5, hl.6⟩, hl.1, hv, fun d hd => by cases hs.symm.trans hd⟩
  · split
    · exact ⟨⟨rfl, rfl, rfl, rfl, rfl, rfl⟩, rfl, rfl, fun d => id⟩
    · exact ⟨⟨rfl, rfl, rfl, rfl, rfl, rfl⟩, rfl, rfl, fun d => id⟩

private theorem forceLeaveClient_spec (e : Platform) (s : Server) (c : BaseClientProxy) : SameLists s (s.forceLeaveClient e c) ∧
    (s.forceLeaveClient e c).active = (if s.activeSaver.getD s.active = c then s.primaryClient else s.active) ∧
    (s.forceLeaveClient e c).activeSaver = (if s.activeSaver = some c then none else s.activeSaver) ∧
    ∀ d, (s.forceLeaveClient e c).mSwitchScreen = some d → s.mSwitchScreen = some d := by
  obtain ⟨hl, ha, hv, hs⟩ := fallBack_spec e s c
  unfold forceLeaveClient
  split
  · simp only [hv]
    split
    · exact ⟨⟨hl.1, hl.2, hl.3, hl.4, hl.5, hl.6⟩, ha, rfl, hs⟩
    · exact ⟨⟨hl.1, hl.2, hl.3, hl.4, hl.5, hl.6⟩, ha, hv, hs⟩
  · dsimp only
    split
    · exact ⟨⟨rfl, rfl, rfl, rfl, rfl, rfl⟩, rfl, rfl, fun d => id⟩
    · exact ⟨⟨rfl, rfl, rfl, rfl, rfl, rfl⟩, rfl, rfl, fun d => id⟩

/-- Removing the client from the lists and then the focus from the client. -/
private theorem removed_of_parts (e : Platform) {u : Server} {old : Finset BaseClientProxy}
    (hl : SameLists { s.eraseClient c with oldClients := old } u) (ha : u.active = s.active)
    (hv : u.activeSaver = s.activeSaver) (hs : ∀ d, u.mSwitchScreen = some d → s.mSwitchScreen = some d ∧ d ≠ c) :
    Removed c s (u.forceLeaveClient e c) ∧ (u.forceLeaveClient e c).oldClients = old := by
  obtain ⟨kl, ka, kv, ks⟩ := forceLeaveClient_spec e u c
  refine ⟨⟨kl.1.trans hl.1, kl.2.trans hl.2, kl.3.trans hl.3, kl.4.trans hl.4, fun id => ?_, fun d hd => hs d (ks d hd), ?_, ?_⟩,
    kl.5.trans hl.5⟩
  · rw [kl.6, hl.6]
    unfold eraseClient
    dsimp only
    split <;> rfl
  · rw [kv, hv]
  · rw [ka, hv, ha, hl.1]
    rfl

theorem removeClient_spec (h : c ∈ s.clientSet) : ∃ u, s.removeClient c = some u ∧ SameLists (s.eraseClient c) u ∧
    u.active = s.active ∧ u.activeSaver = s.activeSaver ∧
    ∀ d, u.mSwitchScreen = some d → s.mSwitchScreen = some d ∧ d ≠ c := by
  refine ⟨_, if_neg (not_not.mpr h), ?_⟩
  obtain ⟨hl, ha, hv, hs⟩ := (s.eraseClient c).stopSwitch_spec
  split
  · exact ⟨hl, ha, hv, fun d hd => by cases hs.symm.trans hd⟩
  · rename_i hne
    refine ⟨⟨rfl, rfl, rfl, rfl, rfl, rfl⟩, rfl, rfl, fun d hd => ⟨hd, ?_⟩⟩
    rintro rfl
    exact hne hd

theorem closeClient_removed (e : Platform) (h : c ∈ s.clientSet) :
    Removed c s (s.closeClient e c) ∧ (s.closeClient e c).oldClients = insert c s.oldClients := by
  have hcall : c ∈ (s.call c .close).clientSet := h
  obtain ⟨u, hu, hl, ha, hv, hs⟩ := removeClient_spec hcall
  have hold : insert c u.oldClients = insert c s.oldClients := by rw [hl.5]; rfl
  rw [closeClient, hu, Option.getD_some]
  exact removed_of_parts e ⟨hl.1, hl.2, hl.3, hl.4, hold, hl.6⟩ ha hv hs

theorem removeActiveClient_removed (e : Platform) (h : c ∈ s.clientSet) :
    Removed c s (s.removeActiveClient e c) ∧ (s.removeActiveClient e c).oldClients = s.oldClients := by
  obtain ⟨u, hu, hl, ha, hv, hs⟩ := removeClient_spec h
  rw [removeActiveClient, hu]
  exact removed_of_parts e hl ha hv hs

theorem handleClientDisconnected_removed (e : Platform) (h : c ∈ s.clientSet) :
    Removed c s (s.handleClientDisconnected e c) ∧
      (s.handleClientDisconnected e c).oldClients = s.oldClients.erase c := by
  obtain ⟨hr, hold⟩ := removeActiveClient_removed e h
  exact ⟨⟨hr.1, hr.2, hr.3, hr.4, hr.5, hr.6, hr.7, hr.8⟩, congrArg (·.erase c) hold⟩

/-- What is removed is the entry under the name that the client has now. -/
theorem removeClient_clients (h : c ∈ s.clientSet) :
    ∃ t, s.removeClient c = some t ∧ t.clients = s.clients.erase (s.getName c) := by
  obtain ⟨u, hu, hl, -⟩ := removeClient_spec h
  exact ⟨u, hu, hl.clients⟩

theorem closeClient_unlisted (e : Platform) (h : c ∉ s.clientSet) :
    SameLists { s with oldClients := insert c s.oldClients } (s.closeClient e c) := by
  have hcall : (s.call c .close).removeClient c = none := if_pos h
  rw [closeClient, hcall, Option.getD_none]
  have hl := (forceLeaveClient_spec e { s.call c .close with oldClients := insert c s.oldClients } c).1
  exact ⟨hl.1, hl.2, hl.3, hl.4, hl.5, hl.6⟩

/-- A client that is not in the list is only put among the old ones. -/
theorem closeClient_rejected (e : Platform) (h : c ∉ s.clientSet) (ha : s.active ≠ c) (hv : s.activeSaver ≠ some c) :
    ∃ calls, s.closeClient e c = { s with oldClients := insert c s.oldClients, calls := calls } := by
  have hcall : (s.call c .close).removeClient c = none := if_pos h
  have hnot : s.activeSaver.getD s.active ≠ c := by
    intro hc
    cases hs : s.activeSaver with
    | none => exact ha (by simpa [hs] using hc)
    | some d => exact hv (by rw [hs] at hc ⊢; exact congrArg some hc)
  rw [closeClient, hcall, Option.getD_none, forceLeaveClient]
  exact ⟨_, by simp only [call, hnot, hv, if_false]; rfl⟩

theorem handleClientDisconnected_old (e : Platform) (h : c ∉ s.clientSet) :
    s.handleClientDisconnected e c = { s with oldClients := s.oldClients.erase c } := by
  have hnone : s.removeClient c = none := if_pos h
  rw [handleClientDisconnected, removeActiveClient, hnone]
  rfl

theorem mem_droppedClients {config : Config} (hc : c ∈ s.droppedClients config) :
    s.Connected c ∧ c ≠ s.primaryClient := by
  unfold droppedClients at hc
  rw [List.mem_insertionSort, List.mem_dedup, List.mem_filter, List.mem_map] at hc
  obtain ⟨⟨i, hi, rfl⟩, hp⟩ := hc
  exact ⟨⟨i.1, s.clients.get?_of_mem (List.mem_of_mem_filter hi)⟩, by simpa using hp⟩

theorem nodup_droppedClients (s : Server) (config : Config) : (s.droppedClients config).Nodup :=
  (List.perm_insertionSort _ _).nodup_iff.mpr (List.nodup_dedup _)

section options
variable {dst : BaseClientProxy → Prop} {aim : Option BaseClientProxy × Int × Int → Prop}

private theorem ite_fst_moves {p : Prop} [Decidable p] {r r' : Server × Bool} (h : Moves dst aim s r.1)
    (h' : Moves dst aim s r'.1) : Moves dst aim s (if p then r else r').1 := by
  split
  · exact h
  · exact h'

private theorem processOption_moves (s : Server) (newRelativeMoves : Bool) (option : OptionID × OptionValue) :
    Moves dst aim s (processOption (s, newRelativeMoves) option).1 := by
  unfold processOption
  dsimp only
  repeat' apply ite_fst_moves
  · exact ⟨⟨rfl, ⟨_, rfl⟩, rfl, rfl, rfl, fun _ => .inl rfl⟩, fun _ => .inl, .of_stopped rfl⟩
  all_goals exact .of_still rfl

/-- What holds across every option and across a stop of the relative moves holds
across all of the options. -/
theorem processOptions_rule {R : Server → Server → Prop} (hrefl : ∀ s, R s s) (htrans : ∀ s t u, R s t → R t u → R s u)
    (hclear : ∀ s, R s (clearSwitchNeeds s)) (hoption : ∀ (r : Server × Bool) option, R r.1 (processOption r option).1)
    (hstop : ∀ s, R s (stopRelativeMoves e s)) (hset : ∀ (s : Server) newRelativeMoves,
      R s { s with relativeMoves := newRelativeMoves }) (s : Server) : R s (s.processOptions e) := by
  have hall : ∀ (options : List (OptionID × OptionValue)) (r : Server × Bool), R r.1 (options.foldl processOption r).1 := by
    intro options
    induction options with
    | nil => exact fun r => hrefl r.1
    | cons option options ih => exact fun r => htrans _ _ _ (hoption r option) (ih _)
  have hrelative : ∀ (s : Server) newRelativeMoves, R s (s.setRelativeMoves e newRelativeMoves) := by
    intro s newRelativeMoves
    refine htrans _ _ _ ?_ (hset _ newRelativeMoves)
    split
    · exact hstop s
    · exact hrefl s
  exact htrans _ _ _ (htrans _ _ _ (hclear s) (hall _ (s.clearSwitchNeeds, s.relativeMoves))) (hrelative _ _)

theorem processOptions_moves (s : Server) : Moves dst aim s (s.processOptions e) :=
  processOptions_rule .refl (fun _ _ _ => .trans) (fun _ => .of_still rfl)
    (fun r option => processOption_moves r.1 r.2 option) (fun s => stopRelativeMoves_moves dst s)
    (fun _ _ => .of_still rfl) s

private theorem addScrollLockRule_moves (s : Server) : Moves dst aim s s.addScrollLockRule :=
  .ite (.of_still rfl) (.refl s)

/-- Once the dropped clients are closed a new configuration moves nothing. -/
theorem setConfig_moves (h : s.config.isScreen s.primaryClient.name = true) :
    Moves dst aim (s.closeClients e s.config) (s.setConfig e) := by
  unfold setConfig
  rw [h]
  refine Moves.trans ?_ (.foldl (fun s c => sendOptions_moves dst s c) _ _)
  refine Moves.trans ?_ (reconfigure_moves dst _)
  exact (processOptions_moves _).trans (addScrollLockRule_moves _)

theorem setConfig_refused (h : s.config.isScreen s.primaryClient.name = false) : s.setConfig e = s := by
  simp [setConfig, h]

end options

/-- Adding a client lists it under its name. -/
theorem addClient_spec (e : Platform) (h : s.clients.contains (s.getName c) = false) :
    ∃ t, s.addClient e c = some t ∧ ∀ dst aim, Moves dst aim { s with
      clientSet := insert c s.clientSet
      clients := s.clients.insert (s.getName c) c } t := by
  refine ⟨_, if_neg (by simp [h]), fun dst aim => ?_⟩
  refine Moves.trans ?_ (reconfigure_moves dst _)
  exact .of_still rfl

/-- A client of the configuration whose name is free is listed. -/
theorem adoptClient_listed (e : Platform) (hscreen : s.config.isScreen c.name = true)
    (hname : s.clients.contains (s.getName c) = false) : ∀ dst aim, Moves dst aim { s with
      clientSet := insert c s.clientSet
      clients := s.clients.insert (s.getName c) c } (s.adoptClient e c) := by
  intro dst aim
  obtain ⟨t, ht, hm⟩ := addClient_spec e hname
  unfold adoptClient
  rw [if_neg (by simp [hscreen]), ht]
  exact ((hm dst aim).trans (sendOptions_moves dst t c)).trans (.ite (call_moves dst _ _ _) (.refl _))

/-- A client is adopted under its own name or sent away. -/
theorem adoptClient_cases (e : Platform) (s : Server) (c : BaseClientProxy) :
    s.adoptClient e c = s.closeClient e c ∨
      s.clients.contains (s.getName c) = false ∧ s.config.isScreen c.name = true ∧ ∀ dst aim, Moves dst aim { s with
        clientSet := insert c s.clientSet
        clients := s.clients.insert (s.getName c) c } (s.adoptClient e c) := by
  cases hscreen : s.config.isScreen c.name with
  | false => exact .inl (if_pos (by simp [hscreen]))
  | true =>
    cases hname : s.clients.contains (s.getName c) with
    | true =>
      have hnone : s.addClient e c = none := if_pos hname
      exact .inl (by rw [adoptClient, if_neg (by simp [hscreen]), hnone])
    | false => exact .inr ⟨rfl, rfl, adoptClient_listed e hscreen hname⟩

/-- The members of a new server with its primary client added. -/
def withPrimary (config : Config) (primaryClient : BaseClientProxy) : Server :=
  { initial config primaryClient with
    clientSet := {primaryClient}
    clients := SortedMap.empty.insert (config.getName primaryClient) primaryClient }

private theorem initial_adds (e : Platform) (config : Config) (primaryClient : BaseClientProxy) :
    ∃ t, (initial config primaryClient).addClient e primaryClient = some t ∧
      ∀ dst aim, Moves dst aim (withPrimary config primaryClient) t :=
  addClient_spec e rfl

/-- The configuration that a server starts with closes nobody. -/
theorem initial_closeClients (e : Platform) {config : Config} {primaryClient : BaseClientProxy} {t : Server}
    (h : (initial config primaryClient).addClient e primaryClient = some t) : t.closeClients e t.config = t := by
  obtain ⟨u, hu, hm⟩ := initial_adds e config primaryClient
  obtain rfl := Option.some.inj (h.symm.trans hu)
  have hstart : Moves (fun _ => False) (fun _ => False) (withPrimary config primaryClient) t := hm _ _
  have hnone : t.droppedClients t.config = [] := by
    refine List.eq_nil_iff_forall_not_mem.mpr fun c hc => ?_
    obtain ⟨⟨n, hn⟩, hne⟩ := mem_droppedClients hc
    rw [hstart.clients, withPrimary, SortedMap.get?_insert] at hn
    rw [hstart.primaryClient] at hne
    split at hn
    · exact hne (Option.some.inj hn).symm
    · cases hn
  rw [closeClients, hnone]
  rfl

/-- The constructor comes to no more than that as far as clients go. -/
theorem new_moves (e : Platform) (config : Config) (primaryClient : BaseClientProxy) {dst : BaseClientProxy → Prop}
    {aim : Option BaseClientProxy × Int × Int → Prop} :
    Moves dst aim (withPrimary config primaryClient) (new e config primaryClient) := by
  obtain ⟨t, ht, hm⟩ := initial_adds e config primaryClient
  have hset : Moves dst aim t (t.setConfig e) := by
    cases hscreen : t.config.isScreen t.primaryClient.name with
    | false => exact (setConfig_refused hscreen).symm ▸ .refl t
    | true =>
      have hafter : Moves dst aim (t.closeClients e t.config) (t.setConfig e) := setConfig_moves hscreen
      rwa [initial_closeClients e ht] at hafter
  unfold new
  dsimp only
  rw [ht, Option.getD_some]
  refine ((hm dst aim).trans hset).trans ?_
  exact .of_still rfl

end Server
end Synergy
