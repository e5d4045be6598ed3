import Mathlib.Data.Finset.Card
import Synergy.Server.FocusSafety
import Synergy.Server.ServerLife

/-! Every client proxy is closed once, as long as clients are taken out under the names they
are listed by and the server lives. -/
namespace Synergy
open Synergy.Lib

namespace Server
variable {e : Platform} {s t : Server} {c : BaseClientProxy}

/-- The table and the set hold the same clients, each of them once. -/
structure Lists (s : Server) : Prop where
  values : (s.clients.entries.map Prod.snd).Nodup
  connected : ∀ c, c ∈ s.clients.entries.map Prod.snd ↔ c ∈ s.clientSet
  primary : s.primaryClient ∈ s.clientSet
  apart : Disjoint s.clientSet s.oldClients

private theorem Lists.of_eq (h : s.Lists) (hclients : t.clients = s.clients) (hset : t.clientSet = s.clientSet)
    (hold : t.oldClients = s.oldClients) (hprimary : t.primaryClient = s.primaryClient) : t.Lists := by
  refine ⟨?_, fun c => ?_, ?_, ?_⟩
  · rw [hclients]
    exact h.values
  · rw [hclients, hset]
    exact h.connected c
  · rw [hprimary, hset]
    exact h.primary
  · rw [hset, hold]
    exact h.apart

/-- The primary client is alone in the table exactly if it is alone in the set. -/
theorem Lists.size_eq_one_iff (h : s.Lists) : s.clients.size = 1 ↔ s.clientSet = {s.primaryClient} := by
  have hset : (s.clients.entries.map Prod.snd).toFinset = s.clientSet :=
    Finset.ext fun c => List.mem_toFinset.trans (h.connected c)
  have hcard : s.clientSet.card = s.clients.size := by
    rw [← hset, List.toFinset_card_of_nodup h.values, List.length_map]
    rfl
  rw [← hcard, Finset.card_eq_one]
  constructor
  · rintro ⟨c, hc⟩
    have hp := h.primary
    rw [hc, Finset.mem_singleton] at hp
    rw [hc, hp]
  · exact fun hc => ⟨_, hc⟩

private theorem entries_erase {m : ClientList} {name : Str} (hget : m.get? name = some c) :
    (m.entries.map Prod.snd).Perm (c :: (m.erase name).entries.map Prod.snd) := by
  obtain ⟨j, hj, hrank⟩ := (m.get?_eq_some_iff name c).mp hget
  obtain rfl : j = name := hrank
  exact (m.entries_erase_perm hj).map Prod.snd

/-- A client goes under the name it is listed by. -/
private theorem Lists.removed (h : s.Lists) (hc : c ≠ s.primaryClient) (hlisted : s.clients.get? (s.getName c) = some c)
    (hr : Removed c s t) (hold : Disjoint (s.clientSet.erase c) t.oldClients) : t.Lists := by
  have hperm := entries_erase hlisted
  have hnodup := hperm.nodup_iff.mp h.values
  obtain ⟨hnot, hrest⟩ := List.nodup_cons.mp hnodup
  refine ⟨?_, fun d => ?_, ?_, ?_⟩
  · rw [hr.clients]
    exact hrest
  · rw [hr.clients, hr.clientSet, Finset.mem_erase, ← h.connected d, hperm.mem_iff, List.mem_cons]
    constructor
    · intro hd
      exact ⟨fun hdc => hnot (hdc ▸ hd), .inr hd⟩
    · rintro ⟨hdc, hd⟩
      exact hd.resolve_left hdc
  · rw [hr.primaryClient, hr.clientSet]
    exact Finset.mem_erase.mpr ⟨hc.symm, h.primary⟩
  · rwa [hr.clientSet]

private theorem Lists.added (h : s.Lists) {name : Str} (hfree : s.clients.contains name = false)
    (hnew : c ∉ s.clientSet) (hold : c ∉ s.oldClients) :
    { s with clientSet := insert c s.clientSet, clients := s.clients.insert name c }.Lists := by
  have hperm := (s.clients.entries_insert_perm c hfree).map Prod.snd
  refine ⟨?_, fun d => ?_, Finset.mem_insert_of_mem h.primary, Finset.disjoint_insert_left.mpr ⟨hold, h.apart⟩⟩
  · exact hperm.nodup_iff.mpr (List.nodup_cons.mpr ⟨fun hc => hnew ((h.connected c).mp hc), h.values⟩)
  · rw [hperm.mem_iff, List.map_cons, List.mem_cons, h.connected d, Finset.mem_insert]

/-- Closing a client, connected or not, moves it to the old ones. -/
private theorem Lists.closeClient (h : s.Lists) (hc : c ≠ s.primaryClient)
    (hlisted : c ∈ s.clientSet → s.clients.get? (s.getName c) = some c) :
    (s.closeClient e c).Lists ∧ (s.closeClient e c).clientSet = s.clientSet.erase c ∧
      (s.closeClient e c).oldClients = insert c s.oldClients ∧
      (s.closeClient e c).primaryClient = s.primaryClient := by
  have hapart : Disjoint (s.clientSet.erase c) (insert c s.oldClients) :=
    Finset.disjoint_insert_right.mpr ⟨Finset.notMem_erase c _, h.apart.mono_left (Finset.erase_subset _ _)⟩
  by_cases hmem : c ∈ s.clientSet
  · obtain ⟨hr, hclosed⟩ := closeClient_removed e hmem
    exact ⟨h.removed hc (hlisted hmem) hr (hclosed ▸ hapart), hr.clientSet, hclosed, hr.primaryClient⟩
  · have hsame := closeClient_unlisted e hmem
    have herase : s.clientSet.erase c = s.clientSet := Finset.erase_eq_of_notMem hmem
    have hopen : { s with oldClients := insert c s.oldClients }.Lists :=
      ⟨h.values, h.connected, h.primary, herase ▸ hapart⟩
    exact ⟨hopen.of_eq hsame.clients hsame.clientSet hsame.oldClients hsame.primaryClient,
      hsame.clientSet.trans herase.symm, hsame.oldClients, hsame.primaryClient⟩

/-- Closing a client leaves the others listed as they were. -/
private theorem closeClient_keeps_listed {d : BaseClientProxy} (hdc : d ≠ c)
    (hlisted : c ∈ s.clientSet → s.clients.get? (s.getName c) = some c) (hd : s.clients.get? (s.getName d) = some d) :
    (s.closeClient e c).clients.get? ((s.closeClient e c).getName d) = some d := by
  by_cases hmem : c ∈ s.clientSet
  · obtain ⟨hr, -⟩ := closeClient_removed e hmem
    have hname : (s.closeClient e c).getName d = s.getName d := by rw [getName, getName, hr.config]
    have hne : s.getName d ≠ s.getName c := by
      intro hsame
      rw [hsame, hlisted hmem] at hd
      exact hdc (Option.some.inj hd).symm
    rw [hname, hr.clients, SortedMap.get?_erase, if_neg hne, hd]
  · have hsame := closeClient_unlisted e hmem
    have hname : (s.closeClient e c).getName d = s.getName d := by
      rw [getName, getName, hsame.config]
    rw [hname, hsame.clients, hd]

end Server

namespace ServerLife
open Server
variable {e : Platform} {p : ServerLife} {w : Finset BaseClientProxy} {c : BaseClientProxy}

@[simp] theorem Handlers.remove_apply (h : Handlers) (type : EventTypes) (target : Target) (k : EventTypes × Target) :
    h.remove type target k = if k = (type, target) then none else h k := Function.update_apply ..

@[simp] theorem Handlers.add_apply (h : Handlers) (type : EventTypes) (target : Target)
    (captured : Option BaseClientProxy) (k : EventTypes × Target) :
    h.add type target captured k = if k = (type, target) then some captured else h k := Function.update_apply ..

/-- The handlers of a client in the list. -/
def listTypes : List EventTypes := [.screenShapeChanged, .clipboardGrabbed, .clipboardChanged]

/-- The handlers of a connected client. -/
def clientTypes : List EventTypes := .clientProxyDisconnected :: listTypes

private theorem removeListHandlers_eq (p : ServerLife) (c : BaseClientProxy) : p.removeListHandlers c = { p with
    handlers := fun k =>
      if c ∈ p.server.clientSet ∧ k.2 = .client c ∧ k.1 ∈ listTypes then none else p.handlers k } := by
  unfold removeListHandlers
  split
  · rename_i hmem
    refine congrArg (fun h => { p with handlers := h }) (funext fun k => ?_)
    obtain ⟨type, target⟩ := k
    simp only [removeHandler, Handlers.remove_apply, Prod.mk.injEq, listTypes, List.mem_cons, List.not_mem_nil,
      or_false, hmem, true_and]
    by_cases htarget : target = .client c <;> simp only [htarget, and_true, and_false, true_and, false_and, if_false]
    by_cases h1 : type = .screenShapeChanged <;> by_cases h2 : type = .clipboardGrabbed <;>
      by_cases h3 : type = .clipboardChanged <;> simp [h1, h2, h3]
  · rename_i hmem
    simp only [hmem, false_and, if_false]

private theorem addListHandlers_eq (p : ServerLife) (c : BaseClientProxy) : p.addListHandlers c = { p with
    handlers := fun k => if k.2 = .client c ∧ k.1 ∈ listTypes then some (some c) else p.handlers k } := by
  unfold addListHandlers
  refine congrArg (fun h => { p with handlers := h }) (funext fun k => ?_)
  obtain ⟨type, target⟩ := k
  simp only [addHandler, Handlers.add_apply, Prod.mk.injEq, listTypes, List.mem_cons, List.not_mem_nil, or_false]
  by_cases htarget : target = .client c <;> simp only [htarget, and_true, and_false, true_and, false_and, if_false]
  by_cases h1 : type = .screenShapeChanged <;> by_cases h2 : type = .clipboardGrabbed <;>
    by_cases h3 : type = .clipboardChanged <;> simp [h1, h2, h3]

/-- The timers of the old clients: one for each of them, with a handler that has captured it. -/
structure Timed (p : ServerLife) : Prop where
  timers : ∀ n, n ∈ p.timers ↔ ∃ c, p.oldTimer c = some n
  single : ∀ c d n, p.oldTimer c = some n → p.oldTimer d = some n → c = d
  fresh : ∀ n ∈ p.timers, n < p.nextTimer
  handlers : ∀ n v, p.handlers (.timer, .timer n) = some v ↔ ∃ c, v = some c ∧ p.oldTimer c = some n
  types : ∀ type n, p.handlers (type, .timer n) ≠ none → type = .timer

/-- What holds of a server that lives, with the clients in `w` in none of the lists: they have
just been adopted or taken out. -/
structure Kept (w : Finset BaseClientProxy) (p : ServerLife) : Prop where
  lists : p.server.Lists
  old : ∀ c, c ∈ p.server.oldClients ↔ p.oldTimer c ≠ none
  timed : p.Timed
  clientHandlers : ∀ type c, p.handlers (type, .client c) ≠ none →
    c ∈ p.server.clientSet ∧ (c = p.server.primaryClient ∨ type ∈ clientTypes) ∨
      (c ∈ p.server.oldClients ∨ c ∈ w) ∧ type = .clientProxyDisconnected
  captured : ∀ c v, p.handlers (.clientProxyDisconnected, .client c) = some v → v = some c ∧ c ≠ p.server.primaryClient
  toggleScreen : p.handlers (.serverToggleScreen, .inputFilter) ≠ none
  adopted : ∀ c, c ∈ p.server.clientSet ∨ c ∈ p.server.oldClients ∨ c ∈ w → c = p.server.primaryClient ∨ c ∈ p.adopted
  primary : p.server.primaryClient ∉ p.adopted
  waiting : ∀ c ∈ w, c ∉ p.server.clientSet ∧ c ∉ p.server.oldClients
  deletions : ∀ c, p.deletions c =
    if c ∈ p.adopted ∧ c ∉ p.server.clientSet ∧ c ∉ p.server.oldClients ∧ c ∉ w then 1 else 0
  counted : ∀ n, p.disconnected = some n → n ≤ p.announcements
  announced : ∀ n, p.disconnected = some n → p.server.clientSet = {p.server.primaryClient} →
    p.server.oldClients = ∅ → n < p.announcements
  alive : p.alive = true

theorem Kept.closedOnce (h : Kept ∅ p) : p.ClosedOnce := by
  have hheld : ∀ c, p.Holds c ↔ c ∈ p.server.clientSet ∨ c ∈ p.server.oldClients := fun c => and_iff_right h.alive
  refine ⟨h.lists.apart, fun _ c => ?_, fun _ n hn n' hn' hsame => ?_, fun c hc => ?_, fun type target hne => ?_,
    fun n hn _ => h.announced n hn⟩
  · rw [h.old]
    constructor
    · intro hc
      obtain ⟨n, hn⟩ := Option.ne_none_iff_exists'.mp hc
      exact ⟨n, (h.timed.timers n).mpr ⟨c, hn⟩, (h.timed.handlers n _).mpr ⟨c, rfl, hn⟩⟩
    · rintro ⟨n, -, hn⟩
      obtain ⟨d, hd, hold⟩ := (h.timed.handlers n _).mp hn
      rw [Option.some.inj hd, hold]
      exact Option.some_ne_none n
  · obtain ⟨c, hc⟩ := (h.timed.timers n).mp hn
    have hv := (h.timed.handlers n _).mpr ⟨c, rfl, hc⟩
    obtain ⟨d, hd, hd'⟩ := (h.timed.handlers n' _).mp (hsame ▸ hv)
    rw [← Option.some.inj hd, hc] at hd'
    exact Option.some.inj hd'
  · rw [hheld, h.deletions]
    by_cases hlist : c ∈ p.server.clientSet ∨ c ∈ p.server.oldClients
    · exact .inl ⟨hlist, if_neg fun hnot => hlist.elim hnot.2.1 hnot.2.2.1⟩
    · obtain ⟨hset, hold⟩ := not_or.mp hlist
      exact .inr ⟨hlist, if_pos ⟨hc, hset, hold, Finset.notMem_empty c⟩⟩
  · refine ⟨h.alive, ?_, ?_⟩
    · rintro c rfl
      rw [h.deletions]
      refine if_neg fun hnot => ?_
      rcases h.clientHandlers type c hne with ⟨hset, -⟩ | ⟨hold | hw, -⟩
      · exact hnot.2.1 hset
      · exact hnot.2.2.1 hold
      · exact Finset.notMem_empty c hw
    · rintro n rfl
      obtain rfl := h.timed.types type n hne
      obtain ⟨v, hv⟩ := Option.ne_none_iff_exists'.mp hne
      obtain ⟨c, -, hc⟩ := (h.timed.handlers n v).mp hv
      exact (h.timed.timers n).mpr ⟨c, hc⟩

private theorem Timed.started (h : p.Timed) (hnone : p.oldTimer c = none) (q : ServerLife)
    (htimers : q.timers = insert p.nextTimer p.timers) (hnext : q.nextTimer = p.nextTimer + 1)
    (hold : q.oldTimer = Function.update p.oldTimer c (some p.nextTimer))
    (hhandlers : ∀ type n, q.handlers (type, .timer n) =
      p.handlers.add .timer (.timer p.nextTimer) (some c) (type, .timer n)) : q.Timed := by
  have hnew : ∀ d, p.oldTimer d ≠ some p.nextTimer := fun d hd =>
    lt_irrefl _ (h.fresh _ ((h.timers _).mpr ⟨d, hd⟩))
  have hother : ∀ d n, p.oldTimer d = some n → d ≠ c := by
    rintro d n hd rfl
    exact Option.some_ne_none n (hd.symm.trans hnone)
  have hget : ∀ d n, q.oldTimer d = some n ↔ d = c ∧ n = p.nextTimer ∨ p.oldTimer d = some n := by
    intro d n
    rw [hold, Function.update_apply]
    split
    · rename_i hdc
      simp [hdc, hnone, eq_comm]
    · rename_i hdc
      simp [hdc]
  refine ⟨fun n => ?_, fun a b n ha hb => ?_, fun n hn => ?_, fun n v => ?_, fun type n hne => ?_⟩
  · rw [htimers, Finset.mem_insert, h.timers]
    simp only [hget, exists_or, exists_and_right, exists_eq, true_and]
  · rcases (hget a n).mp ha with ⟨rfl, rfl⟩ | ha <;> rcases (hget b _).mp hb with ⟨rfl, hn⟩ | hb
    · rfl
    · exact absurd hb (hnew b)
    · exact absurd (hn ▸ ha) (hnew a)
    · exact h.single a b n ha hb
  · rw [htimers, Finset.mem_insert] at hn
    rw [hnext]
    rcases hn with rfl | hn
    · exact Nat.lt_succ_self _
    · exact Nat.lt_succ_of_lt (h.fresh n hn)
  · rw [hhandlers, Handlers.add_apply]
    simp only [hget, Prod.mk.injEq, true_and, Target.timer.injEq]
    by_cases hn : n = p.nextTimer
    · rw [if_pos hn, Option.some.injEq, hn]
      constructor
      · rintro rfl
        exact ⟨c, rfl, .inl ⟨rfl, rfl⟩⟩
      · rintro ⟨d, rfl, ⟨rfl, -⟩ | hd⟩
        · rfl
        · exact absurd hd (hnew d)
    · rw [if_neg hn, h.handlers]
      simp only [hn, and_false, false_or]
  · rw [hhandlers, Handlers.add_apply] at hne
    split at hne
    · rename_i hk
      exact (Prod.mk.inj hk).1
    · exact h.types type n hne

/-- The timer of a client is deleted with its handler. -/
private theorem Timed.stopped (h : p.Timed) {n : Nat} (hc : p.oldTimer c = some n) (q : ServerLife)
    (htimers : q.timers = p.timers.erase n) (hnext : q.nextTimer = p.nextTimer)
    (hold : q.oldTimer = Function.update p.oldTimer c none)
    (hhandlers : ∀ type k, q.handlers (type, .timer k) = p.handlers.remove .timer (.timer n) (type, .timer k)) :
    q.Timed := by
  have hget : ∀ d k, q.oldTimer d = some k ↔ p.oldTimer d = some k ∧ k ≠ n := by
    intro d k
    rw [hold, Function.update_apply]
    split
    · rename_i hdc
      rw [hdc, hc]
      simp [eq_comm]
    · rename_i hdc
      exact ⟨fun hd => ⟨hd, fun hk => hdc (h.single d c k hd (hk ▸ hc))⟩, And.left⟩
  refine ⟨fun k => ?_, fun a b k ha hb => ?_, fun k hk => ?_, fun k v => ?_, fun type k hne => ?_⟩
  · rw [htimers, Finset.mem_erase, h.timers]
    simp only [hget, exists_and_right, and_comm (a := k ≠ n)]
  · exact h.single a b k ((hget a k).mp ha).1 ((hget b k).mp hb).1
  · rw [htimers] at hk
    exact hnext ▸ h.fresh k (Finset.mem_of_mem_erase hk)
  · rw [hhandlers, Handlers.remove_apply]
    simp only [hget, Prod.mk.injEq, true_and, Target.timer.injEq]
    by_cases hk : k = n
    · simp [hk]
    · rw [if_neg hk, h.handlers]
      simp only [hk, ne_eq, not_false_eq_true, and_true]
  · rw [hhandlers, Handlers.remove_apply] at hne
    split at hne
    · exact absurd rfl hne
    · exact h.types type k hne

private theorem Timed.of_eq (h : p.Timed) {q : ServerLife} (htimers : q.timers = p.timers)
    (hnext : q.nextTimer = p.nextTimer) (hold : q.oldTimer = p.oldTimer)
    (hhandlers : ∀ type n, q.handlers (type, .timer n) = p.handlers (type, .timer n)) : q.Timed := by
  refine ⟨?_, ?_, ?_, ?_, ?_⟩
  · rw [htimers, hold]
    exact h.timers
  · rw [hold]
    exact h.single
  · rw [htimers, hnext]
    exact h.fresh
  · simp only [hhandlers, hold]
    exact h.handlers
  · simp only [hhandlers]
    exact h.types

private theorem closeClient_eq (p : ServerLife) (c : BaseClientProxy) : p.closeClient e c = { p with
    server := p.server.closeClient e c
    handlers := fun k =>
      if c ∈ p.server.clientSet ∧ k.2 = .client c ∧ k.1 ∈ listTypes then none
      else p.handlers.add .timer (.timer p.nextTimer) (some c) k
    oldTimer := Function.update p.oldTimer c ((p.oldTimer c).or (some p.nextTimer))
    timers := insert p.nextTimer p.timers
    nextTimer := p.nextTimer + 1 } := by
  rw [ServerLife.closeClient, removeListHandlers_eq]
  rfl

/-- A client that is connected, or has just been adopted, is closed. -/
theorem Kept.closeClient (h : Kept w p) (hc : c ≠ p.server.primaryClient)
    (hplace : c ∈ p.server.clientSet ∧ p.server.clients.get? (p.server.getName c) = some c ∨ c ∈ w) :
    Kept (w.erase c) (p.closeClient e c) := by
  have hlisted : c ∈ p.server.clientSet → p.server.clients.get? (p.server.getName c) = some c := by
    rcases hplace with ⟨-, hget⟩ | hw
    · exact fun _ => hget
    · exact fun hmem => absurd hmem (h.waiting c hw).1
  have hnotOld : c ∉ p.server.oldClients := by
    rcases hplace with ⟨hmem, -⟩ | hw
    · exact Finset.disjoint_left.mp h.lists.apart hmem
    · exact (h.waiting c hw).2
  have hnone : p.oldTimer c = none := by simpa using mt (h.old c).mpr hnotOld
  have hadopted : c ∈ p.adopted := by
    refine (h.adopted c ?_).resolve_left hc
    rcases hplace with ⟨hmem, -⟩ | hw
    · exact .inl hmem
    · exact .inr (.inr hw)
  obtain ⟨hlists, hset, hold, hprimary⟩ := h.lists.closeClient (e := e) hc hlisted
  obtain ⟨q, hq, hserver, hhandlers, htimer, hrest⟩ : ∃ q, q = p.closeClient e c ∧
      q.server = p.server.closeClient e c ∧ (∀ k, q.handlers k =
        if c ∈ p.server.clientSet ∧ k.2 = .client c ∧ k.1 ∈ listTypes then none
        else p.handlers.add .timer (.timer p.nextTimer) (some c) k) ∧
      q.oldTimer = Function.update p.oldTimer c (some p.nextTimer) ∧
      (q.timers = insert p.nextTimer p.timers ∧ q.nextTimer = p.nextTimer + 1 ∧ q.adopted = p.adopted ∧
        q.deletions = p.deletions ∧ q.announcements = p.announcements ∧ q.disconnected = p.disconnected ∧
        q.alive = p.alive) := by
    refine ⟨_, rfl, ?_⟩
    rw [closeClient_eq, hnone]
    exact ⟨rfl, fun _ => rfl, rfl, rfl, rfl, rfl, rfl, rfl, rfl, rfl⟩
  obtain ⟨htimers, hnext, hadopt, hdeletions, hannouncements, hdisconnected, halive⟩ := hrest
  rw [← hq]
  have hclient : ∀ type d, q.handlers (type, .client d) =
      if c ∈ p.server.clientSet ∧ d = c ∧ type ∈ listTypes then none else p.handlers (type, .client d) := by
    intro type d
    rw [hhandlers, Handlers.add_apply, if_neg (c := (type, Target.client d) = _) (by simp)]
    simp only [Target.client.injEq]
  constructor
  case lists => exact hserver ▸ hlists
  case old =>
    intro d
    rw [hserver, hold, htimer, Finset.mem_insert, h.old, Function.update_apply]
    split
    · rename_i hd
      simp [hd]
    · rename_i hd
      simp [hd]
  case timed =>
    refine h.timed.started hnone q htimers hnext htimer fun type n => ?_
    rw [hhandlers]
    exact if_neg fun hk => Target.noConfusion hk.2.1
  case clientHandlers =>
    intro type d hne
    rw [hserver, hset, hold, hprimary]
    rw [hclient] at hne
    split at hne
    · exact absurd rfl hne
    rename_i hkept
    rw [Finset.mem_erase, Finset.mem_insert, Finset.mem_erase]
    by_cases hdc : d = c
    · refine .inr ⟨.inl (.inl hdc), ?_⟩
      rcases h.clientHandlers type d hne with ⟨hmem, hd | htype⟩ | ⟨-, htype⟩
      · exact absurd (hdc.symm.trans hd) hc
      · exact (List.mem_cons.mp htype).resolve_right fun hlist => hkept ⟨hdc ▸ hmem, hdc, hlist⟩
      · exact htype
    · rcases h.clientHandlers type d hne with ⟨hmem, hd⟩ | ⟨hd | hd, htype⟩
      · exact .inl ⟨⟨hdc, hmem⟩, hd⟩
      · exact .inr ⟨.inl (.inr hd), htype⟩
      · exact .inr ⟨.inr ⟨hdc, hd⟩, htype⟩
  case captured =>
    intro d v hv
    rw [hclient, if_neg (by simp [listTypes])] at hv
    rw [hserver, hprimary]
    exact h.captured d v hv
  case toggleScreen =>
    rw [hhandlers, if_neg (by simp), Handlers.add_apply, if_neg (by simp)]
    exact h.toggleScreen
  case adopted =>
    intro d hd
    rw [hserver, hset, hold, Finset.mem_erase, Finset.mem_insert, Finset.mem_erase] at hd
    rw [hserver, hprimary, hadopt]
    rcases hd with ⟨-, hd⟩ | (rfl | hd) | ⟨-, hd⟩
    · exact h.adopted d (.inl hd)
    · exact .inr hadopted
    · exact h.adopted d (.inr (.inl hd))
    · exact h.adopted d (.inr (.inr hd))
  case primary =>
    rw [hserver, hprimary, hadopt]
    exact h.primary
  case waiting =>
    intro d hd
    obtain ⟨hdc, hd⟩ := Finset.mem_erase.mp hd
    rw [hserver, hset, hold, Finset.mem_erase, Finset.mem_insert]
    exact ⟨fun hmem => (h.waiting d hd).1 hmem.2, not_or.mpr ⟨hdc, (h.waiting d hd).2⟩⟩
  case deletions =>
    intro d
    rw [hdeletions, h.deletions, hserver, hset, hold, hadopt]
    refine if_congr ?_ rfl rfl
    simp only [Finset.mem_erase, Finset.mem_insert]
    by_cases hdc : d = c
    · simp only [hdc, true_or, not_true, false_and, and_false, iff_false, not_and]
      exact fun _ hset _ hw => hplace.elim (fun hmem => hset hmem.1) hw
    · simp only [hdc, ne_eq, not_false_eq_true, true_and, false_or]
  case counted =>
    rw [hdisconnected, hannouncements]
    exact h.counted
  case announced =>
    intro n hn _ hempty
    rw [hserver, hold] at hempty
    exact absurd hempty (Finset.insert_ne_empty _ _)
  case alive => exact halive.trans h.alive

/-- The clients that a configuration drops are closed one after the other. -/
private theorem Kept.closeAll (h : Kept ∅ p) {l : List BaseClientProxy} (hnodup : l.Nodup)
    (hl : ∀ d ∈ l, d ≠ p.server.primaryClient ∧ d ∈ p.server.clientSet ∧
      p.server.clients.get? (p.server.getName d) = some d) :
    Kept ∅ (l.foldl (fun p d => p.closeClient e d) p) := by
  induction l generalizing p with
  | nil => exact h
  | cons c l ih =>
    obtain ⟨hc, hmem, hget⟩ := hl c List.mem_cons_self
    obtain ⟨hnot, hnodup⟩ := List.nodup_cons.mp hnodup
    have hclosed : Kept ∅ (p.closeClient e c) := h.closeClient hc (.inl ⟨hmem, hget⟩)
    obtain ⟨-, hset, -, hprimary⟩ := h.lists.closeClient (e := e) hc fun _ => hget
    refine ih hclosed hnodup fun d hd => ?_
    obtain ⟨hd1, hd2, hd3⟩ := hl d (List.mem_cons_of_mem c hd)
    have hdc : d ≠ c := fun hdc => hnot (hdc ▸ hd)
    have hserver : (p.closeClient e c).server = p.server.closeClient e c := by rw [closeClient_eq]
    rw [hserver, hprimary, hset]
    exact ⟨hd1, Finset.mem_erase.mpr ⟨hdc, hd2⟩, closeClient_keeps_listed hdc (fun _ => hget) hd3⟩

/-- Nothing of the server matters but its lists. -/
private theorem Kept.withServer (h : Kept w p) {s : Server} (hclients : s.clients = p.server.clients)
    (hset : s.clientSet = p.server.clientSet) (hold : s.oldClients = p.server.oldClients)
    (hprimary : s.primaryClient = p.server.primaryClient) : Kept w { p with server := s } where
  lists := h.lists.of_eq hclients hset hold hprimary
  old := hold ▸ h.old
  timed := h.timed.of_eq rfl rfl rfl fun _ _ => rfl
  clientHandlers := by
    rw [hset, hold, hprimary]
    exact h.clientHandlers
  captured := hprimary ▸ h.captured
  toggleScreen := h.toggleScreen
  adopted := by
    rw [hset, hold, hprimary]
    exact h.adopted
  primary := hprimary ▸ h.primary
  waiting := by
    rw [hset, hold]
    exact h.waiting
  deletions := by
    rw [hset, hold]
    exact h.deletions
  counted := h.counted
  announced := by
    rw [hset, hold, hprimary]
    exact h.announced
  alive := h.alive

/-- A new proxy is watched before it is placed. -/
private theorem Kept.watched (h : Kept ∅ p) (hnew : c ∉ p.adopted) (hc : c ≠ p.server.primaryClient) :
    Kept {c} ({ p with adopted := insert c p.adopted }.addHandler .clientProxyDisconnected (.client c) (some c)) := by
  have hout : c ∉ p.server.clientSet ∧ c ∉ p.server.oldClients := by
    constructor
    · exact fun hmem => (h.adopted c (.inl hmem)).elim hc hnew
    · exact fun hmem => (h.adopted c (.inr (.inl hmem))).elim hc hnew
  obtain ⟨q, hq, hserver, hhandlers, hadopt⟩ : ∃ q,
      q = { p with adopted := insert c p.adopted }.addHandler .clientProxyDisconnected (.client c) (some c) ∧
      q.server = p.server ∧ (∀ k, q.handlers k =
        if k = (.clientProxyDisconnected, .client c) then some (some c) else p.handlers k) ∧
      q.adopted = insert c p.adopted := ⟨_, rfl, rfl, fun k => Handlers.add_apply .., rfl⟩
  have hrest : q.oldTimer = p.oldTimer ∧ q.timers = p.timers ∧ q.nextTimer = p.nextTimer ∧ q.deletions = p.deletions ∧
      q.announcements = p.announcements ∧ q.disconnected = p.disconnected ∧ q.alive = p.alive := by
    rw [hq]
    exact ⟨rfl, rfl, rfl, rfl, rfl, rfl, rfl⟩
  obtain ⟨htimer, htimers, hnext, hdeletions, hannouncements, hdisconnected, halive⟩ := hrest
  rw [← hq]
  constructor
  case lists => exact hserver ▸ h.lists
  case old =>
    rw [hserver, htimer]
    exact h.old
  case timed =>
    refine h.timed.of_eq htimers hnext htimer fun type n => ?_
    rw [hhandlers, if_neg (by simp)]
  case clientHandlers =>
    intro type d hne
    rw [hhandlers] at hne
    rw [hserver]
    split at hne
    · rename_i hk
      obtain ⟨htype, htarget⟩ := Prod.mk.inj hk
      exact .inr ⟨.inr (Finset.mem_singleton.mpr (Target.client.inj htarget)), htype⟩
    · rcases h.clientHandlers type d hne with hd | ⟨hd | hd, htype⟩
      · exact .inl hd
      · exact .inr ⟨.inl hd, htype⟩
      · exact absurd hd (Finset.notMem_empty d)
  case captured =>
    intro d v hv
    rw [hhandlers] at hv
    rw [hserver]
    split at hv
    · rename_i hk
      obtain rfl := Target.client.inj (Prod.mk.inj hk).2
      exact ⟨(Option.some.inj hv).symm, hc⟩
    · exact h.captured d v hv
  case toggleScreen =>
    rw [hhandlers, if_neg (by simp)]
    exact h.toggleScreen
  case adopted =>
    intro d hd
    rw [hserver, hadopt, Finset.mem_insert]
    rw [hserver] at hd
    rcases hd with hd | hd | hd
    · exact (h.adopted d (.inl hd)).imp id .inr
    · exact (h.adopted d (.inr (.inl hd))).imp id .inr
    · exact .inr (.inl (Finset.mem_singleton.mp hd))
  case primary =>
    rw [hserver, hadopt, Finset.mem_insert]
    exact not_or.mpr ⟨hc.symm, h.primary⟩
  case waiting =>
    intro d hd
    rw [hserver, Finset.mem_singleton.mp hd]
    exact hout
  case deletions =>
    intro d
    rw [hdeletions, h.deletions, hserver, hadopt]
    refine if_congr ?_ rfl rfl
    by_cases hdc : d = c
    · simp [hdc, hnew]
    · simp [hdc]
  case counted =>
    rw [hdisconnected, hannouncements]
    exact h.counted
  case announced =>
    rw [hdisconnected, hannouncements, hserver]
    exact h.announced
  case alive => exact halive.trans h.alive

/-- A new proxy whose name is free joins the list. -/
private theorem Kept.listed (h : Kept {c} p) (hc : c ≠ p.server.primaryClient) {s : Server}
    (hfree : p.server.clients.contains (p.server.getName c) = false)
    (hclients : s.clients = p.server.clients.insert (p.server.getName c) c)
    (hset : s.clientSet = insert c p.server.clientSet) (hold : s.oldClients = p.server.oldClients)
    (hprimary : s.primaryClient = p.server.primaryClient) : Kept ∅ { p.addListHandlers c with server := s } := by
  obtain ⟨hnotSet, hnotOld⟩ := h.waiting c (Finset.mem_singleton_self c)
  obtain ⟨q, hq, hserver, hhandlers, hrest⟩ : ∃ q, q = { p.addListHandlers c with server := s } ∧ q.server = s ∧
      (∀ k, q.handlers k = if k.2 = .client c ∧ k.1 ∈ listTypes then some (some c) else p.handlers k) ∧
      q.oldTimer = p.oldTimer ∧ q.timers = p.timers ∧ q.nextTimer = p.nextTimer ∧ q.adopted = p.adopted ∧
      q.deletions = p.deletions ∧ q.announcements = p.announcements ∧ q.disconnected = p.disconnected ∧
      q.alive = p.alive := by
    refine ⟨_, rfl, ?_⟩
    rw [addListHandlers_eq]
    exact ⟨rfl, fun _ => rfl, rfl, rfl, rfl, rfl, rfl, rfl, rfl, rfl⟩
  obtain ⟨htimer, htimers, hnext, hadopt, hdeletions, hannouncements, hdisconnected, halive⟩ := hrest
  rw [← hq]
  constructor
  case lists => exact hserver ▸ (h.lists.added hfree hnotSet hnotOld).of_eq hclients hset hold hprimary
  case old =>
    rw [hserver, htimer, hold]
    exact h.old
  case timed =>
    refine h.timed.of_eq htimers hnext htimer fun type n => ?_
    rw [hhandlers, if_neg (by simp)]
  case clientHandlers =>
    intro type d hne
    rw [hhandlers] at hne
    rw [hserver, hset, hold, hprimary, Finset.mem_insert]
    split at hne
    · rename_i hk
      exact .inl ⟨.inl (Target.client.inj hk.1), .inr (List.mem_cons_of_mem _ hk.2)⟩
    · rcases h.clientHandlers type d hne with ⟨hd, htype⟩ | ⟨hd | hd, htype⟩
      · exact .inl ⟨.inr hd, htype⟩
      · exact .inr ⟨.inl hd, htype⟩
      · exact .inl ⟨.inl (Finset.mem_singleton.mp hd), .inr (htype ▸ List.mem_cons_self)⟩
  case captured =>
    intro d v hv
    rw [hhandlers, if_neg (by simp [listTypes])] at hv
    rw [hserver, hprimary]
    exact h.captured d v hv
  case toggleScreen =>
    rw [hhandlers, if_neg (by simp)]
    exact h.toggleScreen
  case adopted =>
    intro d hd
    rw [hserver, hset, hold, Finset.mem_insert] at hd
    rw [hserver, hprimary, hadopt]
    rcases hd with (hd | hd) | hd | hd
    · exact h.adopted d (.inr (.inr (Finset.mem_singleton.mpr hd)))
    · exact h.adopted d (.inl hd)
    · exact h.adopted d (.inr (.inl hd))
    · exact absurd hd (Finset.notMem_empty d)
  case primary =>
    rw [hserver, hprimary, hadopt]
    exact h.primary
  case waiting => exact fun d hd => absurd hd (Finset.notMem_empty d)
  case deletions =>
    intro d
    rw [hdeletions, h.deletions, hserver, hset, hold, hadopt]
    refine if_congr ?_ rfl rfl
    by_cases hdc : d = c
    · simp [hdc]
    · simp [hdc]
  case counted =>
    rw [hdisconnected, hannouncements]
    exact h.counted
  case announced =>
    intro n _ halone
    rw [hserver, hset, hprimary] at halone
    have hmem : c ∈ insert c p.server.clientSet := Finset.mem_insert_self c _
    rw [halone] at hmem
    exact absurd (Finset.mem_singleton.mp hmem) hc
  case alive => exact halive.trans h.alive

private theorem Kept.adoptClient (h : Kept ∅ p) (hnew : c ∉ p.adopted) (hc : c ≠ p.server.primaryClient) :
    Kept ∅ (p.adoptClient e c) := by
  have hwatched := h.watched hnew hc
  have hclosed := hwatched.closeClient (e := e) hc (.inr (Finset.mem_singleton_self c))
  rw [Finset.erase_singleton] at hclosed
  unfold ServerLife.adoptClient
  simp only
  split
  · exact hclosed
  split
  · exact hclosed
  · rename_i hscreen hname
    have hscreen' : p.server.config.isScreen c.name = true := by
      have hnot : (!p.server.config.isScreen c.name) = false := Bool.eq_false_iff.mpr hscreen
      simpa using hnot
    have hfree : p.server.clients.contains (p.server.getName c) = false := Bool.eq_false_iff.mpr hname
    have hmoves := adoptClient_listed e hscreen' hfree (fun _ => False) (fun _ => False)
    exact hwatched.listed hc hfree hmoves.clients hmoves.clientSet hmoves.oldClients hmoves.primaryClient

/-! Clients going away -/

private theorem announceIfAlone_eq (h : p.server.Lists) : p.announceIfAlone = { p with
    announcements :=
      if p.server.clientSet = {p.server.primaryClient} ∧ p.server.oldClients = ∅ then p.announcements + 1
      else p.announcements } := by
  unfold announceIfAlone
  simp only [h.size_eq_one_iff]
  split <;> rfl

/-- A client leaves the list it is in, with its handlers and its timer if it has one. -/
private theorem Kept.gone (h : Kept ∅ p)
    (hmem : c ∈ p.server.clientSet ∨ c ∈ p.server.oldClients) {q : ServerLife} (hlists : q.server.Lists)
    (hset : q.server.clientSet = p.server.clientSet.erase c) (hold : q.server.oldClients = p.server.oldClients.erase c)
    (hprimary : q.server.primaryClient = p.server.primaryClient) (htimed : q.Timed)
    (htimer : q.oldTimer = Function.update p.oldTimer c none)
    (hhandlers : ∀ type d, q.handlers (type, .client d) = if d = c then none else p.handlers (type, .client d))
    (htoggle : q.handlers (.serverToggleScreen, .inputFilter) = p.handlers (.serverToggleScreen, .inputFilter))
    (hrest : q.adopted = p.adopted ∧ q.deletions = p.deletions ∧ q.disconnected = p.disconnected ∧ q.alive = p.alive)
    (hannouncements : q.announcements =
      if q.server.clientSet = {q.server.primaryClient} ∧ q.server.oldClients = ∅ then p.announcements + 1
      else p.announcements) : Kept {c} q := by
  obtain ⟨hadopt, hdeletions, hdisconnected, halive⟩ := hrest
  have hle : p.announcements ≤ q.announcements := by
    rw [hannouncements]
    split
    · exact Nat.le_succ _
    · exact le_rfl
  constructor
  case lists => exact hlists
  case old =>
    intro d
    rw [hold, htimer, Finset.mem_erase, h.old, Function.update_apply]
    split
    · rename_i hd
      simp [hd]
    · rename_i hd
      simp [hd]
  case timed => exact htimed
  case clientHandlers =>
    intro type d hne
    rw [hhandlers] at hne
    rw [hset, hold, hprimary, Finset.mem_erase, Finset.mem_erase]
    split at hne
    · exact absurd rfl hne
    · rename_i hdc
      rcases h.clientHandlers type d hne with ⟨hd, htype⟩ | ⟨hd | hd, htype⟩
      · exact .inl ⟨⟨hdc, hd⟩, htype⟩
      · exact .inr ⟨.inl ⟨hdc, hd⟩, htype⟩
      · exact absurd hd (Finset.notMem_empty d)
  case captured =>
    intro d v hv
    rw [hhandlers] at hv
    rw [hprimary]
    split at hv
    · cases hv
    · exact h.captured d v hv
  case toggleScreen => exact htoggle ▸ h.toggleScreen
  case adopted =>
    intro d hd
    rw [hset, hold] at hd
    rw [hprimary, hadopt]
    rcases hd with hd | hd | hd
    · exact h.adopted d (.inl (Finset.mem_of_mem_erase hd))
    · exact h.adopted d (.inr (.inl (Finset.mem_of_mem_erase hd)))
    · rw [Finset.mem_singleton.mp hd]
      exact h.adopted c (hmem.imp id .inl)
  case primary =>
    rw [hprimary, hadopt]
    exact h.primary
  case waiting =>
    intro d hd
    rw [hset, hold, Finset.mem_singleton.mp hd]
    exact ⟨Finset.notMem_erase c _, Finset.notMem_erase c _⟩
  case deletions =>
    intro d
    rw [hdeletions, h.deletions, hset, hold, hadopt]
    refine if_congr ?_ rfl rfl
    by_cases hdc : d = c
    · rw [hdc]
      simp only [Finset.mem_singleton_self, not_true, and_false, iff_false]
      exact fun hnot => hmem.elim hnot.2.1 hnot.2.2.1
    · simp [hdc]
  case counted =>
    intro n hn
    exact (h.counted n (hdisconnected ▸ hn)).trans hle
  case announced =>
    intro n hn halone hempty
    rw [hannouncements, if_pos ⟨halone, hempty⟩]
    exact Nat.lt_succ_of_le (h.counted n (hdisconnected ▸ hn))
  case alive => exact halive.trans h.alive

/-- A connected client is taken out; it is left without handlers. -/
private theorem Kept.removeActive (h : Kept ∅ p) (hc : c ≠ p.server.primaryClient) (hmem : c ∈ p.server.clientSet)
    (hget : p.server.clients.get? (p.server.getName c) = some c) : Kept {c} (p.removeActiveClient e c) ∧
      (∀ type, (p.removeActiveClient e c).handlers (type, .client c) = none) ∧
      (p.removeActiveClient e c).oldTimer c = none := by
  have hnotOld : c ∉ p.server.oldClients := Finset.disjoint_left.mp h.lists.apart hmem
  have hnone : p.oldTimer c = none := by simpa using mt (h.old c).mpr hnotOld
  obtain ⟨hr, hold⟩ := removeActiveClient_removed e hmem
  have hlists : (p.server.removeActiveClient e c).Lists :=
    h.lists.removed hc hget hr (hold ▸ h.lists.apart.mono_left (Finset.erase_subset _ _))
  have heq : p.removeActiveClient e c = { p with
      server := p.server.removeActiveClient e c
      handlers := Handlers.remove (fun k : EventTypes × Target =>
          if c ∈ p.server.clientSet ∧ k.2 = Target.client c ∧ k.1 ∈ listTypes then none else p.handlers k)
        .clientProxyDisconnected (.client c) }.announceIfAlone := by
    rw [ServerLife.removeActiveClient, if_pos hmem, removeListHandlers_eq]
    rfl
  rw [heq, announceIfAlone_eq hlists]
  have hhandlers : ∀ type d, Handlers.remove (fun k : EventTypes × Target =>
      if c ∈ p.server.clientSet ∧ k.2 = Target.client c ∧ k.1 ∈ listTypes then none else p.handlers k)
        .clientProxyDisconnected (.client c) (type, .client d) =
      if d = c then none else p.handlers (type, .client d) := by
    intro type d
    simp only [Handlers.remove_apply, Prod.mk.injEq, Target.client.injEq, hmem, true_and]
    by_cases hdc : d = c
    · simp only [hdc, and_true, true_and, if_true]
      split
      · rfl
      · rename_i htype
        split
        · rfl
        · rename_i hlist
          by_contra hne
          rcases h.clientHandlers type c hne with ⟨-, hd | hd⟩ | ⟨-, hd⟩
          · exact hc hd
          · exact (List.mem_cons.mp hd).elim htype hlist
          · exact htype hd
    · simp only [hdc, and_false, false_and, if_false]
  refine ⟨h.gone (.inl hmem) hlists hr.clientSet ?_ hr.primaryClient ?_ ?_ hhandlers ?_ ⟨rfl, rfl, rfl, rfl⟩ rfl,
    fun type => ?_, hnone⟩
  · rw [hold, Finset.erase_eq_of_notMem hnotOld]
  · exact h.timed.of_eq rfl rfl rfl fun type n => by simp
  · exact (Function.update_eq_self_iff.mpr hnone.symm).symm
  · simp
  · exact (hhandlers type c).trans (if_pos rfl)

/-- So is a client that was being closed, with its timer. -/
private theorem Kept.removeOld (h : Kept ∅ p) (hold : c ∈ p.server.oldClients) : Kept {c} (p.removeOldClient c) ∧
      ∀ type, (p.removeOldClient c).handlers (type, .client c) = none := by
  obtain ⟨n, hn⟩ := Option.ne_none_iff_exists'.mp ((h.old c).mp hold)
  have hnotSet : c ∉ p.server.clientSet := fun hmem => Finset.disjoint_left.mp h.lists.apart hmem hold
  have hlists : (p.server.removeOldClient c).Lists :=
    ⟨h.lists.values, h.lists.connected, h.lists.primary, h.lists.apart.mono_right (Finset.erase_subset _ _)⟩
  have heq : p.removeOldClient c = { p with
      server := p.server.removeOldClient c
      handlers := (p.handlers.remove .clientProxyDisconnected (.client c)).remove .timer (.timer n)
      timers := p.timers.erase n
      oldTimer := Function.update p.oldTimer c none }.announceIfAlone := by
    rw [ServerLife.removeOldClient, hn]
    rfl
  rw [heq, announceIfAlone_eq hlists]
  have hhandlers : ∀ type d, ((p.handlers.remove .clientProxyDisconnected (.client c)).remove .timer (.timer n))
      (type, .client d) = if d = c then none else p.handlers (type, .client d) := by
    intro type d
    simp only [Handlers.remove_apply, Prod.mk.injEq, Target.client.injEq, reduceCtorEq, and_false, if_false]
    by_cases hdc : d = c
    · simp only [hdc, and_true, if_true]
      split
      · rfl
      · rename_i htype
        by_contra hne
        rcases h.clientHandlers type c hne with ⟨hmem, -⟩ | ⟨-, hd⟩
        · exact hnotSet hmem
        · exact htype hd
    · simp only [hdc, and_false, if_false]
  refine ⟨h.gone (.inr hold) hlists ?_ rfl rfl ?_ rfl hhandlers ?_ ⟨rfl, rfl, rfl, rfl⟩ rfl, fun type => ?_⟩
  · exact (Finset.erase_eq_of_notMem hnotSet).symm
  · refine h.timed.stopped hn _ rfl rfl rfl fun type k => ?_
    simp only [Handlers.remove_apply, Prod.mk.injEq, reduceCtorEq, and_false, if_false]
  · simp
  · exact (hhandlers type c).trans (if_pos rfl)

private theorem Kept.delete (h : Kept {c} p) (hnone : ∀ type, p.handlers (type, .client c) = none) :
    Kept ∅ (p.delete c) where
  lists := h.lists
  old := h.old
  timed := h.timed.of_eq rfl rfl rfl fun _ _ => rfl
  clientHandlers := by
    intro type d hne
    rcases h.clientHandlers type d hne with hd | ⟨hd | hd, htype⟩
    · exact .inl hd
    · exact .inr ⟨.inl hd, htype⟩
    · rw [Finset.mem_singleton.mp hd] at hne
      exact absurd (hnone type) hne
  captured := h.captured
  toggleScreen := h.toggleScreen
  adopted := by
    intro d hd
    rcases hd with hd | hd | hd
    · exact h.adopted d (.inl hd)
    · exact h.adopted d (.inr (.inl hd))
    · exact absurd hd (Finset.notMem_empty d)
  primary := h.primary
  waiting d hd := absurd hd (Finset.notMem_empty d)
  deletions := by
    intro d
    obtain ⟨hset, hold⟩ := h.waiting c (Finset.mem_singleton_self c)
    have hc : c ≠ p.server.primaryClient := fun heq => hset (heq ▸ h.lists.primary)
    have hadopted := (h.adopted c (.inr (.inr (Finset.mem_singleton_self c)))).resolve_left hc
    simp only [ServerLife.delete, Function.update_apply, h.deletions]
    by_cases hdc : d = c
    · simp [hdc, hset, hold, hadopted]
    · simp [hdc]
  counted := h.counted
  announced := h.announced
  alive := h.alive

private theorem removeOldClient_none (h : p.oldTimer c = none) : p.removeOldClient c = p := by
  rw [ServerLife.removeOldClient, h]

private theorem Kept.handleClientDisconnected (h : Kept ∅ p) {v : Option BaseClientProxy}
    (hv : p.handlers (.clientProxyDisconnected, .client c) = some v)
    (hlisted : c ∈ p.server.clientSet → p.server.clients.get? (p.server.getName c) = some c) :
    Kept ∅ (p.handleClientDisconnected e c) := by
  obtain ⟨-, hc⟩ := h.captured c v hv
  have hplace := h.clientHandlers .clientProxyDisconnected c (by rw [hv]; exact Option.some_ne_none v)
  rw [ServerLife.handleClientDisconnected]
  by_cases hmem : c ∈ p.server.clientSet
  · obtain ⟨hgone, hhandlers, hnone⟩ := h.removeActive (e := e) hc hmem (hlisted hmem)
    rw [removeOldClient_none hnone]
    exact hgone.delete hhandlers
  · have hold : c ∈ p.server.oldClients := by
      rcases hplace with ⟨hset, -⟩ | ⟨hold | hw, -⟩
      · exact absurd hset hmem
      · exact hold
      · exact absurd hw (Finset.notMem_empty c)
    have hsame : p.removeActiveClient e c = p := if_neg hmem
    rw [hsame]
    obtain ⟨hgone, hhandlers⟩ := h.removeOld hold
    exact hgone.delete hhandlers

private theorem Kept.handleClientCloseTimeout (h : Kept ∅ p) {n : Nat}
    (hv : p.handlers (.timer, .timer n) = some (some c)) : Kept ∅ (p.handleClientCloseTimeout c) := by
  obtain ⟨d, hd, hn⟩ := (h.timed.handlers n _).mp hv
  obtain rfl := Option.some.inj hd
  have hold : c ∈ p.server.oldClients := (h.old c).mpr (by rw [hn]; exact Option.some_ne_none n)
  obtain ⟨hgone, hhandlers⟩ := h.removeOld hold
  exact hgone.delete hhandlers

private theorem closeClients_server (p : ServerLife) (config : Config) :
    (p.closeClients e config).server = p.server.closeClients e config := by
  have hall : ∀ (l : List BaseClientProxy) (p : ServerLife), (l.foldl (fun p d => p.closeClient e d) p).server =
      l.foldl (fun s d => s.closeClient e d) p.server := by
    intro l
    induction l with
    | nil => exact fun p => rfl
    | cons c l ih =>
      intro p
      rw [List.foldl_cons, List.foldl_cons, ih, closeClient_eq]
  exact hall _ p

/-- Every client that a configuration drops is closed. -/
private theorem Kept.closeClients (h : Kept ∅ p) {config : Config}
    (hlisted : ∀ d ∈ p.server.droppedClients config, p.server.clients.get? (p.server.getName d) = some d) :
    Kept ∅ (p.closeClients e config) := by
  refine h.closeAll (nodup_droppedClients _ _) fun d hd => ?_
  obtain ⟨⟨name, hname⟩, hne⟩ := mem_droppedClients hd
  obtain ⟨j, hj, -⟩ := (p.server.clients.get?_eq_some_iff name d).mp hname
  exact ⟨hne, (h.lists.connected d).mp (List.mem_map.mpr ⟨(j, d), hj, rfl⟩), hlisted d hd⟩

private theorem Kept.disconnect (h : Kept ∅ p) (hlisted : ∀ d ∈ p.server.takenOut .disconnect,
    p.server.clients.get? (p.server.getName d) = some d) : Kept ∅ (p.disconnect e) := by
  have hcounted : ∀ n, some p.announcements = some n → n ≤ p.announcements := by
    rintro n ⟨⟩
    exact le_rfl
  unfold ServerLife.disconnect
  simp only
  split
  · rename_i hany
    have hannounced : p.server.clientSet = {p.server.primaryClient} → p.server.oldClients ≠ ∅ := by
      intro halone hempty
      rw [← h.lists.size_eq_one_iff] at halone
      rcases hany with hlt | hnonempty
      · omega
      · exact Finset.nonempty_iff_ne_empty.mp hnonempty hempty
    have hq : Kept ∅ { p with disconnected := some p.announcements } :=
      ⟨h.lists, h.old, h.timed.of_eq rfl rfl rfl fun _ _ => rfl, h.clientHandlers, h.captured, h.toggleScreen,
        h.adopted, h.primary, h.waiting, h.deletions, hcounted,
        fun _ _ halone hempty => absurd hempty (hannounced halone), h.alive⟩
    refine hq.closeClients fun d hd => hlisted d ?_
    rw [takenOut, if_pos hany]
    exact hd
  · exact ⟨h.lists, h.old, h.timed.of_eq rfl rfl rfl fun _ _ => rfl, h.clientHandlers, h.captured, h.toggleScreen,
      h.adopted, h.primary, h.waiting, h.deletions, fun n hn => (hcounted n hn).trans (Nat.le_succ _),
      fun n hn _ _ => Nat.lt_succ_of_le (hcounted n hn), h.alive⟩

private theorem Kept.reloadConfig (h : Kept ∅ p) {config : Config}
    (hlisted : ∀ d ∈ p.server.takenOut (.reloadConfig config), p.server.clients.get? (config.getName d) = some d) :
    Kept ∅ (p.reloadConfig e config) := by
  have hq : Kept ∅ { p with server := { p.server with config := config } } := h.withServer rfl rfl rfl rfl
  unfold ServerLife.reloadConfig
  simp only
  split
  · rename_i hscreen
    have hclosed : Kept ∅ ({ p with server := { p.server with config := config } }.closeClients e config) := by
      refine hq.closeClients fun d hd => hlisted d ?_
      rw [takenOut, if_pos hscreen]
      exact hd
    have hmoves : Moves (fun _ => False) (fun _ => False) ({ p.server with config := config }.closeClients e config)
        (p.server.reloadConfig e config) := setConfig_moves hscreen
    have hserver := closeClients_server (e := e) { p with server := { p.server with config := config } } config
    refine hclosed.withServer ?_ ?_ ?_ ?_
    · rw [hserver]
      exact hmoves.clients
    · rw [hserver]
      exact hmoves.clientSet
    · rw [hserver]
      exact hmoves.oldClients
    · rw [hserver]
      exact hmoves.primaryClient
  · exact hq

/-- Other events leave the lists alone. -/
private theorem Kept.other (h : Kept ∅ p) {fuel : Nat} {ev : ServerEvent} (hquiet : ev.Quiet) :
    Kept ∅ { p with server := ((p.server.handle e fuel ev).map Motion.server).getD p.server } := by
  cases hm : p.server.handle e fuel ev with
  | none => exact h
  | some m =>
    have hmoves := handle_moves hquiet hm
    exact h.withServer hmoves.clients hmoves.clientSet hmoves.oldClients hmoves.primaryClient

/-- The event, if it is one that takes clients out of the list. -/
def takes : LifeEvent → Option ServerEvent
  | .clientDisconnected client => some (.clientDisconnected client)
  | .reloadConfig config => some (.reloadConfig config)
  | .disconnect | .destroy => some .disconnect
  | _ => none

/-- The clients that the event takes out are listed under the names that they have then. -/
def Listed (p : ServerLife) (input : Platform × LifeEvent) (_ : ServerLife) : Prop :=
  ∀ ev ∈ takes input.2, ∀ c ∈ p.server.takenOut ev, p.server.clients.get? ((p.server.configUnder ev).getName c) = some c

instance (p : ServerLife) (input : Platform × LifeEvent) (q : ServerLife) : Decidable (Listed p input q) :=
  inferInstanceAs (Decidable (∀ ev ∈ takes input.2, ∀ c ∈ p.server.takenOut ev,
    p.server.clients.get? ((p.server.configUnder ev).getName c) = some c))

theorem Kept.step (h : Kept ∅ p) {input : Platform × LifeEvent} (hlisted : Listed p input (p.step input))
    (hdestroy : input.2 ≠ .destroy) : Kept ∅ (p.step input) := by
  obtain ⟨e, ev⟩ := input
  rw [ServerLife.step, if_pos h.alive]
  cases ev with
  | adoptClient c =>
    simp only
    split
    · exact h
    · rename_i hnew
      obtain ⟨hnew, hc⟩ := not_or.mp hnew
      exact h.adoptClient hnew hc
  | clientDisconnected c =>
    simp only
    split
    · rename_i d hv
      obtain ⟨hd, -⟩ := h.captured c _ hv
      obtain rfl := Option.some.inj hd
      refine h.handleClientDisconnected hv fun hmem => ?_
      refine hlisted (.clientDisconnected d) rfl d ?_
      rw [takenOut, if_pos hmem]
      exact List.mem_singleton_self d
    · exact h
  | closeTimeout n =>
    simp only
    split
    · rename_i hv
      split
      · exact h.handleClientCloseTimeout hv
      · exact h
    · exact h
  | reloadConfig config => exact h.reloadConfig fun d hd => hlisted (.reloadConfig config) rfl d hd
  | disconnect => exact h.disconnect fun d hd => hlisted .disconnect rfl d hd
  | destroy => exact absurd rfl hdestroy
  | other fuel ev =>
    cases ev with
    | adoptClient c => exact h
    | clientDisconnected c => exact h
    | clientCloseTimeout c => exact h
    | reloadConfig config => exact h
    | disconnect => exact h
    | _ => exact h.other trivial

theorem kept_start (e : Platform) (config : Config) (primaryClient : BaseClientProxy) :
    Kept ∅ (start e config primaryClient) := by
  have hmoves : Moves (fun _ => False) (fun _ => False) (withPrimary config primaryClient)
      (Server.new e config primaryClient) := new_moves e config primaryClient
  have hprimary : (Server.new e config primaryClient).primaryClient = primaryClient := hmoves.primaryClient
  have hset : (Server.new e config primaryClient).clientSet = {primaryClient} := hmoves.clientSet
  have hold : (Server.new e config primaryClient).oldClients = ∅ := hmoves.oldClients
  have hlists : (Server.new e config primaryClient).Lists := by
    refine Lists.of_eq (s := withPrimary config primaryClient) ⟨?_, fun c => ?_, ?_, ?_⟩ hmoves.clients hmoves.clientSet
      hmoves.oldClients hmoves.primaryClient
    · exact List.nodup_singleton primaryClient
    · exact (List.mem_singleton (b := primaryClient)).trans Finset.mem_singleton.symm
    · exact Finset.mem_singleton_self primaryClient
    · exact Finset.disjoint_empty_right _
  obtain ⟨q, hq, hserver, hhandlers, htimer, htimers, hadopted, hdeletions, hdisconnected, halive⟩ : ∃ q,
      q = start e config primaryClient ∧ q.server = Server.new e config primaryClient ∧
      (∀ k, q.handlers k = if k.2 = .client primaryClient ∧ k.1 ∈ listTypes then some (some primaryClient)
        else if k ∈ ownHandlers primaryClient then some none else none) ∧
      (∀ c, q.oldTimer c = none) ∧ q.timers = ∅ ∧ q.adopted = ∅ ∧ (∀ c, q.deletions c = 0) ∧ q.disconnected = none ∧
      q.alive = true := by
    refine ⟨_, rfl, ?_⟩
    rw [start, addListHandlers_eq]
    exact ⟨rfl, fun _ => rfl, fun _ => rfl, rfl, rfl, fun _ => rfl, rfl, rfl⟩
  rw [← hq]
  constructor
  case lists => exact hserver ▸ hlists
  case old =>
    intro c
    rw [hserver, hold, htimer]
    simp
  case timed =>
    refine ⟨?_, ?_, ?_, fun n v => ?_, fun type n hne => ?_⟩
    · simp [htimers, htimer]
    · simp [htimer]
    · simp [htimers]
    · simp [hhandlers, htimer, ownHandlers]
    · simp [hhandlers, ownHandlers] at hne
  case clientHandlers =>
    intro type c hne
    have hc : c = primaryClient := by
      by_contra hc
      simp [hhandlers, ownHandlers, hc] at hne
    rw [hserver, hset, hprimary]
    exact .inl ⟨Finset.mem_singleton.mpr hc, .inl hc⟩
  case captured =>
    intro c v hv
    simp [hhandlers, ownHandlers, listTypes] at hv
  case toggleScreen => simp [hhandlers, ownHandlers]
  case adopted =>
    intro c hc
    rw [hserver, hset, hold, Finset.mem_singleton] at hc
    rw [hserver, hprimary]
    exact .inl (by simpa using hc)
  case primary => simp [hadopted]
  case waiting => simp
  case deletions => simp [hadopted, hdeletions]
  case counted => simp [hdisconnected]
  case announced => simp [hdisconnected]
  case alive => exact halive

/-! The end of the server -/

private theorem closeClients_inputFilter (p : ServerLife) (config : Config) (type : EventTypes) :
    (p.closeClients e config).handlers (type, .inputFilter) = p.handlers (type, .inputFilter) := by
  have hall : ∀ (l : List BaseClientProxy) (p : ServerLife),
      (l.foldl (fun p d => p.closeClient e d) p).handlers (type, .inputFilter) = p.handlers (type, .inputFilter) := by
    intro l
    induction l with
    | nil => exact fun p => rfl
    | cons c l ih =>
      intro p
      rw [List.foldl_cons, ih, closeClient_eq]
      simp
  exact hall _ p

private theorem disconnect_inputFilter (p : ServerLife) (type : EventTypes) :
    (p.disconnect e).handlers (type, .inputFilter) = p.handlers (type, .inputFilter) := by
  unfold ServerLife.disconnect
  simp only
  split
  · exact closeClients_inputFilter _ _ type
  · rfl

/-- One of the handlers that the constructor installs outlives the server. -/
theorem destroy_leaves_handler (p : ServerLife) :
    (p.destroy e).handlers (.serverToggleScreen, .inputFilter) = p.handlers (.serverToggleScreen, .inputFilter) := by
  have hall : ∀ (l : List (EventTypes × Target)) (p : ServerLife), (.serverToggleScreen, .inputFilter) ∉ l →
      (l.foldl (fun p k => p.removeHandler k.1 k.2) p).handlers (.serverToggleScreen, .inputFilter) =
        p.handlers (.serverToggleScreen, .inputFilter) := by
    intro l
    induction l with
    | nil => exact fun p _ => rfl
    | cons k l ih =>
      intro p hnot
      obtain ⟨hk, hnot⟩ := not_or.mp (mt List.mem_cons.mpr hnot)
      rw [List.foldl_cons, ih _ hnot]
      exact (Handlers.remove_apply ..).trans (if_neg hk)
  unfold ServerLife.destroy
  simp only [removeListHandlers_eq, reduceCtorEq, false_and, and_false, if_false]
  have hremoved : (EventTypes.serverToggleScreen, Target.inputFilter) ∉ removedHandlers p.server.primaryClient := by
    simp [removedHandlers]
  exact (disconnect_inputFilter _ _).trans (hall _ p hremoved)

private theorem closeAll_oldClients {s : Server} (h : s.Lists) {l : List BaseClientProxy} (hnodup : l.Nodup)
    (hl : ∀ d ∈ l, d ≠ s.primaryClient ∧ s.clients.get? (s.getName d) = some d) :
    (l.foldl (fun s d => s.closeClient e d) s).oldClients = l.toFinset ∪ s.oldClients := by
  induction l generalizing s with
  | nil => simp
  | cons c l ih =>
    obtain ⟨hc, hget⟩ := hl c List.mem_cons_self
    obtain ⟨hnot, hnodup⟩ := List.nodup_cons.mp hnodup
    obtain ⟨hlists, -, hold, hprimary⟩ := h.closeClient (e := e) hc fun _ => hget
    rw [List.foldl_cons, ih hlists hnodup fun d hd => ?_, hold, List.toFinset_cons, Finset.union_insert,
      Finset.insert_union]
    obtain ⟨hd1, hd2⟩ := hl d (List.mem_cons_of_mem c hd)
    have hdc : d ≠ c := fun hdc => hnot (hdc ▸ hd)
    exact ⟨hprimary ▸ hd1, closeClient_keeps_listed hdc (fun _ => hget) hd2⟩

/-- After the call every client but the primary one is being closed. -/
private theorem disconnect_oldClients {s : Server} (h : s.Lists)
    (hlisted : ∀ d ∈ s.takenOut .disconnect, s.clients.get? (s.getName d) = some d) :
    (s.disconnect e).oldClients = s.clientSet.erase s.primaryClient ∪ s.oldClients := by
  unfold Server.disconnect
  split
  · rename_i hany
    have htaken : s.takenOut .disconnect = s.droppedClients .empty := if_pos hany
    rw [htaken] at hlisted
    rw [Server.closeClients, closeAll_oldClients h (nodup_droppedClients s _) fun d hd =>
      ⟨(mem_droppedClients hd).2, hlisted d hd⟩]
    refine congrArg (· ∪ s.oldClients) (Finset.ext fun d => ?_)
    rw [List.mem_toFinset, Finset.mem_erase, ← h.connected d]
    unfold droppedClients
    rw [List.mem_insertionSort, List.mem_dedup, List.mem_filter]
    have hall : ∀ name, (!Config.empty.isCanonicalName name) = true := by
      rintro (_ | ⟨a, name⟩) <;> rfl
    simp only [hall, List.filter_true, decide_eq_true_eq, and_comm]
  · rename_i hnone
    obtain ⟨hsize, hold⟩ := not_or.mp hnone
    have halone : s.clientSet = {s.primaryClient} := by
      rw [← h.size_eq_one_iff]
      have hpos := h.primary
      rw [← h.connected] at hpos
      have hlength := List.length_pos_of_mem hpos
      rw [List.length_map] at hlength
      exact le_antisymm (not_lt.mp hsize) hlength
    rw [halone]
    simp

private theorem closeClients_deletions (p : ServerLife) (config : Config) :
    (p.closeClients e config).deletions = p.deletions := by
  have hall : ∀ (l : List BaseClientProxy) (p : ServerLife),
      (l.foldl (fun p d => p.closeClient e d) p).deletions = p.deletions := by
    intro l
    induction l with
    | nil => exact fun p => rfl
    | cons c l ih =>
      intro p
      rw [List.foldl_cons, ih, closeClient_eq]
  exact hall _ p

private theorem disconnect_server (p : ServerLife) :
    (p.disconnect e).server = p.server.disconnect e ∧ (p.disconnect e).deletions = p.deletions := by
  unfold ServerLife.disconnect Server.disconnect
  simp only
  split
  · exact ⟨closeClients_server _ _, closeClients_deletions _ _⟩
  · exact ⟨rfl, rfl⟩

/-- The destructor deletes every proxy that is left. -/
theorem Kept.destroy_deletes (h : Kept ∅ p) (hlisted : ∀ d ∈ p.server.takenOut .disconnect,
    p.server.clients.get? (p.server.getName d) = some d) (hadopted : c ∈ p.adopted) :
    (p.destroy e).deletions c = 1 := by
  have hall : ∀ (l : List (EventTypes × Target)) (p : ServerLife),
      ∃ handlers, l.foldl (fun p k => p.removeHandler k.1 k.2) p = { p with handlers := handlers } := by
    intro l
    induction l with
    | nil => exact fun p => ⟨_, rfl⟩
    | cons k l ih => exact fun p => ih _
  obtain ⟨handlers, hhandlers⟩ := hall (removedHandlers p.server.primaryClient) p
  have hstop : SameLists p.server p.server.stopSwitch := p.server.stopSwitch_spec.1
  have hlists : p.server.stopSwitch.Lists :=
    h.lists.of_eq hstop.clients hstop.clientSet hstop.oldClients hstop.primaryClient
  obtain ⟨hserver, hdeletions⟩ :=
    disconnect_server (e := e) { p with handlers := handlers, server := p.server.stopSwitch }
  have htaken : p.server.stopSwitch.takenOut .disconnect = p.server.takenOut .disconnect := by
    simp only [takenOut, droppedClients, hstop.clients, hstop.primaryClient, hstop.oldClients]
  have hlisted : ∀ d ∈ p.server.stopSwitch.takenOut .disconnect,
      p.server.stopSwitch.clients.get? (p.server.stopSwitch.getName d) = some d := by
    intro d hd
    rw [getName, hstop.clients, hstop.config]
    exact hlisted d (htaken ▸ hd)
  have hold : ({ p with handlers := handlers, server := p.server.stopSwitch }.disconnect e).server.oldClients =
      p.server.clientSet.erase p.server.primaryClient ∪ p.server.oldClients := by
    rw [hserver, disconnect_oldClients hlists hlisted, hstop.clientSet, hstop.primaryClient, hstop.oldClients]
  have heq : (p.destroy e).deletions c =
      if c ∈ p.server.clientSet.erase p.server.primaryClient ∪ p.server.oldClients then p.deletions c + 1
      else p.deletions c := by
    rw [← hold]
    unfold ServerLife.destroy
    simp only [hhandlers, removeListHandlers_eq, dropOldClients, hdeletions]
  have hc : c ≠ p.server.primaryClient := fun heq => h.primary (heq ▸ hadopted)
  rw [heq, h.deletions]
  simp only [Finset.mem_union, Finset.mem_erase, hc, hadopted, ne_eq, not_false_eq_true, true_and, Finset.notMem_empty,
    and_true]
  split
  · rename_i hmem
    rw [if_neg (fun hnot => hmem.elim hnot.1 hnot.2)]
  · rename_i hmem
    exact if_pos (not_or.mp hmem)

private theorem not_closedOnce_destroy (h : Kept ∅ p) {input : Platform × LifeEvent} (hdestroy : input.2 = .destroy) :
    ¬ (p.step input).ClosedOnce := by
  have hstep : p.step input = p.destroy input.1 := by
    rw [ServerLife.step, if_pos h.alive, hdestroy]
  intro hclosed
  rw [hstep] at hclosed
  have hleft : (p.destroy input.1).handlers (.serverToggleScreen, .inputFilter) ≠ none := by
    rw [destroy_leaves_handler]
    exact h.toggleScreen
  exact Bool.false_ne_true (hclosed.handlers _ _ hleft).1

/-- While every client is listed by the name that it is taken out under, each is closed once
and nothing is left behind, until the server is destroyed. -/
theorem always_closedOnce_iff (e : Platform) (config : Config) (primaryClient : BaseClientProxy)
    (events : List (Platform × LifeEvent))
    (hlisted : EachStep Listed (start e config primaryClient) (runTrace step (start e config primaryClient) events)) :
    Always ClosedOnce (runTrace step (start e config primaryClient) events) ↔ ∀ input ∈ events, input.2 ≠ .destroy := by
  have hkept := kept_start e config primaryClient
  generalize start e config primaryClient = p at hkept hlisted
  induction events generalizing p with
  | nil => simp [runTrace]
  | cons input events ih =>
    obtain ⟨hfirst, hrest⟩ := hlisted
    rw [runTrace, always_cons, List.forall_mem_cons]
    by_cases hdestroy : input.2 = .destroy
    · constructor
      · exact fun h => absurd h.1 (not_closedOnce_destroy hkept hdestroy)
      · exact fun h => absurd hdestroy h.1
    · have hnext := hkept.step hfirst hdestroy
      exact and_congr (iff_of_true hnext.closedOnce hdestroy) (ih (p.step input) hnext hrest)

/-- A client that joins and is closed, and another whose name is not known, until their timers expire. -/
def twoCloses : List (Platform × LifeEvent) :=
  [(.still, .adoptClient ⟨1, ['b']⟩), (.still, .adoptClient ⟨2, ['c']⟩), (.still, .disconnect),
    (.still, .closeTimeout 1), (.still, .closeTimeout 0)]

theorem closedOnce_twoCloses :
    Always ClosedOnce (runTrace step (start .still Server.twoScreens ⟨0, ['a']⟩) twoCloses) :=
  (always_closedOnce_iff .still Server.twoScreens ⟨0, ['a']⟩ twoCloses (by decide)).mpr (by simp [twoCloses])

theorem handlers_left_destroyed : ¬ ∀ (e : Platform) (config : Config) (primaryClient : BaseClientProxy)
    (events : List (Platform × LifeEvent)),
    Always ClosedOnce (runTrace step (start e config primaryClient) events) := by
  intro h
  have hall := h .still Server.twoScreens ⟨0, ['a']⟩ [(.still, .destroy)]
  rw [runTrace, always_cons] at hall
  exact not_closedOnce_destroy (kept_start .still Server.twoScreens ⟨0, ['a']⟩) rfl hall.1

theorem foldl_kept {events : List (Platform × LifeEvent)} (h : Kept ∅ p)
    (hlisted : EachStep Listed p (runTrace step p events)) (hdestroy : ∀ input ∈ events, input.2 ≠ .destroy) :
    Kept ∅ (events.foldl step p) := by
  induction events generalizing p with
  | nil => exact h
  | cons input events ih =>
    obtain ⟨hnot, hdestroy⟩ := List.forall_mem_cons.mp hdestroy
    exact ih (h.step hlisted.1 hnot) hlisted.2 hdestroy

theorem foldl_step_dead (hdead : p.alive = false) (events : List (Platform × LifeEvent)) :
    events.foldl step p = p := by
  induction events with
  | nil => rfl
  | cons input events ih =>
    have hstep : p.step input = p := by rw [ServerLife.step, hdead, if_neg Bool.false_ne_true]
    rw [List.foldl_cons, hstep, ih]

/-- From when the server is destroyed on, every proxy that it has adopted has been deleted, and only once. -/
theorem deleted_once_destroyed (e e' : Platform) (config : Config) (primaryClient : BaseClientProxy)
    (events later : List (Platform × LifeEvent)) (hdestroy : ∀ input ∈ events, input.2 ≠ .destroy)
    (hlisted : EachStep Listed (start e config primaryClient)
      (runTrace step (start e config primaryClient) (events ++ [(e', .destroy)]))) :
    let p := events.foldl step (start e config primaryClient)
    ∀ client ∈ p.adopted, (((e', .destroy) :: later).foldl step p).deletions client = 1 := by
  obtain ⟨hevents, hlast, -⟩ := eachStep_runTrace_append.mp hlisted
  have hkept := foldl_kept (kept_start e config primaryClient) hevents hdestroy
  intro p client hclient
  have hstep : p.step (e', .destroy) = p.destroy e' := by rw [ServerLife.step, if_pos hkept.alive]
  rw [List.foldl_cons, hstep, foldl_step_dead rfl]
  exact hkept.destroy_deletes (hlast _ rfl) hclient

theorem deleted_once_destroyed_two :
    let p := [(Platform.still, LifeEvent.adoptClient ⟨1, ['b']⟩), (.still, .adoptClient ⟨2, ['c']⟩)].foldl step
      (start .still Server.twoScreens ⟨0, ['a']⟩)
    ∀ client ∈ p.adopted, ([(Platform.still, LifeEvent.destroy)].foldl step p).deletions client = 1 :=
  deleted_once_destroyed .still .still Server.twoScreens ⟨0, ['a']⟩ _ [] (by simp) (by decide)

end ServerLife
end Synergy
