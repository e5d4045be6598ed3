import Synergy.Lib.Trace
import Synergy.Server.ConnectionStages

/-! What becomes of the slots that connections take at the listener: which ends of a
connection give its slot back. -/
namespace Synergy
open Lib

namespace ClientListener

/-- The slots are those of the active connections, each other socket that came has been
deleted once, and only as many connections as are allowed make the listener refuse one. -/
structure SlotsReturned (l : ClientListener) : Prop where
  slots : ∀ s, s ∈ l.clientSockets ↔ l.Active s
  once : l.deleted.Nodup
  ended : ∀ s, s ∈ l.deleted ↔ s < l.next ∧ ¬ l.Active s
  refusal : kMaxConnections ≤ l.clientSockets.card → kMaxConnections ≤ {s | l.Active s}.ncard

/-- The step ends a connection without its socket: of a client that is dropped when its
stream has gone to a proxy already, or of one that the server has taken. -/
def Leaks (l : ClientListener) : Action → Prop
  | .dispatch =>
    match l.events with
    | .unknownSuccess s :: _ => ∃ u ∈ l.newClients s, u.ready = false ∨ u.proxy = none
    | .unknownFailure s :: _ => ∃ u ∈ l.newClients s, u.stream = none
    | _ => False
  | .proxyDisconnected s | .closeTimeout s => s ∈ l.adopted
  | _ => False

/-- No slot is that of a connection that has ended. -/
def Tight (l : ClientListener) : Prop := ∀ s ∈ l.clientSockets, l.Active s

variable {l l' : ClientListener} {s : Socket} {u : ClientProxyUnknown}

private theorem Sound.returned_iff_tight (h : l.Sound) : l.SlotsReturned ↔ l.Tight := by
  constructor
  · exact fun hr s hs => (hr.slots s).mp hs
  · intro ht
    have hslots : ∀ s, s ∈ l.clientSockets ↔ l.Active s := fun s => ⟨ht s, h.active⟩
    refine ⟨hslots, h.once, fun s => by rw [h.ended, hslots], fun hfull => ?_⟩
    have hset : {s | l.Active s} = l.clientSockets := Set.ext fun s => (hslots s).symm
    rwa [hset, Set.ncard_coe_finset]

private theorem Tight.of (h : l.Tight) (s : Socket) (hslots : ∀ t ∈ l'.clientSockets, t ≠ s → t ∈ l.clientSockets)
    (hstage : ∀ t, t ≠ s → l.Active t → l'.Active t) (hs : s ∈ l'.clientSockets → l'.Active s) : l'.Tight := by
  intro t ht
  by_cases hts : t = s
  · rw [hts] at ht ⊢
    exact hs ht
  · exact hstage t hts (h t (hslots t ht hts))

/-- An unknown client changes, and no other connection does. -/
private theorem active_setUnknown {t : Socket} (hts : t ≠ s) (u : Option ClientProxyUnknown) :
    (l.setUnknown s u).Active t ↔ l.Active t := by
  simp only [Active, l.setUnknown_of_ne hts]
  rfl

private theorem Tight.change (h : l.Tight) (s : Socket) (u : ClientProxyUnknown) : (l.setUnknown s (some u)).Tight :=
  h.of s (fun _ ht _ => ht) (fun _ hts => (active_setUnknown hts _).mpr) fun _ => .inr (.inl (by simp))

private theorem Tight.withEvents (h : l.Tight) (events : List ListenerEvent) : Tight { l with events := events } := h

private theorem Tight.handleClientConnecting (h : l.Tight) : l.handleClientConnecting.Tight := by
  unfold ClientListener.handleClientConnecting
  simp only
  split
  · exact h
  · have hadd : Tight
        { l with
          next := l.next + 1
          clientSockets := insert l.next l.clientSockets
          accepting := insert l.next l.accepting } := by
      refine h.of l.next (fun t ht hts => (Finset.mem_insert.mp ht).resolve_left hts) (fun t _ ht => ?_)
        fun _ => .inl (Finset.mem_insert_self _ _)
      exact ht.imp_left fun ha => Finset.mem_insert_of_mem ha
    split
    · exact hadd
    · exact hadd

private theorem Tight.handleClientAccepted (h : l.Tight) (s : Socket) : (l.handleClientAccepted s).Tight := by
  refine h.of s (fun _ ht _ => ht) (fun t hts ht => ?_) fun _ => .inr (.inl (by simp [ClientListener.handleClientAccepted]))
  rw [ClientListener.handleClientAccepted, active_setUnknown hts]
  exact ht.imp_left fun ha => Finset.mem_erase_of_ne_of_mem hts ha

private theorem Tight.handleData (h : l.Tight) (s : Socket) (u : ClientProxyUnknown) (version : Option (Int × Int)) :
    (l.handleData s u version).Tight := by
  unfold ClientListener.handleData
  cases version with
  | none => exact h.change s _
  | some version =>
    simp only
    split
    · exact h.change s _
    · split
      · exact h.change s _
      · exact h.change s _

private theorem Tight.remove (h : l.Tight) (s : Socket) : (l.removeClientSocket s).Tight := by
  refine h.of s (fun t ht _ => Finset.mem_of_mem_erase ht) (fun t hts ht => ?_)
    fun hs => absurd hs (Finset.notMem_erase s l.clientSockets)
  exact ht.imp_left fun ha => Finset.mem_erase_of_ne_of_mem hts ha

private theorem Tight.reach (h : l.Tight) (s : Socket) {handled : ClientProxyUnknown → Bool}
    {handler : ClientProxyUnknown → ClientListener} (hh : ∀ u, (handler u).Tight) : (l.reach s handled handler).Tight := by
  unfold ClientListener.reach
  split
  · split
    · exact hh _
    · exact h
  · exact h

private theorem Sound.not_tight_drop (h : l.Sound) (hs : l.newClients s ≠ none) : ¬ (l.setUnknown s none).Tight :=
  fun ht => h.not_active_drop hs (ht s (h.unknown s hs).1)

private theorem Tight.handleUnknownClient_iff (ht : l.Tight) (h : l.Sound) (hs : l.newClients s = some u) :
    (l.handleUnknownClient s u).Tight ↔ ¬ (u.ready = false ∨ u.proxy = none) := by
  have hne : l.newClients s ≠ none := by simp [hs]
  unfold ClientListener.handleUnknownClient
  split
  next client hc =>
    have hready : ¬ (u.ready = false ∨ u.proxy = none) := by
      unfold ClientProxyUnknown.orphanClientProxy at hc
      split at hc
      next hr =>
        simp only at hc
        simp [hr, hc]
      · cases hc
    rw [h.orphan hs hc]
    refine iff_of_true (ht.of s (fun t hmem _ => hmem) (fun t hts hstage => ?_) fun _ => ?_) hready
    · rw [active_setUnknown hts]
      exact hstage.imp_right fun hrest => hrest.imp_right fun hrest => hrest.imp_left fun hw => List.mem_append_left _ hw
    · exact .inr (.inr (.inl (List.mem_append_right _ (List.mem_singleton_self s))))
  next hc =>
    refine iff_of_false (h.not_tight_drop hne) (not_not.mpr ?_)
    unfold ClientProxyUnknown.orphanClientProxy at hc
    split at hc
    · exact .inr hc
    next hr => exact .inl (by simpa using hr)

private theorem Tight.handleUnknownFailure_iff (ht : l.Tight) (h : l.Sound) (hs : l.newClients s = some u) :
    (l.handleUnknownFailure s u).Tight ↔ ¬ u.stream = none := by
  have hne : l.newClients s ≠ none := by simp [hs]
  unfold ClientListener.handleUnknownFailure
  split
  next socket hsocket =>
    rw [(h.own s u hs).1 socket hsocket]
    refine iff_of_true (ht.of s (fun t hmem _ => Finset.mem_of_mem_erase hmem) (fun t hts hstage => ?_) fun hmem => ?_)
      (by simp [hsocket])
    · rw [← active_setUnknown hts none] at hstage
      exact hstage.imp_left fun ha => Finset.mem_erase_of_ne_of_mem hts ha
    · exact absurd hmem (Finset.notMem_erase s l.clientSockets)
  next hsocket => exact iff_of_false (h.not_tight_drop hne) (not_not.mpr hsocket)

private theorem Tight.handleClientDisconnected (ht : l.Tight) (s : Socket) : (l.handleClientDisconnected s).Tight := by
  unfold ClientListener.handleClientDisconnected
  split
  · refine ht.of s (fun t hmem _ => Finset.mem_of_mem_erase hmem) (fun t hts hstage => ?_)
      fun hmem => absurd hmem (Finset.notMem_erase s l.clientSockets)
    rcases hstage with hstage | hstage | hstage | hstage
    · exact .inl (Finset.mem_erase_of_ne_of_mem hts hstage)
    · exact .inr (.inl hstage)
    · exact .inr (.inr (.inl ((List.mem_erase_of_ne hts).mpr hstage)))
    · exact .inr (.inr (.inr hstage))
  · exact ht

private theorem Tight.getNextClient (ht : l.Tight) : l.getNextClient.Tight := by
  unfold ClientListener.getNextClient
  split
  · exact ht
  next client waiting hw =>
    refine ht.of client (fun t hmem _ => hmem) (fun t hts hstage => ?_)
      fun _ => .inr (.inr (.inr (Finset.mem_insert_self _ _)))
    refine hstage.imp_right fun hrest => hrest.imp_right fun hrest => hrest.imp (fun hmem => ?_) Finset.mem_insert_of_mem
    rw [hw] at hmem
    exact (List.mem_cons.mp hmem).resolve_left hts

private theorem Sound.not_tight_deleteAdopted (h : l.Sound) (hs : s ∈ l.adopted) : ¬ (l.deleteAdopted s).Tight := by
  intro ht
  rcases ht s (h.adopted s hs) with hstage | hstage | hstage | hstage
  · exact (h.accepting s hstage).2.2.2 hs
  · exact (h.unknown s hstage).2.2 hs
  · exact (h.waiting s hstage).2 hs
  · exact Finset.notMem_erase s l.adopted hstage

private theorem Tight.dispatch_iff (ht : l.Tight) (h : l.Sound) : l.dispatch.Tight ↔ ¬ l.Leaks .dispatch := by
  unfold ClientListener.dispatch Leaks
  split
  next he =>
    rw [he]
    exact iff_of_true ht not_false
  next s events he =>
    rw [he]
    refine iff_of_true ?_ not_false
    split
    · exact Tight.handleClientAccepted (ht.withEvents _) s
    · exact ht
  next s events he =>
    rw [he]
    split
    next u hu =>
      refine (Tight.handleUnknownClient_iff (ht.withEvents events) (h.withEvents events) hu).trans ?_
      simp [hu]
    next hu => exact iff_of_true ht (by simp [hu])
  next s events he =>
    rw [he]
    split
    next u hu =>
      refine (Tight.handleUnknownFailure_iff (ht.withEvents events) (h.withEvents events) hu).trans ?_
      simp [hu]
    next hu => exact iff_of_true ht (by simp [hu])

/-- A step keeps the slots tight if and only if it does not leak one. -/
theorem Tight.step_iff (ht : l.Tight) (h : l.Sound) (a : Action) : (l.step a).Tight ↔ ¬ l.Leaks a := by
  cases a with
  | connecting => exact iff_of_true ht.handleClientConnecting not_false
  | accepted s => exact iff_of_true (iteInduction (fun _ => ht.handleClientAccepted s) fun _ => ht) not_false
  | disconnectedOnAccept s => exact iff_of_true (iteInduction (fun _ => ht.remove s) fun _ => ht) not_false
  | helloReply s version => exact iff_of_true (ht.reach s fun u => ht.handleData s u version) not_false
  | writeError s | disconnected s | timeout s => exact iff_of_true (ht.reach s fun u => ht.change s _) not_false
  | proxyReady s => exact iff_of_true (ht.reach s fun u => ht.change s _) not_false
  | proxyDisconnected s =>
    change (if s ∈ l.adopted then _ else _ : ClientListener).Tight ↔ ¬ s ∈ l.adopted
    split
    next hs => exact iff_of_false (h.not_tight_deleteAdopted hs) (not_not.mpr hs)
    next hs =>
      refine iff_of_true ?_ hs
      split
      · exact ht.handleClientDisconnected s
      · exact ht.reach s fun u => ht.change s _
  | dispatch => exact ht.dispatch_iff h
  | getNextClient => exact iff_of_true ht.getNextClient not_false
  | closeTimeout s =>
    change (if s ∈ l.adopted then _ else _ : ClientListener).Tight ↔ ¬ s ∈ l.adopted
    split
    next hs => exact iff_of_false (h.not_tight_deleteAdopted hs) (not_not.mpr hs)
    next hs => exact iff_of_true ht hs

/-- In a run the slots are returned in every state if and only if no step leaks one. -/
theorem slotsReturned_iff (securityLevel : SecurityLevel) (actions : List Action) :
    Always SlotsReturned (runTrace step (start securityLevel) actions) ↔
      EachStep (fun l a _ => ¬ l.Leaks a) (start securityLevel) (runTrace step (start securityLevel) actions) := by
  have hstart : (start securityLevel).Tight := by simp [Tight, start]
  rw [← eachStep_state_iff SlotsReturned (start securityLevel)]
  refine (Trace.eachStep_iff (fun l => l.Sound ∧ l.Tight) ?_ ?_ (trace_runTrace step _ actions)
    ⟨.start securityLevel, hstart⟩).symm
  · rintro l a _ ⟨h, ht⟩ rfl
    rw [(h.step a).returned_iff_tight, ht.step_iff h a]
  · rintro l a _ ⟨h, ht⟩ rfl hleaks
    exact ⟨h.step a, (ht.step_iff h a).mpr hleaks⟩

/-- A client connects, is taken by the server and goes. -/
def visit (s : Socket) : List Action :=
  [.connecting, .dispatch, .helloReply s (some (1, 8)), .proxyReady s, .dispatch, .getNextClient, .proxyDisconnected s]

/-- The slot of a client that has come and gone is not returned. -/
theorem slots_not_returned : ¬ ∀ (securityLevel : SecurityLevel) (actions : List Action),
    Always SlotsReturned (runTrace step (start securityLevel) actions) := by
  intro h
  have hall := h .plainText (visit 0)
  have hlast : SlotsReturned ((visit 0).foldl step (start .plainText)) := by
    simp only [visit, runTrace, always_cons] at hall
    exact hall.2.2.2.2.2.2.1
  have hslot : 0 ∈ ((visit 0).foldl step (start .plainText)).clientSockets := by decide
  rcases (hlast.slots 0).mp hslot with hstage | hstage | hstage | hstage
  · revert hstage
    decide
  · exact hstage rfl
  · revert hstage
    decide
  · revert hstage
    decide

end ClientListener
end Synergy
