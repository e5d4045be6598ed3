import Synergy.Server.ClientListener

/-! The stages of a connection at the listener. -/
namespace Synergy

namespace ClientListener

/-- The connection is in its handshake, waits, or lives with the server. -/
def Active (l : ClientListener) (s : Socket) : Prop :=
  s ∈ l.accepting ∨ l.newClients s ≠ none ∨ s ∈ l.waitingClients ∨ s ∈ l.adopted

/-- What holds after every step, whether slots are lost or not: a connection is at one
stage, an active one has its slot, and a socket without a slot has been deleted once. -/
structure Sound (l : ClientListener) : Prop where
  own : ∀ s u, l.newClients s = some u → (∀ t ∈ u.stream, t = s) ∧ ∀ t ∈ u.proxy, t = s
  accepting : ∀ s ∈ l.accepting, s ∈ l.clientSockets ∧ l.newClients s = none ∧ s ∉ l.waitingClients ∧ s ∉ l.adopted
  unknown : ∀ s, l.newClients s ≠ none → s ∈ l.clientSockets ∧ s ∉ l.waitingClients ∧ s ∉ l.adopted
  waiting : ∀ s ∈ l.waitingClients, s ∈ l.clientSockets ∧ s ∉ l.adopted
  waitingOnce : l.waitingClients.Nodup
  adopted : ∀ s ∈ l.adopted, s ∈ l.clientSockets
  come : ∀ s ∈ l.clientSockets, s < l.next
  ended : ∀ s, s ∈ l.deleted ↔ s < l.next ∧ s ∉ l.clientSockets
  once : l.deleted.Nodup

variable {l : ClientListener} {s : Socket} {u : ClientProxyUnknown}

theorem Sound.active (h : l.Sound) (hs : l.Active s) : s ∈ l.clientSockets := by
  rcases hs with hs | hs | hs | hs
  · exact (h.accepting s hs).1
  · exact (h.unknown s hs).1
  · exact (h.waiting s hs).1
  · exact h.adopted s hs

theorem Sound.start (securityLevel : SecurityLevel) : (ClientListener.start securityLevel).Sound := by
  constructor <;> simp [ClientListener.start]

theorem Sound.withEvents (h : l.Sound) (events : List ListenerEvent) : Sound { l with events := events } :=
  ⟨h.own, h.accepting, h.unknown, h.waiting, h.waitingOnce, h.adopted, h.come, h.ended, h.once⟩

private theorem Sound.addEvent (h : l.Sound) (e : ListenerEvent) : (l.addEvent e).Sound := h.withEvents _

/-- An unknown client is dropped. -/
private theorem Sound.drop (h : l.Sound) (s : Socket) : (l.setUnknown s none).Sound := by
  have hnew : ∀ t, (l.setUnknown s none).newClients t ≠ none → l.newClients t ≠ none := by
    intro t ht
    by_cases hts : t = s
    · exact absurd (hts ▸ l.setUnknown_self s none) ht
    · rwa [l.setUnknown_of_ne hts] at ht
  refine ⟨?_, ?_, fun t ht => h.unknown t (hnew t ht), h.waiting, h.waitingOnce, h.adopted, h.come, h.ended, h.once⟩
  · intro t u ht
    refine h.own t u ?_
    by_cases hts : t = s
    · rw [hts, setUnknown_self] at ht
      cases ht
    · rwa [l.setUnknown_of_ne hts] at ht
  · intro t ht
    obtain ⟨hslot, hnone, hrest⟩ := h.accepting t ht
    refine ⟨hslot, not_not.mp fun hne => ?_, hrest⟩
    exact hnew t hne hnone

/-- An unknown client's record is set, at no other stage. -/
private theorem Sound.record (h : l.Sound) (hu : (∀ t ∈ u.stream, t = s) ∧ ∀ t ∈ u.proxy, t = s)
    (hslot : s ∈ l.clientSockets) (haccepting : s ∉ l.accepting) (hwaiting : s ∉ l.waitingClients)
    (hadopted : s ∉ l.adopted) : (l.setUnknown s (some u)).Sound := by
  refine ⟨?_, ?_, ?_, h.waiting, h.waitingOnce, h.adopted, h.come, h.ended, h.once⟩
  · intro t v ht
    by_cases hts : t = s
    · rw [hts, setUnknown_self] at ht
      obtain rfl := Option.some.inj ht
      exact hts ▸ hu
    · rw [l.setUnknown_of_ne hts] at ht
      exact h.own t v ht
  · intro t ht
    have hts : t ≠ s := fun hts => haccepting (hts ▸ ht)
    rw [l.setUnknown_of_ne hts]
    exact h.accepting t ht
  · intro t ht
    by_cases hts : t = s
    · rw [hts]
      exact ⟨hslot, hwaiting, hadopted⟩
    · rw [l.setUnknown_of_ne hts] at ht
      exact h.unknown t ht

/-- A socket that is at no stage but the accept goes, with its slot. -/
private theorem Sound.remove (h : l.Sound) (hslot : s ∈ l.clientSockets) (hnew : l.newClients s = none)
    (hwaiting : s ∉ l.waitingClients) (hadopted : s ∉ l.adopted) : (l.removeClientSocket s).Sound := by
  have hkeep : ∀ t, t ≠ s → t ∈ l.clientSockets → t ∈ l.clientSockets.erase s := fun t => Finset.mem_erase_of_ne_of_mem
  have hdeleted : s ∉ l.deleted := fun hs => ((h.ended s).mp hs).2 hslot
  refine ⟨h.own, ?_, ?_, ?_, h.waitingOnce, ?_, ?_, ?_, List.nodup_cons.mpr ⟨hdeleted, h.once⟩⟩
  · intro t ht
    obtain ⟨hts, ht⟩ := Finset.mem_erase.mp ht
    obtain ⟨hslot', hrest⟩ := h.accepting t ht
    exact ⟨hkeep t hts hslot', hrest⟩
  · intro t ht
    obtain ⟨hslot', hrest⟩ := h.unknown t ht
    exact ⟨hkeep t (fun hts => ht (hts ▸ hnew)) hslot', hrest⟩
  · intro t ht
    obtain ⟨hslot', hrest⟩ := h.waiting t ht
    exact ⟨hkeep t (fun hts => hwaiting (hts ▸ ht)) hslot', hrest⟩
  · exact fun t ht => hkeep t (fun hts => hadopted (hts ▸ ht)) (h.adopted t ht)
  · exact fun t ht => h.come t (Finset.mem_of_mem_erase ht)
  · intro t
    simp only [removeClientSocket, List.mem_cons, h.ended, Finset.mem_erase]
    by_cases hts : t = s
    · simp [hts, h.come s hslot]
    · simp [hts]

/-- A socket comes into a slot of its own, or is refused. -/
private theorem Sound.handleClientConnecting (h : l.Sound) : l.handleClientConnecting.Sound := by
  have hfresh : l.next ∉ l.clientSockets := fun hs => lt_irrefl _ (h.come _ hs)
  have hdeleted : l.next ∉ l.deleted := fun hs => lt_irrefl _ ((h.ended _).mp hs).1
  have hnext : ∀ t, t < l.next + 1 ↔ t < l.next ∨ t = l.next := fun _ => Nat.lt_succ_iff_lt_or_eq
  unfold ClientListener.handleClientConnecting
  simp only
  split
  · refine ⟨h.own, h.accepting, h.unknown, h.waiting, h.waitingOnce, h.adopted, ?_, ?_, List.nodup_cons.mpr ⟨hdeleted, h.once⟩⟩
    · exact fun t ht => (h.come t ht).trans (Nat.lt_succ_self _)
    · intro t
      simp only [List.mem_cons, h.ended, hnext]
      by_cases hts : t = l.next
      · simp [hts, hfresh]
      · simp [hts]
  · have hadd : Sound
        { l with
          next := l.next + 1
          clientSockets := insert l.next l.clientSockets
          accepting := insert l.next l.accepting } := by
      have hkeep : ∀ t ∈ l.clientSockets, t ∈ insert l.next l.clientSockets := fun t => Finset.mem_insert_of_mem
      refine ⟨h.own, ?_, ?_, ?_, h.waitingOnce, ?_, ?_, ?_, h.once⟩
      · intro t ht
        rcases Finset.mem_insert.mp ht with rfl | ht
        · refine ⟨Finset.mem_insert_self _ _, not_not.mp fun hne => hfresh (h.unknown _ hne).1,
            fun hw => hfresh (h.waiting _ hw).1, fun ha => hfresh (h.adopted _ ha)⟩
        · obtain ⟨hslot, hrest⟩ := h.accepting t ht
          exact ⟨hkeep t hslot, hrest⟩
      · intro t ht
        obtain ⟨hslot, hrest⟩ := h.unknown t ht
        exact ⟨hkeep t hslot, hrest⟩
      · intro t ht
        obtain ⟨hslot, hrest⟩ := h.waiting t ht
        exact ⟨hkeep t hslot, hrest⟩
      · exact fun t ht => hkeep t (h.adopted t ht)
      · intro t ht
        rcases Finset.mem_insert.mp ht with rfl | ht
        · exact Nat.lt_succ_self _
        · exact (h.come t ht).trans (Nat.lt_succ_self _)
      · intro t
        simp only [h.ended, hnext, Finset.mem_insert, not_or]
        by_cases hts : t = l.next
        · simp [hts]
        · simp [hts]
    split
    · exact hadd.addEvent _
    · exact hadd

private theorem Sound.handleClientAccepted (h : l.Sound) (hs : s ∈ l.accepting) : (l.handleClientAccepted s).Sound := by
  obtain ⟨hslot, hnew, hwaiting, hadopted⟩ := h.accepting s hs
  have hbase : Sound { l with accepting := l.accepting.erase s } :=
    ⟨h.own, fun t ht => h.accepting t (Finset.mem_of_mem_erase ht), h.unknown, h.waiting, h.waitingOnce, h.adopted,
      h.come, h.ended, h.once⟩
  exact hbase.record (by simp) hslot (Finset.notMem_erase s l.accepting) hwaiting hadopted

/-- A client that is still unknown changes, and is the same connection. -/
private theorem Sound.change (h : l.Sound) {v : ClientProxyUnknown} (hs : l.newClients s = some v)
    (hu : (∀ t ∈ u.stream, t = s) ∧ ∀ t ∈ u.proxy, t = s) : (l.setUnknown s (some u)).Sound := by
  have hne : l.newClients s ≠ none := by simp [hs]
  obtain ⟨hslot, hwaiting, hadopted⟩ := h.unknown s hne
  exact h.record hu hslot (fun ha => hne (h.accepting s ha).2.1) hwaiting hadopted

private theorem Sound.sendSuccess (h : l.Sound) (hs : l.newClients s = some u) : (l.sendSuccess s u).Sound := by
  rw [ClientListener.sendSuccess]
  refine Sound.addEvent (h.change hs ?_) _
  exact h.own s u hs

private theorem Sound.sendFailure (h : l.Sound) {v : ClientProxyUnknown} (hs : l.newClients s = some v)
    (hu : ∀ t ∈ u.stream, t = s) : (l.sendFailure s u).Sound := by
  rw [ClientListener.sendFailure]
  refine Sound.addEvent (h.change hs ⟨?_, ?_⟩) _
  · exact hu
  · simp [ClientProxyUnknown.removeTimer, ClientProxyUnknown.removeHandlers]

private theorem Sound.handleData (h : l.Sound) (hs : l.newClients s = some u) (version : Option (Int × Int)) :
    (l.handleData s u version).Sound := by
  obtain ⟨hstream, hproxy⟩ := h.own s u hs
  unfold ClientListener.handleData
  cases version with
  | none => exact h.sendFailure hs hstream
  | some version =>
    simp only
    split
    · exact h.sendFailure hs hstream
    · split
      · exact h.sendFailure hs hstream
      next proxy hinit =>
        have hown : proxy ∈ u.stream := by
          unfold ClientProxyUnknown.initProxy at hinit
          split at hinit
          · exact hinit
          · cases hinit
        exact h.change hs ⟨by simp, by simp [hstream proxy hown]⟩

/-- A connection that is at no stage waits. -/
private theorem Sound.wait (h : l.Sound) (hslot : s ∈ l.clientSockets) (hstage : ¬ l.Active s) :
    Sound { l with waitingClients := l.waitingClients ++ [s] } := by
  obtain ⟨haccepting, hnew, hwaiting, hadopted⟩ : s ∉ l.accepting ∧ l.newClients s = none ∧
      s ∉ l.waitingClients ∧ s ∉ l.adopted := by
    simpa only [Active, not_or, not_not] using hstage
  have hother : ∀ t, t ≠ s → t ∉ l.waitingClients → t ∉ l.waitingClients ++ [s] := by
    intro t hts ht hmem
    rcases List.mem_append.mp hmem with hmem | hmem
    · exact ht hmem
    · exact hts (List.mem_singleton.mp hmem)
  refine ⟨h.own, ?_, ?_, ?_, ?_, h.adopted, h.come, h.ended, h.once⟩
  · intro t ht
    obtain ⟨hslot', hnew', hwaiting', hadopted'⟩ := h.accepting t ht
    exact ⟨hslot', hnew', hother t (fun hts => haccepting (hts ▸ ht)) hwaiting', hadopted'⟩
  · intro t ht
    obtain ⟨hslot', hwaiting', hadopted'⟩ := h.unknown t ht
    exact ⟨hslot', hother t (fun hts => ht (hts ▸ hnew)) hwaiting', hadopted'⟩
  · intro t ht
    rcases List.mem_append.mp ht with ht | ht
    · exact h.waiting t ht
    · rw [List.mem_singleton.mp ht]
      exact ⟨hslot, hadopted⟩
  · exact List.nodup_append.mpr ⟨h.waitingOnce, List.nodup_singleton s, by
      rintro t ht _ hts rfl
      exact hwaiting (List.mem_singleton.mp hts ▸ ht)⟩

theorem Sound.not_active_drop (h : l.Sound) (hs : l.newClients s ≠ none) : ¬ (l.setUnknown s none).Active s := by
  obtain ⟨-, hwaiting, hadopted⟩ := h.unknown s hs
  have haccepting : s ∉ l.accepting := fun ha => hs (h.accepting s ha).2.1
  rintro (ha | hn | hw | ha)
  · exact haccepting ha
  · exact hn (l.setUnknown_self s none)
  · exact hwaiting hw
  · exact hadopted ha

theorem Sound.orphan (h : l.Sound) (hs : l.newClients s = some u) {client : Socket}
    (hc : u.orphanClientProxy.1 = some client) : client = s := by
  unfold ClientProxyUnknown.orphanClientProxy at hc
  split at hc
  · exact (h.own s u hs).2 client hc
  · cases hc

private theorem Sound.handleUnknownClient (h : l.Sound) (hs : l.newClients s = some u) :
    (l.handleUnknownClient s u).Sound := by
  have hne : l.newClients s ≠ none := by simp [hs]
  unfold ClientListener.handleUnknownClient
  split
  next client hc =>
    rw [h.orphan hs hc]
    exact (h.drop s).wait (h.unknown s hne).1 (h.not_active_drop hne)
  · exact h.drop s

private theorem Sound.handleUnknownFailure (h : l.Sound) (hs : l.newClients s = some u) :
    (l.handleUnknownFailure s u).Sound := by
  have hne : l.newClients s ≠ none := by simp [hs]
  obtain ⟨hslot, hwaiting, hadopted⟩ := h.unknown s hne
  unfold ClientListener.handleUnknownFailure
  split
  next socket hsocket =>
    rw [(h.own s u hs).1 socket hsocket]
    exact (h.drop s).remove hslot (l.setUnknown_self s none) hwaiting hadopted
  · exact h.drop s

private theorem Sound.unwait (h : l.Sound) (s : Socket) : Sound { l with waitingClients := l.waitingClients.erase s } := by
  have hkeep : ∀ t, t ∉ l.waitingClients → t ∉ l.waitingClients.erase s := fun t ht hmem => ht (List.mem_of_mem_erase hmem)
  refine ⟨h.own, ?_, ?_, fun t ht => h.waiting t (List.mem_of_mem_erase ht), h.waitingOnce.erase s, h.adopted, h.come,
    h.ended, h.once⟩
  · intro t ht
    obtain ⟨hslot, hnew, hwaiting, hadopted⟩ := h.accepting t ht
    exact ⟨hslot, hnew, hkeep t hwaiting, hadopted⟩
  · intro t ht
    obtain ⟨hslot, hwaiting, hadopted⟩ := h.unknown t ht
    exact ⟨hslot, hkeep t hwaiting, hadopted⟩

theorem Sound.at_waiting (h : l.Sound) (hs : s ∈ l.waitingClients) : s ∉ l.accepting ∧ l.newClients s = none :=
  ⟨fun ha => (h.accepting s ha).2.2.1 hs, not_not.mp fun hne => (h.unknown s hne).2.1 hs⟩

private theorem Sound.handleClientDisconnected (h : l.Sound) (hs : s ∈ l.waitingClients) :
    (l.handleClientDisconnected s).Sound := by
  obtain ⟨hslot, hadopted⟩ := h.waiting s hs
  rw [ClientListener.handleClientDisconnected, if_pos hs]
  exact (h.unwait s).remove hslot (h.at_waiting hs).2 (fun hmem => h.waitingOnce.not_mem_erase hmem) hadopted

private theorem Sound.getNextClient (h : l.Sound) : l.getNextClient.Sound := by
  unfold ClientListener.getNextClient
  split
  · exact h
  next client waiting hw =>
    have hmem : client ∈ l.waitingClients := by simp [hw]
    obtain ⟨hslot, -⟩ := h.waiting client hmem
    obtain ⟨haccepting, hnew⟩ := h.at_waiting hmem
    have honce := h.waitingOnce
    rw [hw] at honce
    obtain ⟨hnot, honce⟩ := List.nodup_cons.mp honce
    have hrest : ∀ t ∈ waiting, t ∈ l.waitingClients := fun t ht => hw ▸ List.mem_cons_of_mem _ ht
    have hother : ∀ t, t ≠ client → t ∉ l.adopted → t ∉ insert client l.adopted := fun t hts ht hmem =>
      (Finset.mem_insert.mp hmem).elim hts ht
    refine ⟨h.own, ?_, ?_, ?_, honce, ?_, h.come, h.ended, h.once⟩
    · intro t ht
      obtain ⟨hslot', hnew', hwaiting', hadopted'⟩ := h.accepting t ht
      exact ⟨hslot', hnew', fun hmem => hwaiting' (hrest t hmem), hother t (fun hts => haccepting (hts ▸ ht)) hadopted'⟩
    · intro t ht
      obtain ⟨hslot', hwaiting', hadopted'⟩ := h.unknown t ht
      exact ⟨hslot', fun hmem => hwaiting' (hrest t hmem), hother t (fun hts => ht (hts ▸ hnew)) hadopted'⟩
    · intro t ht
      obtain ⟨hslot', hadopted'⟩ := h.waiting t (hrest t ht)
      exact ⟨hslot', hother t (fun hts => hnot (hts ▸ ht)) hadopted'⟩
    · intro t ht
      rcases Finset.mem_insert.mp ht with rfl | ht
      · exact hslot
      · exact h.adopted t ht

private theorem Sound.deleteAdopted (h : l.Sound) (s : Socket) : (l.deleteAdopted s).Sound := by
  have hkeep : ∀ t, t ∉ l.adopted → t ∉ l.adopted.erase s := fun t ht hmem => ht (Finset.mem_of_mem_erase hmem)
  refine ⟨h.own, ?_, ?_, ?_, h.waitingOnce, fun t ht => h.adopted t (Finset.mem_of_mem_erase ht), h.come, h.ended, h.once⟩
  · intro t ht
    obtain ⟨hslot, hnew, hwaiting, hadopted⟩ := h.accepting t ht
    exact ⟨hslot, hnew, hwaiting, hkeep t hadopted⟩
  · intro t ht
    obtain ⟨hslot, hwaiting, hadopted⟩ := h.unknown t ht
    exact ⟨hslot, hwaiting, hkeep t hadopted⟩
  · intro t ht
    obtain ⟨hslot, hadopted⟩ := h.waiting t ht
    exact ⟨hslot, hkeep t hadopted⟩

private theorem Sound.dispatch (h : l.Sound) : l.dispatch.Sound := by
  unfold ClientListener.dispatch
  split
  · exact h
  · split
    next hs => exact (h.withEvents _).handleClientAccepted hs
    · exact h.withEvents _
  · split
    next hs => exact (h.withEvents _).handleUnknownClient hs
    · exact h.withEvents _
  · split
    next hs => exact (h.withEvents _).handleUnknownFailure hs
    · exact h.withEvents _

private theorem Sound.reach (h : l.Sound) (s : Socket) {handled : ClientProxyUnknown → Bool}
    {handler : ClientProxyUnknown → ClientListener} (hh : ∀ u, l.newClients s = some u → (handler u).Sound) :
    (l.reach s handled handler).Sound := by
  unfold ClientListener.reach
  split
  next u hs =>
    split
    · exact hh u hs
    · exact h
  · exact h

theorem Sound.step (h : l.Sound) (a : Action) : (l.step a).Sound := by
  cases a with
  | connecting => exact h.handleClientConnecting
  | accepted s => exact iteInduction (fun hs => h.handleClientAccepted hs) fun _ => h
  | disconnectedOnAccept s =>
    refine iteInduction (fun hs => ?_) fun _ => h
    obtain ⟨hslot, hnew, hwaiting, hadopted⟩ := h.accepting s hs
    exact h.remove hslot hnew hwaiting hadopted
  | helloReply s version => exact h.reach s fun u hs => h.handleData hs version
  | writeError s | disconnected s | timeout s => exact h.reach s fun u hs => h.sendFailure hs (h.own s u hs).1
  | proxyReady s => exact h.reach s fun u hs => h.sendSuccess hs
  | proxyDisconnected s =>
    refine iteInduction (fun _ => h.deleteAdopted s) fun _ => ?_
    refine iteInduction (fun hs => h.handleClientDisconnected hs) fun _ => ?_
    exact h.reach s fun u hs => h.sendFailure hs (h.own s u hs).1
  | dispatch => exact h.dispatch
  | getNextClient => exact h.getNextClient
  | closeTimeout s => exact iteInduction (fun _ => h.deleteAdopted s) fun _ => h

end ClientListener
end Synergy
