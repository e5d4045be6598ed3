import Mathlib.Data.List.Perm.Basic
import Mathlib.Data.List.Range
import Synergy.Lib.SortedMap

/-! The table of the events that wait in the buffer, and the ids that they wait under. -/
namespace Synergy
open Synergy.Lib

/-- The events by their ids, and the ids to reuse, the next one first. -/
structure EventTable (α : Type) where
  m_events : SortedMap (fun id : Nat => id) α := .empty
  m_oldEventIDs : List Nat := []

namespace EventTable
variable {α : Type}

/-- Choose an id, which has 32 bits, and save the event under it. -/
def saveEvent (t : EventTable α) (event : α) : Nat × EventTable α :=
  match t.m_oldEventIDs with
  | id :: old => (id, ⟨t.m_events.put id event, old⟩)
  | [] => (t.m_events.size % 2 ^ 32, ⟨t.m_events.put (t.m_events.size % 2 ^ 32) event, []⟩)

/-- The event saved under the id, and the table without it; an unknown id gives an empty event. -/
def removeEvent (t : EventTable α) (eventID : Nat) : Option α × EventTable α :=
  match t.m_events.get? eventID with
  | none => (none, t)
  | some event => (some event, ⟨t.m_events.erase eventID, eventID :: t.m_oldEventIDs⟩)

/-- An event that the buffer does not take is removed again; the event is given back then. -/
def addEventToBuffer (t : EventTable α) (event : α) (taken : Bool) : Option α × EventTable α :=
  let (eventID, t) := t.saveEvent event
  if taken then (none, t) else t.removeEvent eventID

inductive Call (α : Type)
  | save (event : α)
  | remove (eventID : Nat)

/-- The ids in use and those to reuse are the first numbers, each once. -/
structure Sound (t : EventTable α) : Prop where
  disjoint : ∀ id ∈ t.m_oldEventIDs, id ∉ t.m_events.keys
  nodup : t.m_oldEventIDs.Nodup
  range : ∃ k, ∀ id, id ∈ t.m_events.keys ∨ id ∈ t.m_oldEventIDs ↔ id < k

/-- Calls one after the other: the table is sound before and after each, an event is saved under an
id that no pending event has, and the event that is removed is the pending one of the id. -/
def Keeps : EventTable α → (Nat → Option α) → List (Call α) → Prop
  | t, pending, [] => t.Sound ∧ ∀ id, t.m_events.get? id = pending id
  | t, pending, .save event :: calls =>
    (t.Sound ∧ ∀ id, t.m_events.get? id = pending id) ∧ pending (t.saveEvent event).1 = none ∧
      Keeps (t.saveEvent event).2 (Function.update pending (t.saveEvent event).1 (some event)) calls
  | t, pending, .remove eventID :: calls =>
    (t.Sound ∧ ∀ id, t.m_events.get? id = pending id) ∧ (t.removeEvent eventID).1 = pending eventID ∧
      Keeps (t.removeEvent eventID).2 (Function.update pending eventID none) calls

/-- No event is saved while as many are pending as there are ids. -/
def Roomy : EventTable α → List (Call α) → Prop
  | _, [] => True
  | t, .save event :: calls => t.m_events.size < 2 ^ 32 ∧ Roomy (t.saveEvent event).2 calls
  | t, .remove eventID :: calls => Roomy (t.removeEvent eventID).2 calls

/-- The ids in use before those to reuse, in some order, are the first numbers. -/
def Numbered (t : EventTable α) : Prop :=
  (t.m_events.keys ++ t.m_oldEventIDs).Perm (List.range (t.m_events.size + t.m_oldEventIDs.length))

theorem Numbered.sound {t : EventTable α} (h : t.Numbered) : t.Sound := by
  have hnodup := h.nodup_iff.mpr List.nodup_range
  rw [List.nodup_append] at hnodup
  refine ⟨fun id hold hused => hnodup.2.2 id hused id hold rfl, hnodup.2.1,
    t.m_events.size + t.m_oldEventIDs.length, fun id => ?_⟩
  rw [← List.mem_append, h.mem_iff, List.mem_range]

theorem numbered_empty : Numbered ({} : EventTable α) := .nil

/-- The id that an event is saved under, and the ids to reuse that are left. -/
private theorem saveEvent_eq (t : EventTable α) (event : α) :
    ∃ id old, t.saveEvent event = (id, ⟨t.m_events.put id event, old⟩) ∧
      (t.m_oldEventIDs = id :: old ∨ t.m_oldEventIDs = [] ∧ old = [] ∧ id = t.m_events.size % 2 ^ 32) := by
  unfold saveEvent
  cases t.m_oldEventIDs with
  | nil => exact ⟨_, _, rfl, .inr ⟨rfl, rfl, rfl⟩⟩
  | cons id old => exact ⟨id, old, rfl, .inl rfl⟩

private theorem size_put {m : SortedMap (fun id : Nat => id) α} {id : Nat} (event : α) (h : m.contains id = false) :
    (m.put id event).size = m.size + 1 := by
  rw [m.put_of_absent event h]
  simpa [SortedMap.keys, SortedMap.size] using (m.insert_perm event h).length_eq

/-- A fresh id is not in use, as long as there are enough of them. -/
theorem Numbered.fresh {t : EventTable α} (h : t.Numbered) (hroom : t.m_events.size < 2 ^ 32) {id : Nat}
    {old : List Nat}
    (hid : t.m_oldEventIDs = id :: old ∨ t.m_oldEventIDs = [] ∧ old = [] ∧ id = t.m_events.size % 2 ^ 32) :
    t.m_events.contains id = false := by
  by_contra hc
  obtain ⟨used, hused, rfl⟩ := (t.m_events.contains_iff_keys id).mp (by simpa using hc)
  rcases hid with hold | ⟨hold, -, hid⟩
  · exact h.sound.disjoint used (by simp [hold]) hused
  · have hm := h.mem_iff.mp (List.mem_append_left _ hused)
    rw [hold, List.length_nil, Nat.add_zero, List.mem_range] at hm
    rw [Nat.mod_eq_of_lt hroom] at hid
    omega

/-- A saved event gets an id that no pending event has. -/
theorem Numbered.saveEvent {t : EventTable α} (h : t.Numbered) (hroom : t.m_events.size < 2 ^ 32) (event : α) :
    (t.saveEvent event).2.Numbered ∧ t.m_events.get? (t.saveEvent event).1 = none ∧
      (t.saveEvent event).2.m_events = t.m_events.put (t.saveEvent event).1 event := by
  obtain ⟨id, old, heq, hid⟩ := saveEvent_eq t event
  have hfresh := h.fresh hroom hid
  have hkeys := t.m_events.insert_perm event hfresh
  rw [← t.m_events.put_of_absent event hfresh] at hkeys
  rw [heq]
  refine ⟨?_, ?_, rfl⟩
  · unfold Numbered at h ⊢
    dsimp only
    rw [size_put event hfresh]
    refine (hkeys.append_right old).trans ?_
    rcases hid with hold | ⟨hold, rfl, hid⟩
    · rw [hold, List.length_cons] at h
      refine List.perm_middle.symm.trans (h.trans ?_)
      rw [Nat.add_right_comm, Nat.add_assoc]
    · rw [hold, List.append_nil, List.length_nil, Nat.add_zero] at h
      rw [Nat.mod_eq_of_lt hroom] at hid
      rw [List.append_nil, List.length_nil, Nat.add_zero, List.range_succ, hid]
      exact (h.cons _).trans (List.perm_append_singleton _ _).symm
  · simpa [SortedMap.contains_eq_isSome_get?] using hfresh

theorem Numbered.removeEvent {t : EventTable α} (h : t.Numbered) (eventID : Nat) :
    (t.removeEvent eventID).2.Numbered := by
  unfold EventTable.removeEvent
  cases hget : t.m_events.get? eventID with
  | none => exact h
  | some event =>
    obtain ⟨used, hmem, rfl⟩ := (t.m_events.get?_eq_some_iff eventID event).mp hget
    have hkeys := t.m_events.erase_perm hmem
    have hsize : t.m_events.size = (t.m_events.erase used).size + 1 := by
      simpa [SortedMap.keys, SortedMap.size] using hkeys.length_eq
    unfold Numbered at h ⊢
    dsimp only
    rw [hsize, Nat.add_right_comm, Nat.add_assoc] at h
    exact List.perm_middle.trans ((hkeys.append_right _).symm.trans h)

private theorem keeps_of_numbered {calls : List (Call α)} {t : EventTable α} {pending : Nat → Option α}
    (h : t.Numbered) (hpending : ∀ id, t.m_events.get? id = pending id) (hroom : Roomy t calls) :
    Keeps t pending calls := by
  induction calls generalizing t pending with
  | nil => exact ⟨h.sound, hpending⟩
  | cons call calls ih =>
    cases call with
    | save event =>
      obtain ⟨hnumbered, hfresh, hevents⟩ := h.saveEvent hroom.1 event
      refine ⟨⟨h.sound, hpending⟩, (hpending _).symm.trans hfresh, ih hnumbered (fun id => ?_) hroom.2⟩
      rw [hevents, SortedMap.get?_put, hpending, Function.update_apply]
      exact if_congr eq_comm rfl rfl
    | remove eventID =>
      refine ⟨⟨h.sound, hpending⟩, ?_, ih (h.removeEvent eventID) (fun id => ?_) hroom⟩
      · rw [← hpending]
        unfold EventTable.removeEvent
        cases t.m_events.get? eventID <;> rfl
      · rw [Function.update_apply, ← hpending, EventTable.removeEvent]
        cases hget : t.m_events.get? eventID with
        | none =>
          dsimp only
          split_ifs with heq
          · rw [heq, hget]
          · rfl
        | some event => rw [SortedMap.get?_erase]

/-- Calls on an empty table keep it sound, lose no event and mix up none, while there is an id left for
each event that is saved. -/
theorem keeps_events (calls : List (Call α)) (hroom : Roomy {} calls) : Keeps {} (fun _ => none) calls :=
  keeps_of_numbered numbered_empty (fun _ => rfl) hroom

theorem keeps_events_reused :
    Keeps ({} : EventTable Nat) (fun _ => none) [.save 7, .save 8, .remove 0, .save 9, .remove 1, .remove 5] :=
  keeps_events _ (by simp only [Roomy]; decide)

/-- One event more than there are ids. -/
private theorem not_keeps_full (n : Nat) {t : EventTable Unit} {pending : Nat → Option Unit}
    (hold : t.m_oldEventIDs = []) (hn : t.m_events.size + n = 2 ^ 32) :
    ¬ Keeps t pending (List.replicate (n + 1) (.save ())) := by
  induction n generalizing t pending with
  | zero =>
    rintro ⟨⟨hsound, hpending⟩, hfresh, -⟩
    obtain ⟨k, hk⟩ := hsound.range
    rw [Nat.add_zero] at hn
    have hid : (t.saveEvent ()).1 = 0 := by
      unfold EventTable.saveEvent
      rw [hold]
      dsimp only
      rw [hn, Nat.mod_self]
    have hlength : t.m_events.keys.length = t.m_events.size := List.length_map _
    obtain ⟨first, more, hkeys⟩ := List.exists_cons_of_length_pos (l := t.m_events.keys) (by omega)
    have hfirst := (hk first).mp (.inl (by rw [hkeys]; simp))
    rcases (hk 0).mpr (by omega) with hzero | hzero
    · obtain ⟨event, hevent⟩ := (t.m_events.mem_keys 0).mp hzero
      rw [hid, ← hpending, t.m_events.get?_of_mem hevent] at hfresh
      cases hfresh
    · rw [hold] at hzero
      cases hzero
  | succ n ih =>
    rintro ⟨⟨-, hpending⟩, hfresh, hmore⟩
    refine ih ?_ ?_ hmore
    · unfold EventTable.saveEvent
      rw [hold]
    · rw [← hpending] at hfresh
      have hsize : (t.saveEvent ()).2.m_events = t.m_events.put (t.saveEvent ()).1 () := by
        unfold EventTable.saveEvent
        rw [hold]
      rw [hsize, size_put () (by rw [SortedMap.contains_eq_isSome_get?, hfresh]; rfl)]
      omega

theorem full_table_overwrites :
    ¬ ∀ calls : List (Call Unit), Keeps {} (fun _ => none) calls :=
  fun h => not_keeps_full (2 ^ 32) rfl rfl (h _)

/-- An event that the buffer does not take is given back. -/
theorem Numbered.addEventToBuffer_refused {t : EventTable α} (h : t.Numbered) (hroom : t.m_events.size < 2 ^ 32)
    (event : α) : (t.addEventToBuffer event false).1 = some event ∧ (t.addEventToBuffer event false).2.Numbered := by
  obtain ⟨hnumbered, -, hevents⟩ := h.saveEvent hroom event
  refine ⟨?_, hnumbered.removeEvent _⟩
  have hget : (t.saveEvent event).2.m_events.get? (t.saveEvent event).1 = some event := by
    rw [hevents, SortedMap.get?_put, if_pos rfl]
  unfold addEventToBuffer EventTable.removeEvent
  simp only [hget, Bool.false_eq_true, if_false]

end EventTable
end Synergy
