import Mathlib.Data.Finset.Card
import Mathlib.Data.List.Pairwise
import Synergy.Base.Types
import Synergy.Lib.SortedMap

/-! The checks on key events from the network. Times count nanoseconds. -/
namespace Synergy
open Lib

def keyModifierLevel5Lock : KeyModifierMask := 0x0040

structure KeyCombination where
  key : KeyID := kKeyNone
  mask : KeyModifierMask := 0
  deriving DecidableEq, Repr

abbrev EventTimestamps := SortedMap (fun key : KeyID => key) (List Nat)

structure InputValidator where
  maxEventsPerSecond : Nat := 1000
  blockedCombinations : List KeyCombination := []
  eventTimestamps : EventTimestamps := .empty

namespace InputValidator

def kDefinedModifiers : KeyModifierMask :=
  keyModifierShift ||| keyModifierControl ||| keyModifierAlt ||| keyModifierMeta ||| keyModifierSuper |||
    keyModifierAltGr ||| keyModifierLevel5Lock ||| keyModifierCapsLock

def kMaxTrackedKeys : Nat := 256

def second : Nat := 1000000000

def sanitizeModifierMask (mask : KeyModifierMask) : KeyModifierMask := mask &&& kDefinedModifiers

/-- The key is listed with modifiers that are all held. -/
def isBlockedCombination (v : InputValidator) (key : KeyID) (mask : KeyModifierMask) : Bool :=
  v.blockedCombinations.any fun combination =>
    combination.key == key && (mask &&& combination.mask) == combination.mask

/-- The times that are still inside the window of one second. -/
def inWindow (now : Nat) (timestamps : List Nat) : List Nat := timestamps.filter fun t => now ≤ t + second

/-- The keys that keep a live window. -/
def forget (now : Nat) (m : EventTimestamps) : EventTimestamps :=
  (m.mapValues fun _ stamps => inWindow now stamps).filter fun _ stamps => !stamps.isEmpty

def record (m : EventTimestamps) (keyCode : KeyID) (timestamps : List Nat) : EventTimestamps :=
  (m.erase keyCode).insert keyCode timestamps

/-- Whether the event is to be dropped, and the validator with the event counted or not. -/
def isRateLimited (v : InputValidator) (keyCode : KeyID) (now : Nat) : Bool × InputValidator :=
  let full := kMaxTrackedKeys ≤ v.eventTimestamps.size && !v.eventTimestamps.contains keyCode
  let tracked := if full then forget now v.eventTimestamps else v.eventTimestamps
  if full && kMaxTrackedKeys ≤ tracked.size then (true, { v with eventTimestamps := tracked })
  else
    let timestamps := inWindow now ((tracked.get? keyCode).getD [])
    if v.maxEventsPerSecond ≤ timestamps.length then
      (true, { v with eventTimestamps := record tracked keyCode timestamps })
    else (false, { v with eventTimestamps := record tracked keyCode (timestamps ++ [now]) })

/-- How many keys have a live window. -/
def trackedKeyCount (v : InputValidator) : Nat := v.eventTimestamps.size

def setMaxEventsPerSecond (v : InputValidator) (max : Nat) : InputValidator :=
  { v with maxEventsPerSecond := if 0 < max then max else 1000 }

/-- Rate limiting leaves the configured combinations alone. -/
@[simp] theorem isRateLimited_blockedCombinations (v : InputValidator) (keyCode : KeyID) (now : Nat) :
    (v.isRateLimited keyCode now).2.blockedCombinations = v.blockedCombinations := by
  unfold isRateLimited
  dsimp only
  split_ifs <;> rfl

end InputValidator
end Synergy

/-! The rate limit over whole histories of calls. The stored times of a key are those of its
accepted calls, but for some that no window reaches any more. -/
namespace Synergy
open Synergy.Lib

namespace InputValidator

/-- The times of the calls for a key. -/
def timesOf (key : KeyID) (history : List (KeyID × Nat)) : List Nat :=
  (history.filter fun call => call.1 = key).map Prod.snd

/-- The times that are stored for a key. -/
def stampsOf (m : EventTimestamps) (key : KeyID) : List Nat := (m.get? key).getD []

/-- At most so many accepted calls for a key in a closed window of a second, and few keys are tracked. -/
structure Bounded (limit : Nat) (v : InputValidator) (accepted : List (KeyID × Nat)) : Prop where
  window : ∀ key start, ((timesOf key accepted).filter fun t => start ≤ t ∧ t ≤ start + second).length ≤ limit
  tracked : v.trackedKeyCount ≤ kMaxTrackedKeys

/-- A call that may be refused: the key had as many calls as the limit in the last second, or it is one
too many besides others that each had one. -/
def Refusable (limit : Nat) (v : InputValidator) (accepted : List (KeyID × Nat)) (key : KeyID) (now : Nat) : Prop :=
  ((timesOf key accepted).filter fun t => now ≤ t + second ∧ t ≤ now).length = limit ∨
    (v.eventTimestamps.contains key = false ∧ ∃ others : Finset KeyID, others.card = kMaxTrackedKeys ∧ key ∉ others ∧
      ∀ other ∈ others, ∃ t ∈ timesOf other accepted, now ≤ t + second ∧ t ≤ now)

/-- Calls one after the other, with those accepted before them: the bounds hold all along, and a call is
refused only if it may be. -/
def Limits (limit : Nat) : InputValidator → List (KeyID × Nat) → List (KeyID × Nat) → Prop
  | v, accepted, [] => Bounded limit v accepted
  | v, accepted, (key, now) :: calls =>
    Bounded limit v accepted ∧ ((v.isRateLimited key now).1 = true → Refusable limit v accepted key now) ∧
      Limits limit (v.isRateLimited key now).2
        (if (v.isRateLimited key now).1 then accepted else accepted ++ [(key, now)]) calls

/-- What is stored stands for the accepted calls, which were made by `last`. -/
structure Remembers (limit : Nat) (v : InputValidator) (accepted : List (KeyID × Nat)) (last : Nat) : Prop where
  bounded : Bounded limit v accepted
  limit : v.maxEventsPerSecond = limit
  past : ∀ call ∈ accepted, call.2 ≤ last
  window : ∀ key now, last ≤ now → inWindow now (stampsOf v.eventTimestamps key) = inWindow now (timesOf key accepted)

theorem inWindow_inWindow {now later : Nat} (h : now ≤ later) (stamps : List Nat) :
    inWindow later (inWindow now stamps) = inWindow later stamps := by
  unfold inWindow
  rw [List.filter_filter]
  refine List.filter_congr fun t _ => ?_
  simp only [Bool.and_eq_left_iff_imp, decide_eq_true_eq]
  omega

theorem inWindow_append (now : Nat) (stamps more : List Nat) :
    inWindow now (stamps ++ more) = inWindow now stamps ++ inWindow now more := List.filter_append ..

theorem mem_forget (now : Nat) (m : EventTimestamps) (key : KeyID) (stamps : List Nat) :
    (key, stamps) ∈ (forget now m).entries ↔
      stamps ≠ [] ∧ ∃ before, (key, before) ∈ m.entries ∧ stamps = inWindow now before := by
  rw [forget, SortedMap.mem_filter, SortedMap.mem_mapValues, and_comm]
  simp

theorem stampsOf_of_mem {m : EventTimestamps} {key : KeyID} {stamps : List Nat} (h : (key, stamps) ∈ m.entries) :
    stampsOf m key = stamps := by
  rw [stampsOf, m.get?_of_mem h]
  rfl

/-- Forgetting leaves what is in the window. -/
theorem stampsOf_forget (now : Nat) (m : EventTimestamps) (key : KeyID) :
    stampsOf (forget now m) key = inWindow now (stampsOf m key) := by
  cases hget : (forget now m).get? key with
  | some stamps =>
    obtain ⟨k, hmem, rfl⟩ := (SortedMap.get?_eq_some_iff _ _ _).mp hget
    obtain ⟨-, before, hbefore, rfl⟩ := (mem_forget now m k stamps).mp hmem
    rw [stampsOf_of_mem hmem, stampsOf_of_mem hbefore]
  | none =>
    have hgone : stampsOf (forget now m) key = [] := by rw [stampsOf, hget]; rfl
    rw [hgone]
    cases hm : m.get? key with
    | none => rw [stampsOf, hm]; rfl
    | some before =>
      obtain ⟨k, hmem, rfl⟩ := (SortedMap.get?_eq_some_iff _ _ _).mp hm
      rw [stampsOf_of_mem hmem]
      by_contra hne
      have hkept := (mem_forget now m k _).mpr ⟨fun h => hne h.symm, before, hmem, rfl⟩
      rw [SortedMap.get?_of_mem _ hkept] at hget
      cases hget

theorem stampsOf_record (m : EventTimestamps) (key other : KeyID) (stamps : List Nat) :
    stampsOf (record m key stamps) other = if other = key then stamps else stampsOf m other := by
  have hput : record m key stamps = m.put key stamps := rfl
  rw [stampsOf, hput, SortedMap.get?_put]
  split_ifs with h h' h'
  · rfl
  · exact absurd h.symm h'
  · exact absurd h'.symm h
  · rfl

theorem size_record (m : EventTimestamps) (key : KeyID) (stamps : List Nat) :
    (record m key stamps).size = if m.contains key then m.size else m.size + 1 := by
  have habsent : (m.erase key).contains key = false := by simp [SortedMap.contains_erase]
  have hinsert := (m.erase key).insert_perm stamps habsent
  have hlength := hinsert.length_eq
  simp only [SortedMap.keys, List.length_map, List.length_cons] at hlength
  rw [record, SortedMap.size, hlength]
  cases hc : m.contains key with
  | false => rw [m.erase_of_absent hc]; rfl
  | true =>
    obtain ⟨⟨k, before⟩, hmem, rfl⟩ := (m.contains_iff key).mp hc
    have herase := (m.entries_erase_perm hmem).length_eq
    rw [List.length_cons] at herase
    exact herase.symm

private theorem size_forget_le (now : Nat) (m : EventTimestamps) : (forget now m).size ≤ m.size := by
  rw [SortedMap.size, SortedMap.size, forget, SortedMap.filter]
  refine (List.length_filter_le _ _).trans ?_
  rw [SortedMap.mapValues, List.length_map]

theorem mem_timesOf {key : KeyID} {t : Nat} {history : List (KeyID × Nat)} :
    t ∈ timesOf key history ↔ (key, t) ∈ history := by
  simp [timesOf]

theorem timesOf_append (key called : KeyID) (history : List (KeyID × Nat)) (now : Nat) :
    timesOf key (history ++ [(called, now)]) = timesOf key history ++ if called = key then [now] else [] := by
  rw [timesOf, List.filter_append, List.map_append, ← timesOf]
  by_cases h : called = key <;> simp [h]

/-- What a call does: the table is full of live keys, or the call is counted or not in a table with room. -/
theorem isRateLimited_cases (v : InputValidator) (key : KeyID) (now : Nat) :
    (v.eventTimestamps.contains key = false ∧ kMaxTrackedKeys ≤ (forget now v.eventTimestamps).size ∧
      v.isRateLimited key now = (true, { v with eventTimestamps := forget now v.eventTimestamps })) ∨
    ∃ tracked, (tracked = v.eventTimestamps ∨ tracked = forget now v.eventTimestamps) ∧
      (tracked.contains key = true ∨ tracked.size < kMaxTrackedKeys) ∧
      ((v.maxEventsPerSecond ≤ (inWindow now (stampsOf tracked key)).length ∧ v.isRateLimited key now =
        (true, { v with eventTimestamps := record tracked key (inWindow now (stampsOf tracked key)) })) ∨
      ((inWindow now (stampsOf tracked key)).length < v.maxEventsPerSecond ∧ v.isRateLimited key now =
        (false, { v with eventTimestamps := record tracked key (inWindow now (stampsOf tracked key) ++ [now]) }))) := by
  cases hfull : kMaxTrackedKeys ≤ v.eventTimestamps.size && !v.eventTimestamps.contains key with
  | true =>
    have hnew : v.eventTimestamps.contains key = false := by
      simpa using (Bool.and_eq_true_iff.mp hfull).2
    by_cases hlive : kMaxTrackedKeys ≤ (forget now v.eventTimestamps).size
    · refine .inl ⟨hnew, hlive, ?_⟩
      simp [isRateLimited, hfull, hlive]
    · refine .inr ⟨forget now v.eventTimestamps, .inr rfl, .inr (Nat.lt_of_not_le hlive), ?_⟩
      rcases Nat.lt_or_ge (inWindow now (stampsOf (forget now v.eventTimestamps) key)).length v.maxEventsPerSecond
        with hroom | hroom
      · refine .inr ⟨hroom, ?_⟩
        rw [stampsOf] at hroom
        simp [isRateLimited, hfull, hlive, stampsOf, Nat.not_le.mpr hroom]
      · refine .inl ⟨hroom, ?_⟩
        rw [stampsOf] at hroom
        simp [isRateLimited, hfull, hlive, stampsOf, hroom]
  | false =>
    refine .inr ⟨v.eventTimestamps, .inl rfl, ?_, ?_⟩
    · rcases Bool.and_eq_false_iff.mp hfull with hsize | hold
      · exact .inr (by simpa using hsize)
      · exact .inl (by simpa using hold)
    · rcases Nat.lt_or_ge (inWindow now (stampsOf v.eventTimestamps key)).length v.maxEventsPerSecond
        with hroom | hroom
      · refine .inr ⟨hroom, ?_⟩
        rw [stampsOf] at hroom
        simp [isRateLimited, hfull, stampsOf, Nat.not_le.mpr hroom]
      · refine .inl ⟨hroom, ?_⟩
        rw [stampsOf] at hroom
        simp [isRateLimited, hfull, stampsOf, hroom]

section Step
variable {limit last now : Nat} {v : InputValidator} {accepted : List (KeyID × Nat)} {key : KeyID}

private theorem window_tracked (h : Remembers limit v accepted last) (hlast : last ≤ now) {tracked : EventTimestamps}
    (ht : tracked = v.eventTimestamps ∨ tracked = forget now v.eventTimestamps) {later : Nat} (hlater : now ≤ later)
    (other : KeyID) : inWindow later (stampsOf tracked other) = inWindow later (timesOf other accepted) := by
  rcases ht with rfl | rfl
  · exact h.window other later (hlast.trans hlater)
  · rw [stampsOf_forget, inWindow_inWindow hlater]
    exact h.window other later (hlast.trans hlater)

private theorem inWindow_timesOf (h : Remembers limit v accepted last) (hlast : last ≤ now) (other : KeyID) :
    (timesOf other accepted).filter (fun t => now ≤ t + second ∧ t ≤ now) = inWindow now (timesOf other accepted) := by
  refine List.filter_congr fun t ht => ?_
  have hpast := h.past _ (mem_timesOf.mp ht)
  simp only [decide_eq_decide, and_iff_left_iff_imp]
  exact fun _ => hpast.trans hlast

/-- At most so many accepted calls for a key in the last second. -/
private theorem length_inWindow_le (h : Remembers limit v accepted last) (hlast : last ≤ now) (other : KeyID) :
    (inWindow now (timesOf other accepted)).length ≤ limit := by
  refine le_trans ?_ (h.bounded.window other (now - second))
  rw [← inWindow_timesOf h hlast, ← List.countP_eq_length_filter, ← List.countP_eq_length_filter]
  refine List.countP_mono_left fun t _ ht => ?_
  simp only [decide_eq_true_eq] at ht ⊢
  omega

/-- The keys of a table full of live keys. -/
private theorem others_of_full (h : Remembers limit v accepted last) (hlast : last ≤ now)
    (hnew : v.eventTimestamps.contains key = false) (hlive : kMaxTrackedKeys ≤ (forget now v.eventTimestamps).size) :
    Refusable limit v accepted key now := by
  have hnodup : (forget now v.eventTimestamps).keys.Nodup :=
    List.pairwise_map.mpr ((forget now v.eventTimestamps).sorted.imp fun hlt => hlt.ne)
  have hcard : kMaxTrackedKeys ≤ (forget now v.eventTimestamps).keys.toFinset.card := by
    rw [List.toFinset_card_of_nodup hnodup, SortedMap.keys, List.length_map]
    exact hlive
  obtain ⟨others, hothers, hsize⟩ := Finset.exists_subset_card_eq hcard
  have hkept : ∀ other ∈ others, ∃ before, (other, before) ∈ v.eventTimestamps.entries ∧ inWindow now before ≠ [] := by
    intro other hother
    obtain ⟨stamps, hstamps⟩ := (SortedMap.mem_keys _ _).mp (List.mem_toFinset.mp (hothers hother))
    obtain ⟨hne, before, hbefore, rfl⟩ := (mem_forget now v.eventTimestamps other stamps).mp hstamps
    exact ⟨before, hbefore, hne⟩
  refine .inr ⟨hnew, others, hsize, fun hkey => ?_, fun other hother => ?_⟩
  · obtain ⟨before, hbefore, -⟩ := hkept key hkey
    rw [(v.eventTimestamps.contains_iff key).mpr ⟨_, hbefore, rfl⟩] at hnew
    cases hnew
  · obtain ⟨before, hbefore, hne⟩ := hkept other hother
    rw [← stampsOf_of_mem hbefore, h.window other now hlast] at hne
    obtain ⟨t, ht⟩ := List.exists_mem_of_ne_nil _ hne
    obtain ⟨htime, hwindow⟩ := List.mem_filter.mp ht
    exact ⟨t, htime, of_decide_eq_true hwindow, (h.past _ (mem_timesOf.mp htime)).trans hlast⟩

private theorem size_record_le {tracked : EventTimestamps} (hsize : tracked.size ≤ kMaxTrackedKeys)
    (hroom : tracked.contains key = true ∨ tracked.size < kMaxTrackedKeys) (stamps : List Nat) :
    (record tracked key stamps).size ≤ kMaxTrackedKeys := by
  rw [size_record]
  split_ifs with hc
  · exact hsize
  · exact hroom.resolve_left hc

/-- A call that is counted when fewer than the limit are in the last second keeps to the limit. -/
private theorem window_accepted (h : Remembers limit v accepted last)
    (hroom : (inWindow now (timesOf key accepted)).length < limit) (other : KeyID) (start : Nat) :
    ((timesOf other (accepted ++ [(key, now)])).filter
      fun t => start ≤ t ∧ t ≤ start + second).length ≤ limit := by
  rw [timesOf_append, List.filter_append, List.length_append]
  have hbefore := h.bounded.window other start
  by_cases hcounted : key = other ∧ start ≤ now ∧ now ≤ start + second
  · obtain ⟨rfl, hstart, hend⟩ := hcounted
    have hle : ((timesOf key accepted).filter fun t => start ≤ t ∧ t ≤ start + second).length ≤
        (inWindow now (timesOf key accepted)).length := by
      rw [inWindow, ← List.countP_eq_length_filter, ← List.countP_eq_length_filter]
      refine List.countP_mono_left fun t _ ht => ?_
      simp only [decide_eq_true_eq] at ht ⊢
      omega
    have hone : ((if key = key then [now] else []).filter fun t => start ≤ t ∧ t ≤ start + second).length ≤ 1 :=
      (List.length_filter_le _ _).trans (by simp)
    omega
  · have hnone : ((if key = other then [now] else []).filter fun t => start ≤ t ∧ t ≤ start + second) = [] := by
      split_ifs with hkey
      · simpa [hkey] using hcounted
      · rfl
    rw [hnone]
    exact hbefore

/-- One call: it is refused only if it may be, and what is stored still stands for the accepted calls. -/
theorem Remembers.isRateLimited (h : Remembers limit v accepted last) (hlast : last ≤ now) (key : KeyID) :
    ((v.isRateLimited key now).1 = true → Refusable limit v accepted key now) ∧
      Remembers limit (v.isRateLimited key now).2
        (if (v.isRateLimited key now).1 then accepted else accepted ++ [(key, now)]) now := by
  rcases isRateLimited_cases v key now with ⟨hnew, hlive, heq⟩ | ⟨tracked, ht, hroom, hcase⟩
  · rw [heq]
    refine ⟨fun _ => others_of_full h hlast hnew hlive, ⟨h.bounded.window, ?_⟩, h.limit,
      fun call hcall => (h.past call hcall).trans hlast, fun other later hlater => ?_⟩
    · exact (size_forget_le now v.eventTimestamps).trans h.bounded.tracked
    · exact window_tracked h hlast (.inr rfl) hlater other
  have hsize : tracked.size ≤ kMaxTrackedKeys := by
    rcases ht with rfl | rfl
    · exact h.bounded.tracked
    · exact (size_forget_le now v.eventTimestamps).trans h.bounded.tracked
  rcases hcase with ⟨hfull, heq⟩ | ⟨hfree, heq⟩
  · rw [heq]
    rw [h.limit, window_tracked h hlast ht le_rfl] at hfull
    refine ⟨fun _ => .inl ?_, ⟨h.bounded.window, size_record_le hsize hroom _⟩, h.limit,
      fun call hcall => (h.past call hcall).trans hlast, fun other later hlater => ?_⟩
    · rw [inWindow_timesOf h hlast]
      exact le_antisymm (length_inWindow_le h hlast key) hfull
    · dsimp only
      rw [if_pos (rfl : true = true), stampsOf_record]
      split_ifs with hkey
      · rw [inWindow_inWindow hlater, window_tracked h hlast ht hlater, hkey]
      · exact window_tracked h hlast ht hlater other
  · rw [heq]
    rw [h.limit, window_tracked h hlast ht le_rfl] at hfree
    refine ⟨fun hrefused => absurd hrefused Bool.false_ne_true, ⟨window_accepted h hfree, size_record_le hsize hroom _⟩, h.limit,
      fun call hcall => ?_, fun other later hlater => ?_⟩
    · rcases List.mem_append.mp hcall with hcall | hcall
      · exact (h.past call hcall).trans hlast
      · rw [List.mem_singleton.mp hcall]
    · dsimp only
      rw [if_neg Bool.false_ne_true, stampsOf_record, timesOf_append, inWindow_append]
      split_ifs with hkey hkey' hkey'
      · rw [inWindow_append, inWindow_inWindow hlater, window_tracked h hlast ht hlater, hkey]
      · exact absurd hkey.symm hkey'
      · exact absurd hkey'.symm hkey
      · rw [window_tracked h hlast ht hlater]
        exact (List.append_nil _).symm

end Step

private theorem limits_of_remembers {limit : Nat} {calls : List (KeyID × Nat)} {v : InputValidator}
    {accepted : List (KeyID × Nat)} {last : Nat} (h : Remembers limit v accepted last)
    (hlast : ∀ call ∈ calls, last ≤ call.2) (hsorted : calls.Pairwise fun a b => a.2 ≤ b.2) :
    Limits limit v accepted calls := by
  induction calls generalizing v accepted last with
  | nil => exact h.bounded
  | cons call calls ih =>
    obtain ⟨key, now⟩ := call
    obtain ⟨hlater, hsorted⟩ := List.pairwise_cons.mp hsorted
    obtain ⟨hrefused, hnext⟩ := h.isRateLimited (hlast _ List.mem_cons_self) key
    exact ⟨h.bounded, hrefused, ih hnext hlater hsorted⟩

/-- The rate limiter from a fresh validator, whatever calls come as time goes on. -/
theorem limits_fresh (max : Nat) (calls : List (KeyID × Nat)) (hsorted : calls.Pairwise fun a b => a.2 ≤ b.2) :
    Limits (({} : InputValidator).setMaxEventsPerSecond max).maxEventsPerSecond
      (({} : InputValidator).setMaxEventsPerSecond max) [] calls :=
  limits_of_remembers ⟨⟨fun _ _ => Nat.zero_le _, Nat.zero_le _⟩, rfl, fun _ h => (nomatch h), fun _ _ _ => rfl⟩
    (fun _ _ => Nat.zero_le _) hsorted

theorem limits_fresh_two :
    Limits 2 (({} : InputValidator).setMaxEventsPerSecond 2) []
      [(kKeyNone, 5), (kKeyNone, 5), (kKeyNone, 1000000005), (kKeyNone, 1000000006)] :=
  limits_fresh 2 _ (by decide)

end InputValidator
end Synergy
