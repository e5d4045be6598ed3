import Synergy.Lib.SortedMap
import Synergy.Platform.HotKeys

/-! The hotkeys of the screen for libei. Its ids come from a counter that all screens
of the process share, and `std::min` keeps them at one. -/
namespace Synergy.HotKeys
open Synergy.Lib

structure HotKeyItem where
  mask : KeyModifierMask
  id : Nat
  deriving DecidableEq

/-- The items for one key, in the order they were added. -/
abbrev HotKeySet := List HotKeyItem

namespace HotKeySet

def removeById (s : HotKeySet) (id : Nat) : Option HotKeySet :=
  if s.any fun item => item.id = id then some (s.eraseP fun item => item.id = id) else none

def findByMask (s : HotKeySet) (mask : KeyModifierMask) : Nat :=
  match s.find? fun item => item.mask = mask with
  | some item => item.id
  | none => 0

end HotKeySet

structure EiScreen where
  next_id : Nat
  m_hotkeys : SortedMap (fun key : KeyID => key) HotKeySet

namespace EiScreen

def registerHotKey (s : EiScreen) (key : KeyID) (mask : KeyModifierMask) : Nat × EiScreen :=
  let next_id := (s.next_id + 1) % 2 ^ 32
  let id := min next_id 1
  let hotkeys := s.m_hotkeys.insert key []
  (id, ⟨next_id, hotkeys.mapValues fun k set => if k = key then set ++ [⟨mask, id⟩] else set⟩)

/-- Go through the sets until one has the id. -/
def removeFirst (id : Nat) : List (KeyID × HotKeySet) → Option KeyID
  | [] => none
  | (key, set) :: rest => if (set.removeById id).isSome then some key else removeFirst id rest

def unregisterHotKey (s : EiScreen) (id : Nat) : EiScreen :=
  match removeFirst id s.m_hotkeys.entries with
  | none => s
  | some key =>
    { s with m_hotkeys := s.m_hotkeys.mapValues fun k set => if k = key then (set.removeById id).getD set else set }

structure KeyPress where
  keyid : KeyID
  isPressed : Bool
  mask : KeyModifierMask

/-- The id of the hotkey event that is sent, if any. -/
def onHotkey (s : EiScreen) (press : KeyPress) : Option Nat :=
  match s.m_hotkeys.get? press.keyid with
  | none => none
  | some set =>
    let id := set.findByMask press.mask
    if id ≠ 0 then some id else none

def hotKeys : Screen EiScreen Unit KeyPress where
  registerHotKey s key mask _ := s.registerHotKey key mask
  unregisterHotKey s id _ := s.unregisterHotKey id
  reports := onHotkey
  delivers _ _ := True
  Matches key mask press := press.keyid = key ∧ press.mask = mask

/-- The items that are stored for a key. -/
def items (s : EiScreen) (key : KeyID) : HotKeySet := (s.m_hotkeys.get? key).getD []

/-- Nothing is registered while another registration is live, except when the
counter wraps and the registration fails; nor for a key and mask for which such a
failure has left an item behind. -/
def Clear (h : Held EiScreen) : Call Unit → Prop
  | .registerHotKey key mask _ =>
    (h.screen.next_id + 1) % 2 ^ 32 = 0 ∨ h.live = [] ∧ ∀ item ∈ h.screen.items key, item.mask ≠ mask
  | .unregisterHotKey _ _ => True

/-- At most one item has the id one, and it is the one found for its mask. -/
def Stored (s : EiScreen) : List Registration → Prop
  | [] => ∀ key, ∀ item ∈ s.items key, item.id = 0
  | [r] =>
    r.id = 1 ∧ (s.items r.key).find? (fun item => item.mask = r.mask) = some ⟨r.mask, 1⟩ ∧
      (s.items r.key).filter (fun item => item.id ≠ 0) = [⟨r.mask, 1⟩] ∧
      ∀ key, key ≠ r.key → ∀ item ∈ s.items key, item.id = 0
  | _ :: _ :: _ => False

variable {s : EiScreen} {key : KeyID} {mask : KeyModifierMask} {id : Nat}

theorem onHotkey_eq (s : EiScreen) (press : KeyPress) : s.onHotkey press =
    match (s.items press.keyid).find? fun item => item.mask = press.mask with
    | none => none
    | some item => if item.id ≠ 0 then some item.id else none := by
  unfold onHotkey items HotKeySet.findByMask
  cases s.m_hotkeys.get? press.keyid with
  | none => rfl
  | some set =>
    dsimp only [Option.getD_some]
    cases set.find? fun item => item.mask = press.mask with
    | none => rfl
    | some item => rfl

private theorem items_registerHotKey (s : EiScreen) (mask : KeyModifierMask) (key k : KeyID) :
    (s.registerHotKey key mask).2.items k =
      if k = key then s.items key ++ [⟨mask, (s.registerHotKey key mask).1⟩] else s.items k := by
  unfold registerHotKey items
  dsimp only
  rw [SortedMap.get?_mapValues, SortedMap.find?_insert]
  cases hf : s.m_hotkeys.find? k with
  | none =>
    by_cases hk : k = key
    · subst hk
      simp [SortedMap.get?, SortedMap.contains, hf]
    · simp [SortedMap.get?, hf, hk, Ne.symm hk]
  | some e =>
    have he : e.1 = k := ((s.m_hotkeys.find?_eq_some_iff k e).mp hf).2
    by_cases hk : k = key
    · subst hk
      simp [SortedMap.get?, SortedMap.contains, hf, he]
    · simp [SortedMap.get?, hf, he, hk, Ne.symm hk]

private theorem removeFirst_some {entries : List (KeyID × HotKeySet)} (h : removeFirst id entries = some key) :
    ∃ set, (key, set) ∈ entries ∧ ∃ item ∈ set, item.id = id := by
  induction entries with
  | nil => cases h
  | cons e entries ih =>
    obtain ⟨k, set⟩ := e
    rw [removeFirst] at h
    split at h
    · next hsome =>
      obtain rfl := Option.some.inj h
      refine ⟨set, List.mem_cons_self, ?_⟩
      unfold HotKeySet.removeById at hsome
      split at hsome
      · next hany => simpa using hany
      · cases hsome
    · obtain ⟨set', hmem, hitem⟩ := ih h
      exact ⟨set', List.mem_cons_of_mem _ hmem, hitem⟩

private theorem removeFirst_none {entries : List (KeyID × HotKeySet)} (h : removeFirst id entries = none) :
    ∀ e ∈ entries, ∀ item ∈ e.2, item.id ≠ id := by
  induction entries with
  | nil => exact fun e he => absurd he List.not_mem_nil
  | cons e entries ih =>
    obtain ⟨k, set⟩ := e
    rw [removeFirst] at h
    split at h
    · cases h
    · next hnone =>
      rintro e' (_ | ⟨_, he'⟩) item hitem hid
      · refine hnone ?_
        rw [HotKeySet.removeById, if_pos (List.any_eq_true.mpr ⟨item, hitem, by simpa using hid⟩)]
        rfl
      · exact ih h e' he' item hitem hid

/-- At most one set loses its first item with the id. -/
private theorem items_unregisterHotKey (s : EiScreen) (id : Nat) :
    (s.unregisterHotKey id = s ∧ ∀ k, ∀ item ∈ s.items k, item.id ≠ id) ∨
      ∃ key, (∃ item ∈ s.items key, item.id = id) ∧
        ∀ k, (s.unregisterHotKey id).items k =
          if k = key then (s.items key).eraseP (fun item => item.id = id) else s.items k := by
  unfold unregisterHotKey
  cases hr : removeFirst id s.m_hotkeys.entries with
  | none =>
    refine .inl ⟨rfl, fun k item hitem hid => ?_⟩
    unfold items at hitem
    cases hg : s.m_hotkeys.get? k with
    | none =>
      rw [hg] at hitem
      cases hitem
    | some set =>
      rw [hg] at hitem
      obtain ⟨e, he, rfl⟩ := Option.map_eq_some_iff.mp hg
      exact removeFirst_none hr e ((s.m_hotkeys.find?_eq_some_iff k e).mp he).1 item hitem hid
  | some key =>
    obtain ⟨set, hmem, item, hitem, hid⟩ := removeFirst_some hr
    have hset : s.items key = set := congrArg (·.getD []) (s.m_hotkeys.get?_of_mem hmem)
    refine .inr ⟨key, ⟨item, hset ▸ hitem, hid⟩, fun k => ?_⟩
    have hremove : (set.removeById id).getD set = set.eraseP fun item => item.id = id := by
      rw [HotKeySet.removeById, if_pos (List.any_eq_true.mpr ⟨item, hitem, by simpa using hid⟩)]
      rfl
    rw [hset]
    unfold items
    dsimp only
    rw [SortedMap.get?_mapValues]
    by_cases hk : k = key
    · subst hk
      have hf : s.m_hotkeys.find? k = some (k, set) := (s.m_hotkeys.find?_eq_some_iff k _).mpr ⟨hmem, rfl⟩
      simp [hf, hremove]
    · cases hf : s.m_hotkeys.find? k with
      | none => simp [SortedMap.get?, hf, hk]
      | some e =>
        have he : e.1 = k := ((s.m_hotkeys.find?_eq_some_iff k e).mp hf).2
        simp [SortedMap.get?, hf, he, hk]

theorem independent_of_stored {h : Held EiScreen} (hs : Stored h.screen h.live) : Independent hotKeys h := by
  obtain ⟨s, live⟩ := h
  match live, hs with
  | [], hs =>
    refine ⟨List.nodup_nil, fun r hr => absurd hr List.not_mem_nil, fun press id hrep => ?_⟩
    change s.onHotkey press = some id at hrep
    rw [onHotkey_eq] at hrep
    split at hrep
    · cases hrep
    · next item hf =>
      rw [if_neg (not_not.mpr (hs press.keyid item (List.mem_of_find?_eq_some hf)))] at hrep
      cases hrep
  | [r], hs =>
    obtain ⟨hid, hfind, hfilter, hother⟩ := hs
    refine ⟨List.nodup_cons.mpr ⟨List.not_mem_nil, List.nodup_nil⟩, fun q hq press hpress => ⟨trivial, q, hq, hpress, ?_⟩, fun press id hrep => ?_⟩
    · obtain rfl := List.mem_singleton.mp hq
      change s.onHotkey press = some q.id
      rw [onHotkey_eq, hpress.1, hpress.2, hfind, hid]
      rfl
    · change s.onHotkey press = some id at hrep
      rw [onHotkey_eq] at hrep
      split at hrep
      · cases hrep
      · next item hf =>
        split at hrep
        · next hne =>
          have hmem := List.mem_of_find?_eq_some hf
          have hkey : press.keyid = r.key := by
            by_contra hk
            exact hne (hother _ hk item hmem)
          rw [hkey] at hmem
          have hitem : item ∈ [(⟨r.mask, 1⟩ : HotKeyItem)] := by
            rw [← hfilter]
            exact List.mem_filter.mpr ⟨hmem, by simpa using hne⟩
          obtain rfl := List.mem_singleton.mp hitem
          refine ⟨r, List.mem_cons_self, hid.trans (Option.some.inj hrep), hkey, ?_⟩
          have hmask : r.mask = press.mask := by simpa using List.find?_some hf
          exact hmask.symm
        · cases hrep

private theorem find?_eraseP {l : HotKeySet} {p q : HotKeyItem → Bool} {item : HotKeyItem} (h : l.find? q = some item)
    (hp : p item = false) : (l.eraseP p).find? q = some item := by
  induction l with
  | nil => cases h
  | cons first l ih =>
    rw [List.find?_cons] at h
    cases hq : q first with
    | true =>
      rw [hq] at h
      obtain rfl := Option.some.inj h
      rw [List.eraseP_cons_of_neg (by simp [hp]), List.find?_cons, hq]
    | false =>
      rw [hq] at h
      cases hpf : p first with
      | true => rw [List.eraseP_cons_of_pos hpf]; exact h
      | false => rw [List.eraseP_cons_of_neg (by simp [hpf]), List.find?_cons, hq]; exact ih h

private theorem filter_eraseP {l : HotKeySet} {p q : HotKeyItem → Bool} (h : ∀ item, p item = true → q item = false) :
    (l.eraseP p).filter q = l.filter q := by
  induction l with
  | nil => rfl
  | cons first l ih =>
    cases hp : p first with
    | true => rw [List.eraseP_cons_of_pos hp, List.filter_cons_of_neg (by simp [h _ hp])]
    | false =>
      rw [List.eraseP_cons_of_neg (by simp [hp]), List.filter_cons, List.filter_cons, ih]

private theorem stored_registerHotKey {live : List Registration} (hs : Stored s live)
    (hclear : (s.next_id + 1) % 2 ^ 32 = 0 ∨ live = [] ∧ ∀ item ∈ s.items key, item.mask ≠ mask) :
    let (id, t) := s.registerHotKey key mask
    Stored t (if id = 0 then live else ⟨id, key, mask⟩ :: live) := by
  have hitems := items_registerHotKey s mask key
  have hid : (s.registerHotKey key mask).1 = min ((s.next_id + 1) % 2 ^ 32) 1 := rfl
  generalize s.registerHotKey key mask = out at hitems hid ⊢
  obtain ⟨id, t⟩ := out
  dsimp only at hitems hid ⊢
  by_cases hz : (s.next_id + 1) % 2 ^ 32 = 0
  · obtain rfl : id = 0 := by rw [hid, hz]; rfl
    rw [if_pos rfl]
    match live, hs with
    | [], hs =>
      intro k item hitem
      rw [hitems k] at hitem
      split at hitem
      · rcases List.mem_append.mp hitem with h | h
        · exact hs _ item h
        · rw [List.mem_singleton.mp h]
      · exact hs k item hitem
    | [r], hs =>
      obtain ⟨hrid, hfind, hfilter, hother⟩ := hs
      refine ⟨hrid, ?_, ?_, fun k hk item hitem => ?_⟩
      · rw [hitems]
        split
        · next hk => rw [← hk, List.find?_append, hfind]; rfl
        · exact hfind
      · rw [hitems]
        split
        · next hk => rw [← hk, List.filter_append, hfilter]; rfl
        · exact hfilter
      · rw [hitems] at hitem
        split at hitem
        · next hkk =>
          rcases List.mem_append.mp hitem with h | h
          · exact hother _ (hkk ▸ hk) item h
          · rw [List.mem_singleton.mp h]
        · exact hother k hk item hitem
  · obtain rfl : id = 1 := by rw [hid]; omega
    obtain ⟨rfl, hmask⟩ := hclear.resolve_left hz
    rw [if_neg Nat.one_ne_zero]
    have hnone : (s.items key).find? (fun item => item.mask = mask) = none :=
      List.find?_eq_none.mpr fun item hitem => by simpa using hmask item hitem
    have hzero : (s.items key).filter (fun item => item.id ≠ 0) = [] :=
      List.filter_eq_nil_iff.mpr fun item hitem => by simpa using hs key item hitem
    refine ⟨rfl, ?_, ?_, fun k hk item hitem => ?_⟩
    · rw [hitems, if_pos rfl, List.find?_append, hnone]
      simp
    · rw [hitems, if_pos rfl, List.filter_append, hzero]
      simp
    · rw [hitems, if_neg hk] at hitem
      exact hs k item hitem

private theorem stored_unregisterHotKey {live : List Registration} (hs : Stored s live) (id : Nat) :
    Stored (s.unregisterHotKey id) (live.filter fun r => r.id ≠ id) := by
  match live, hs with
  | [], hs =>
    intro k item hitem
    rcases items_unregisterHotKey s id with ⟨hsame, -⟩ | ⟨key, -, hitems⟩
    · rw [hsame] at hitem
      exact hs k item hitem
    · rw [hitems] at hitem
      split at hitem
      · exact hs _ item (List.mem_of_mem_eraseP hitem)
      · exact hs k item hitem
  | [r], hs =>
    obtain ⟨hrid, hfind, hfilter, hother⟩ := hs
    have hone : (⟨r.mask, 1⟩ : HotKeyItem) ∈ s.items r.key := List.mem_of_find?_eq_some hfind
    by_cases hid : id = 1
    · subst hid
      rw [List.filter_cons_of_neg (by simp [hrid]), List.filter_nil]
      rcases items_unregisterHotKey s 1 with ⟨-, hnone⟩ | ⟨key, ⟨item, hitem, hid⟩, hitems⟩
      · exact absurd rfl (hnone r.key _ hone)
      · have hkey : key = r.key := by
          by_contra hk
          rw [hother key hk item hitem] at hid
          cases hid
        intro k item hitem
        rw [hitems] at hitem
        split at hitem
        · subst hkey
          have hnil : ((s.items r.key).eraseP fun item => item.id = 1).filter (fun item => item.id ≠ 0) = [] := by
            have hsame : (fun item : HotKeyItem => decide (item.id = 1) && decide (item.id ≠ 0)) =
                fun item => decide (item.id = 1) := by
              funext item
              by_cases hi : item.id = 1 <;> simp [hi]
            rw [← hsame, ← List.eraseP_filter, hfilter]
            rfl
          have := List.filter_eq_nil_iff.mp hnil item hitem
          simpa using this
        · next hk => exact hother k (hkey ▸ hk) item hitem
    · rw [List.filter_cons_of_pos (by simpa [hrid] using Ne.symm hid), List.filter_nil]
      rcases items_unregisterHotKey s id with ⟨hsame, -⟩ | ⟨key, ⟨item, hitem, hitemid⟩, hitems⟩
      · rw [hsame]
        exact ⟨hrid, hfind, hfilter, hother⟩
      · -- only a leftover of a failed registration can have such an id
        have hzero : id = 0 := by
          by_contra hne
          by_cases hk : key = r.key
          · subst hk
            have hmem : item ∈ [(⟨r.mask, 1⟩ : HotKeyItem)] := by
              rw [← hfilter]
              exact List.mem_filter.mpr ⟨hitem, by simpa [hitemid] using hne⟩
            rw [List.mem_singleton.mp hmem] at hitemid
            exact hid hitemid.symm
          · exact hne (hitemid.symm.trans (hother key hk item hitem))
        subst hzero
        refine ⟨hrid, ?_, ?_, fun k hk item hitem => ?_⟩
        · rw [hitems]
          split
          · next hk => exact find?_eraseP (hk ▸ hfind) rfl
          · exact hfind
        · rw [hitems]
          split
          · next hk =>
            rw [filter_eraseP (by simp), ← hk]
            exact hfilter
          · exact hfilter
        · rw [hitems] at hitem
          split at hitem
          · next hkk => exact hother _ (hkk ▸ hk) item (List.mem_of_mem_eraseP hitem)
          · exact hother k hk item hitem

/-- Every run of calls that meet the condition. -/
theorem always_independent (next_id : Nat) {tr : List (Call Unit × Held EiScreen)}
    (hr : Trace (CallStep hotKeys) ⟨⟨next_id, .empty⟩, []⟩ tr)
    (hg : EachStep (fun h c _ => Clear h c) ⟨⟨next_id, .empty⟩, []⟩ tr) : Always (Independent hotKeys) tr := by
  have hstored : Always (fun h : Held EiScreen => Stored h.screen h.live) tr := by
    refine hr.always (fun h => Stored h.screen h.live) ?_ ?_ hg
    · rintro h c k hs hg rfl
      cases c with
      | registerHotKey key mask answer => exact stored_registerHotKey hs hg
      | unregisterHotKey id answer => exact stored_unregisterHotKey hs id
    · exact fun key item hitem => absurd hitem List.not_mem_nil
  exact fun x hx => independent_of_stored (hstored x hx)

end EiScreen
end Synergy.HotKeys
