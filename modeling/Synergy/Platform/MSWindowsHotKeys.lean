import Synergy.Platform.HotKeys

/-! The hotkeys of the screen for Windows. A map from virtual key and modifiers to id
is shared by all registrations. -/
namespace Synergy.HotKeys
open Synergy.Lib

namespace MSWindows

def MOD_ALT : BitVec 32 := 0x0001
def MOD_CONTROL : BitVec 32 := 0x0002
def MOD_SHIFT : BitVec 32 := 0x0004
def MOD_WIN : BitVec 32 := 0x0008

def toModifiers (mask : KeyModifierMask) : BitVec 32 :=
  (if mask &&& keyModifierShift ≠ 0 then MOD_SHIFT else 0) |||
  (if mask &&& keyModifierControl ≠ 0 then MOD_CONTROL else 0) |||
  (if mask &&& keyModifierAlt ≠ 0 then MOD_ALT else 0) |||
  (if mask &&& keyModifierSuper ≠ 0 then MOD_WIN else 0)

/-- The keyboard table is a map from keys to virtual keys. -/
def mapKeyToVirtualKey (table : KeyID → Option Nat) (key : KeyID) : Nat :=
  if key = kKeyNone then 0 else (table key).getD 0

end MSWindows
open MSWindows

structure MSWindowsScreen where
  m_hotKeys : SortedMap (fun id : Nat => id) KeyItem
  /-- The returned ids; the head is the back of the vector. -/
  m_oldHotKeyIDs : List Nat
  m_hotKeyToIDMap : HotKeyToIDMap
  /-- What `RegisterHotKey` has registered with the system. -/
  system : List (Nat × KeyItem)

namespace MSWindowsScreen

def start : MSWindowsScreen := ⟨.empty, [], .empty, []⟩

/-- The key or the modifiers cannot be a hotkey, or cannot be mapped. -/
def Unmapped (table : KeyID → Option Nat) (key : KeyID) (mask : KeyModifierMask) : Prop :=
  mask &&& ~~~hotKeyModifiers ≠ 0 ∨ key = kKeyNone ∧ mask = 0 ∨ key ≠ kKeyNone ∧ mapKeyToVirtualKey table key = 0

instance (table : KeyID → Option Nat) (key : KeyID) (mask : KeyModifierMask) : Decidable (Unmapped table key mask) :=
  inferInstanceAs (Decidable (_ ∨ _ ∨ _))

/-- `done` says whether `RegisterHotKey` succeeds. -/
def registerHotKey (table : KeyID → Option Nat) (s : MSWindowsScreen) (key : KeyID) (mask : KeyModifierMask)
    (done : Bool) : Nat × MSWindowsScreen :=
  if Unmapped table key mask then (0, s)
  else
    let modifiers := toModifiers mask
    let vk := mapKeyToVirtualKey table key
    let (id, old) := chooseHotKeyID s.m_hotKeys.size s.m_oldHotKeyIDs
    let err := if key = kKeyNone then s.m_hotKeyToIDMap.contains ⟨vk, modifiers⟩ else !done
    if err = false then
      (id, { m_hotKeys := s.m_hotKeys.insert id ⟨vk, modifiers⟩
             m_oldHotKeyIDs := old
             m_hotKeyToIDMap := s.m_hotKeyToIDMap.put ⟨vk, modifiers⟩ id
             system := if key = kKeyNone then s.system else (id, ⟨vk, modifiers⟩) :: s.system })
    else (0, { s with m_hotKeys := s.m_hotKeys.erase id, m_oldHotKeyIDs := id :: old })

/-- `done` says whether `UnregisterHotKey` succeeds. -/
def unregisterHotKey (s : MSWindowsScreen) (id : Nat) (done : Bool) : MSWindowsScreen :=
  match s.m_hotKeys.get? id with
  | none => s
  | some item =>
    { m_hotKeys := s.m_hotKeys.erase id
      m_oldHotKeyIDs := id :: s.m_oldHotKeyIDs
      m_hotKeyToIDMap := s.m_hotKeyToIDMap.erase item
      system := if item.keycode ≠ 0 ∧ done then s.system.filter fun r => r.1 ≠ id else s.system }

/-- A key message of the hook, with the modifiers that are active. -/
structure KeyMessage where
  wParam : BitVec 64
  lParam : BitVec 64
  state : KeyModifierMask

namespace KeyMessage

def virtKey (m : KeyMessage) : Nat := ((m.wParam >>> 16) &&& 0xff).toNat

def item (m : KeyMessage) : KeyItem := ⟨m.virtKey, toModifiers m.state⟩

/-- A key that is held down repeats, which counts as a hotkey but is not sent. -/
def IsRepeat (m : KeyMessage) : Prop := m.lParam &&& 0x80000000 = 0 ∧ m.lParam &&& 0x40000000 ≠ 0

instance (m : KeyMessage) : Decidable m.IsRepeat := inferInstanceAs (Decidable (_ ∧ _))

end KeyMessage

/-- The id of the hotkey event that is added, if any. -/
def onHotKey (s : MSWindowsScreen) (m : KeyMessage) : Option Nat :=
  match s.m_hotKeyToIDMap.get? m.item with
  | none => none
  | some id => if m.IsRepeat then none else some id

def hotKeys (table : KeyID → Option Nat) : Screen MSWindowsScreen Bool KeyMessage where
  registerHotKey := registerHotKey table
  unregisterHotKey := unregisterHotKey
  reports := onHotKey
  delivers s m := m.virtKey = 0 ∨ ∃ id, (id, m.item) ∈ s.system
  Matches key mask m := m.item = ⟨mapKeyToVirtualKey table key, toModifiers mask⟩ ∧ ¬ m.IsRepeat

/-- The ids have not run out, and a registration is removed only when no other one is
for an event that it is for. -/
def Clear (table : KeyID → Option Nat) (h : Held MSWindowsScreen) : Call Bool → Prop
  | .registerHotKey key mask _ => ¬ Unmapped table key mask → h.screen.m_oldHotKeyIDs = [] →
      h.screen.m_hotKeys.size + 1 < 2 ^ 32
  | .unregisterHotKey id _ => Apart (hotKeys table) h id

variable {table : KeyID → Option Nat} {h : Held MSWindowsScreen} {key : KeyID} {mask : KeyModifierMask} {id : Nat}

/-- The virtual key and the modifiers of a registration. -/
def itemOf (table : KeyID → Option Nat) (r : Registration) : KeyItem :=
  ⟨mapKeyToVirtualKey table r.key, toModifiers r.mask⟩

/-- The tables hold the live registrations, and of those for one event the map has one. -/
structure Settled (table : KeyID → Option Nat) (h : Held MSWindowsScreen) : Prop where
  tabled : Tabled (itemOf table) h.screen.m_hotKeys h.screen.m_oldHotKeyIDs h.live
  found : ∀ item id, h.screen.m_hotKeyToIDMap.get? item = some id → ∃ r ∈ h.live, r.id = id ∧ itemOf table r = item
  covered : ∀ r ∈ h.live, ∀ m, (hotKeys table).Matches r.key r.mask m → h.screen.m_hotKeyToIDMap.get? m.item ≠ none
  system : ∀ r ∈ h.live, (itemOf table r).keycode ≠ 0 → (r.id, itemOf table r) ∈ h.screen.system

theorem Settled.independent (hs : Settled table h) : Independent (hotKeys table) h where
  distinct := hs.tabled.distinct
  works := by
    intro r hr m hm
    obtain ⟨id, hid⟩ := Option.ne_none_iff_exists'.mp (hs.covered r hr m hm)
    obtain ⟨q, hq, rfl, hitem⟩ := hs.found m.item id hid
    refine ⟨?_, q, hq, ⟨hitem.symm, hm.2⟩, ?_⟩
    · by_cases hv : m.virtKey = 0
      · exact .inl hv
      · refine .inr ⟨q.id, ?_⟩
        rw [← hitem]
        refine hs.system q hq ?_
        rw [hitem]
        exact hv
    · change h.screen.onHotKey m = some q.id
      rw [onHotKey, hid]
      exact if_neg hm.2
  ends := by
    intro m id hrep
    change h.screen.onHotKey m = some id at hrep
    unfold onHotKey at hrep
    split at hrep
    · cases hrep
    · next id' hid =>
      split at hrep
      · cases hrep
      · next hfresh =>
        obtain rfl := Option.some.inj hrep
        obtain ⟨r, hr, hrid, hitem⟩ := hs.found m.item id' hid
        exact ⟨r, hr, hrid, hitem.symm, hfresh⟩

private theorem settled_registerHotKey (hs : Settled table h) (done : Bool)
    (hclear : ¬ Unmapped table key mask → h.screen.m_oldHotKeyIDs = [] → h.screen.m_hotKeys.size + 1 < 2 ^ 32) :
    Settled table (h.call (hotKeys table) (.registerHotKey key mask done)) := by
  suffices hout : ∀ out, registerHotKey table h.screen key mask done = out →
      Settled table ⟨out.2, if out.1 = 0 then h.live else ⟨out.1, key, mask⟩ :: h.live⟩ from hout _ rfl
  intro out hout
  unfold registerHotKey at hout
  split at hout
  · subst hout
    exact hs
  next hmapped =>
  have hchoose := hs.tabled.choose (hclear hmapped)
  generalize chooseHotKeyID h.screen.m_hotKeys.size h.screen.m_oldHotKeyIDs = chosen at hchoose hout
  obtain ⟨id, old⟩ := chosen
  obtain ⟨hpos, habsent, hinsert, hback⟩ := hchoose id old rfl
  dsimp only at hout
  generalize (if key = kKeyNone then h.screen.m_hotKeyToIDMap.contains _ else !done) = err at hout
  cases err with
  | false =>
    rw [if_pos rfl] at hout
    subst hout
    dsimp only
    rw [if_neg hpos.ne']
    have hput := h.screen.m_hotKeyToIDMap.get?_put
    refine ⟨hinsert ⟨id, key, mask⟩ rfl, fun item id' hget => ?_, fun r hr m hm => ?_, fun r hr hk => ?_⟩
    · dsimp only at hget
      rw [hput] at hget
      split at hget
      · next hrank =>
        obtain rfl := Option.some.inj hget
        exact ⟨_, List.mem_cons_self, rfl, KeyItem.rank_inj hrank⟩
      · obtain ⟨r, hr, hid⟩ := hs.found item id' hget
        exact ⟨r, List.mem_cons_of_mem _ hr, hid⟩
    · dsimp only
      rw [hput]
      split
      · exact Option.some_ne_none _
      · next hrank =>
        rcases List.mem_cons.mp hr with rfl | hr
        · exact absurd (by rw [hm.1]) hrank
        · exact hs.covered r hr m hm
    · dsimp only
      rcases List.mem_cons.mp hr with rfl | hr
      · split
        · next hnone => exact absurd (if_pos hnone) hk
        · exact List.mem_cons_self
      · split
        · exact hs.system r hr hk
        · exact List.mem_cons_of_mem _ (hs.system r hr hk)
  | true =>
    rw [if_neg Bool.true_eq_false.mp] at hout
    subst hout
    rw [if_pos rfl]
    exact ⟨hback, hs.found, hs.covered, hs.system⟩

private theorem settled_unregisterHotKey (hs : Settled table h) (done : Bool) (hapart : Apart (hotKeys table) h id) :
    Settled table (h.call (hotKeys table) (.unregisterHotKey id done)) := by
  change Settled table ⟨unregisterHotKey h.screen id done, h.live.filter fun r => r.id ≠ id⟩
  have hmem : ∀ r, r ∈ h.live.filter (fun r => r.id ≠ id) ↔ r ∈ h.live ∧ r.id ≠ id := fun r => by simp
  unfold unregisterHotKey
  cases hget : h.screen.m_hotKeys.get? id with
  | none =>
    rw [hs.tabled.filter_of_absent hget]
    exact hs
  | some item =>
    obtain ⟨⟨r₀, hr₀, hid₀⟩, hitem, htabled⟩ := hs.tabled.release hget
    refine ⟨htabled, fun item' id' hfound => ?_, fun r hr m hm => ?_, fun r hr hk => ?_⟩
    · dsimp only at hfound
      rw [SortedMap.get?_erase] at hfound
      split at hfound
      · cases hfound
      · next hrank =>
        obtain ⟨r, hr, rfl, rfl⟩ := hs.found item' id' hfound
        refine ⟨r, (hmem r).mpr ⟨hr, fun hrk => hrank ?_⟩, rfl, rfl⟩
        rw [hitem r hr hrk]
    · obtain ⟨hr, hne⟩ := (hmem r).mp hr
      dsimp only
      rw [SortedMap.get?_erase, if_neg]
      · exact hs.covered r hr m hm
      · intro hrank
        refine hapart r₀ hr₀ hid₀ r hr hne m ⟨?_, hm.2⟩ hm
        exact (KeyItem.rank_inj hrank).trans (hitem r₀ hr₀ hid₀).symm
    · obtain ⟨hr, hne⟩ := (hmem r).mp hr
      dsimp only
      split
      · exact List.mem_filter.mpr ⟨hs.system r hr hk, by simpa using hne⟩
      · exact hs.system r hr hk

/-- Every run of calls that meet the condition. -/
theorem always_independent (table : KeyID → Option Nat) {tr : List (Call Bool × Held MSWindowsScreen)}
    (hr : Trace (CallStep (hotKeys table)) ⟨start, []⟩ tr)
    (hg : EachStep (fun h c _ => Clear table h c) ⟨start, []⟩ tr) : Always (Independent (hotKeys table)) tr := by
  have hsettled : Always (Settled table) tr := by
    refine hr.always (Settled table) ?_ ?_ hg
    · rintro h c k hs hg rfl
      cases c with
      | registerHotKey key mask answer => exact settled_registerHotKey hs answer hg
      | unregisterHotKey id answer => exact settled_unregisterHotKey hs answer hg
    · exact ⟨.empty, fun item id hfound => absurd hfound (Option.some_ne_none id).symm,
        fun r hr => absurd hr List.not_mem_nil, fun r hr => absurd hr List.not_mem_nil⟩
  exact fun x hx => (hsettled x hx).independent

end MSWindowsScreen
end Synergy.HotKeys
