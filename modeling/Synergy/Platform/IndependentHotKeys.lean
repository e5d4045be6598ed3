import Synergy.Platform.EiHotKeys
import Synergy.Platform.MSWindowsHotKeys
import Synergy.Platform.XWindowsGrabs

/-! The registrations of the screen for X over whole runs of calls. -/
namespace Synergy.HotKeys
open Synergy.Lib

namespace XWindowsScreen
variable {kb : XKeyboard} {h : Held XWindowsScreen} {key : KeyID} {mask : KeyModifierMask} {id : Nat} {a : XAnswer}

/-- The grabs of a hotkey, all of which a registration needs. -/
def itemsOf (kb : XKeyboard) (key : KeyID) (mask : KeyModifierMask) : List KeyItem :=
  match mapped kb key mask with
  | none => []
  | some modifiers => (kb.requests key mask modifiers).reduceOption

def hotKeys (kb : XKeyboard) : Screen XWindowsScreen XAnswer XKeyEvent where
  registerHotKey := registerHotKey kb
  unregisterHotKey := unregisterHotKey
  reports := onHotKey
  delivers s xkey := xkey.item ∈ s.grabs
  Matches key mask xkey := xkey.item ∈ itemsOf kb key mask ∧ xkey.type ≠ .other ∧ xkey.isRepeat = false

/-- The ids have not run out, a registration that fails has grabbed nothing that a live
one needs, and one is removed only when no other is for an event that it is for. -/
def Clear (kb : XKeyboard) (h : Held XWindowsScreen) : Call XAnswer → Prop
  | .registerHotKey key mask a => ∀ modifiers, mapped kb key mask = some modifiers →
      (h.screen.m_oldHotKeyIDs = [] → h.screen.m_hotKeys.size + 1 < 2 ^ 32) ∧
      let tried := attempt a 0 false (kb.requests key mask modifiers)
      (∀ n, tried.2 ≠ some (n, false)) → ∀ item ∈ tried.1, ∀ r ∈ h.live, item ∉ itemsOf kb r.key r.mask
  | .unregisterHotKey id _ => Apart (hotKeys kb) h id

/-- The tables hold the live registrations, and of those that share a grab the map has one. -/
structure Settled (kb : XKeyboard) (h : Held XWindowsScreen) : Prop where
  tabled : Tabled (fun r => itemsOf kb r.key r.mask) h.screen.m_hotKeys h.screen.m_oldHotKeyIDs h.live
  found : ∀ item id, h.screen.m_hotKeyToIDMap.get? item = some id →
    ∃ r ∈ h.live, r.id = id ∧ item ∈ itemsOf kb r.key r.mask
  covered : ∀ r ∈ h.live, ∀ item ∈ itemsOf kb r.key r.mask, h.screen.m_hotKeyToIDMap.get? item ≠ none
  held : ∀ r ∈ h.live, ∀ item ∈ itemsOf kb r.key r.mask, item ∈ h.screen.grabs

theorem Settled.independent (hs : Settled kb h) : Independent (hotKeys kb) h where
  distinct := hs.tabled.distinct
  works := by
    intro r hr xkey hm
    obtain ⟨id, hid⟩ := Option.ne_none_iff_exists'.mp (hs.covered r hr xkey.item hm.1)
    obtain ⟨q, hq, rfl, hitem⟩ := hs.found xkey.item id hid
    refine ⟨hs.held r hr xkey.item hm.1, q, hq, ⟨hitem, hm.2⟩, ?_⟩
    change h.screen.onHotKey xkey = some q.id
    rw [onHotKey, hid]
    dsimp only
    rw [if_neg hm.2.1, hm.2.2, if_neg Bool.false_ne_true]
  ends := by
    intro xkey id hrep
    change h.screen.onHotKey xkey = some id at hrep
    unfold onHotKey at hrep
    split at hrep
    · cases hrep
    · next id' hid =>
      by_cases hother : xkey.type = .other
      · rw [if_pos hother] at hrep
        cases hrep
      rw [if_neg hother] at hrep
      by_cases hrepeat : xkey.isRepeat = true
      · rw [if_pos hrepeat] at hrep
        cases hrep
      rw [if_neg hrepeat] at hrep
      obtain rfl := Option.some.inj hrep
      obtain ⟨r, hr, hrid, hitem⟩ := hs.found xkey.item id' hid
      exact ⟨r, hr, hrid, hitem, hother, eq_false_of_ne_true hrepeat⟩

private theorem letGo_spec (a : XAnswer) (items : List KeyItem) (toID : HotKeyToIDMap) (grabs : Finset KeyItem) :
    (∀ item, (letGo a items toID grabs).1.get? item = if item ∈ items then none else toID.get? item) ∧
      ∀ item, item ∉ items → item ∈ grabs → item ∈ (letGo a items toID grabs).2 := by
  unfold letGo
  induction items generalizing toID grabs with
  | nil => exact ⟨fun item => (if_neg List.not_mem_nil).symm, fun item _ hmem => hmem⟩
  | cons first items ih =>
    obtain ⟨hget, hgrabs⟩ := ih (toID.erase first) (if a.released first then grabs.erase first else grabs)
    constructor
    · intro item
      refine (hget item).trans ?_
      rw [SortedMap.get?_erase]
      by_cases hitem : item ∈ items
      · rw [if_pos hitem, if_pos (List.mem_cons_of_mem _ hitem)]
      · rw [if_neg hitem]
        by_cases hfirst : item = first
        · subst hfirst
          rw [if_pos rfl, if_pos List.mem_cons_self]
        · rw [if_neg fun hr => hfirst (KeyItem.rank_inj hr), if_neg fun hm => (List.mem_cons.mp hm).elim hfirst hitem]
    · intro item hitem hmem
      refine hgrabs item (fun hm => hitem (List.mem_cons_of_mem _ hm)) ?_
      split
      · exact Finset.mem_erase.mpr ⟨fun he => hitem (he ▸ List.mem_cons_self), hmem⟩
      · exact hmem

private theorem settled_unregisterHotKey (hs : Settled kb h) (a : XAnswer) (hapart : Apart (hotKeys kb) h id) :
    Settled kb (h.call (hotKeys kb) (.unregisterHotKey id a)) := by
  change Settled kb ⟨unregisterHotKey h.screen id a, h.live.filter fun r => r.id ≠ id⟩
  have hmem : ∀ r, r ∈ h.live.filter (fun r => r.id ≠ id) ↔ r ∈ h.live ∧ r.id ≠ id := fun r => by simp
  unfold unregisterHotKey
  cases hget : h.screen.m_hotKeys.get? id with
  | none =>
    rw [hs.tabled.filter_of_absent hget]
    exact hs
  | some items =>
    obtain ⟨⟨r₀, hr₀, hid₀⟩, hitems, htabled⟩ := hs.tabled.release hget
    -- no grab of the registration is one that another needs
    have hout : ∀ r ∈ h.live, r.id ≠ id → ∀ item ∈ itemsOf kb r.key r.mask, item ∉ items := by
      intro r hr hne item hitem hshared
      rw [← hitems r₀ hr₀ hid₀] at hshared
      exact hapart r₀ hr₀ hid₀ r hr hne ⟨.keyPress, item.keycode, item.mask, false⟩ ⟨hshared, by simp, rfl⟩
        ⟨hitem, by simp, rfl⟩
    obtain ⟨hlet, hgrabs⟩ := letGo_spec a items h.screen.m_hotKeyToIDMap h.screen.grabs
    refine ⟨htabled, fun item id' hfound => ?_, fun r hr item hitem => ?_, fun r hr item hitem => ?_⟩
    · rw [show _ = _ from hlet item] at hfound
      split at hfound
      · cases hfound
      · next hitem =>
        obtain ⟨r, hr, rfl, hri⟩ := hs.found item id' hfound
        exact ⟨r, (hmem r).mpr ⟨hr, fun hrk => hitem (hitems r hr hrk ▸ hri)⟩, rfl, hri⟩
    · obtain ⟨hr, hne⟩ := (hmem r).mp hr
      rw [show _ = _ from hlet item, if_neg (hout r hr hne item hitem)]
      exact hs.covered r hr item hitem
    · obtain ⟨hr, hne⟩ := (hmem r).mp hr
      exact hgrabs item (hout r hr hne item hitem) (hs.held r hr item hitem)

private theorem settled_registerHotKey (hs : Settled kb h) (hclear : Clear kb h (.registerHotKey key mask a)) :
    Settled kb (h.call (hotKeys kb) (.registerHotKey key mask a)) := by
  suffices hout : ∀ out, registerHotKey kb h.screen key mask a = out →
      Settled kb ⟨out.2, if out.1 = 0 then h.live else ⟨out.1, key, mask⟩ :: h.live⟩ from hout _ rfl
  intro out hout
  unfold registerHotKey at hout
  cases hmapped : mapped kb key mask with
  | none =>
    rw [hmapped] at hout
    subst hout
    exact hs
  | some modifiers =>
    rw [hmapped] at hout
    obtain ⟨hsize, hfail⟩ := hclear modifiers hmapped
    have hchoose := hs.tabled.choose hsize
    generalize chooseHotKeyID h.screen.m_hotKeys.size h.screen.m_oldHotKeyIDs = chosen at hchoose hout
    obtain ⟨id, old⟩ := chosen
    obtain ⟨hpos, habsent, hinsert, hback⟩ := hchoose id old rfl
    have hempty : h.screen.m_hotKeys.get? id = none := by
      rw [SortedMap.contains_eq_isSome_get?] at habsent
      exact Option.isNone_iff_eq_none.mp (by simpa using habsent)
    dsimp only at hout
    rw [hempty, Option.getD_none] at hout
    have hgrows := Grabbing.Grows.grabHotKey a id kb key mask modifiers
      { requests := 0, denied := false, err := false, hotKeys := []
        m_hotKeyToIDMap := h.screen.m_hotKeyToIDMap, grabs := h.screen.grabs }
    generalize Grabbing.grabHotKey kb a id key mask modifiers _ = g at hgrows hout
    have hrecorded : g.hotKeys = (attempt a 0 false (kb.requests key mask modifiers)).1 :=
      (hgrows.recorded rfl).trans (List.nil_append _)
    have hnamed := hgrows.named rfl
    have hgrabs : h.screen.grabs ⊆ g.grabs := hgrows.grabs
    have houtcome := hgrows.outcome rfl
    have hheld := hgrows.held rfl
    dsimp only at hnamed houtcome hheld hfail
    cases hover : g.err || g.denied with
    | true =>
      rw [if_pos hover] at hout
      subst hout
      rw [if_pos rfl]
      have hapart := hfail fun n hn => by
        cases herr : g.err with
        | true =>
          rw [herr, if_pos rfl, hn] at houtcome
          cases houtcome
        | false =>
          rw [herr, if_neg Bool.false_ne_true, hn] at houtcome
          have hdenied : false = g.denied := congrArg Prod.snd (Option.some.inj houtcome)
          rw [herr, ← hdenied] at hover
          cases hover
      rw [← hrecorded] at hapart hnamed
      obtain ⟨hlet, hlets⟩ := letGo_spec a g.hotKeys g.m_hotKeyToIDMap g.grabs
      refine ⟨hback, fun item id' hfound => ?_, fun r hr item hitem => ?_, fun r hr item hitem => ?_⟩
      · rw [show _ = _ from hlet item] at hfound
        split at hfound
        · cases hfound
        · next hout =>
          rw [hnamed, if_neg hout] at hfound
          exact hs.found item id' hfound
      · have hout : item ∉ g.hotKeys := fun hm => hapart item hm r hr hitem
        rw [show _ = _ from hlet item, if_neg hout, hnamed, if_neg hout]
        exact hs.covered r hr item hitem
      · exact hlets item (fun hm => hapart item hm r hr hitem) (hgrabs (hs.held r hr item hitem))
    | false =>
      rw [if_neg (by rw [hover]; exact Bool.false_ne_true)] at hout
      subst hout
      obtain ⟨herr, hdenied⟩ := Bool.or_eq_false_iff.mp hover
      rw [herr, if_neg Bool.false_ne_true] at houtcome
      have hitems : itemsOf kb key mask = g.hotKeys := by
        rw [hrecorded, itemsOf, hmapped]
        dsimp only
        refine (congrArg List.reduceOption (attempt_complete houtcome)).symm.trans ?_
        exact List.filterMap_map.trans List.filterMap_some
      rw [← hrecorded] at hnamed hheld
      dsimp only
      rw [if_neg hpos.ne', h.screen.m_hotKeys.put_of_absent _ habsent]
      refine ⟨?_, fun item id' hfound => ?_, fun r hr item hitem => ?_, fun r hr item hitem => ?_⟩
      · have htabled := hinsert ⟨id, key, mask⟩ rfl
        rw [hitems] at htabled
        exact htabled
      · dsimp only at hfound
        rw [hnamed] at hfound
        split at hfound
        · next hm =>
          obtain rfl := Option.some.inj hfound
          exact ⟨_, List.mem_cons_self, rfl, hitems ▸ hm⟩
        · obtain ⟨r, hr, hid⟩ := hs.found item id' hfound
          exact ⟨r, List.mem_cons_of_mem _ hr, hid⟩
      · dsimp only
        rw [hnamed]
        split
        · exact Option.some_ne_none _
        · next hm =>
          rcases List.mem_cons.mp hr with rfl | hr
          · exact absurd (hitems ▸ hitem) hm
          · exact hs.covered r hr item hitem
      · rcases List.mem_cons.mp hr with rfl | hr
        · exact hheld herr hdenied item (hitems ▸ hitem)
        · exact hgrabs (hs.held r hr item hitem)

/-- Every run of calls that meet the condition. -/
theorem always_independent (kb : XKeyboard) {tr : List (Call XAnswer × Held XWindowsScreen)}
    (hr : Trace (CallStep (hotKeys kb)) ⟨start, []⟩ tr)
    (hg : EachStep (fun h c _ => Clear kb h c) ⟨start, []⟩ tr) : Always (Independent (hotKeys kb)) tr := by
  have hsettled : Always (Settled kb) tr := by
    refine hr.always (Settled kb) ?_ ?_ hg
    · rintro h c k hs hg rfl
      cases c with
      | registerHotKey key mask answer => exact settled_registerHotKey hs hg
      | unregisterHotKey id answer => exact settled_unregisterHotKey hs answer hg
    · exact ⟨.empty, fun item id hfound => absurd hfound (Option.some_ne_none id).symm,
        fun r hr => absurd hr List.not_mem_nil, fun r hr => absurd hr List.not_mem_nil⟩
  exact fun x hx => (hsettled x hx).independent

end XWindowsScreen
end Synergy.HotKeys

/-! The hotkeys of all three screens, over every run of registrations and removals. -/
namespace Synergy.HotKeys
open Synergy.Lib

/-- With any keyboard and any answers of the system, the registrations have ids of
their own and work independently, in every run whose calls meet the conditions. -/
theorem hotkeys_independent (next_id : Nat) (table : KeyID → Option Nat) (kb : XKeyboard) :
    (∀ tr, Trace (CallStep EiScreen.hotKeys) ⟨⟨next_id, .empty⟩, []⟩ tr →
      EachStep (fun h c _ => EiScreen.Clear h c) ⟨⟨next_id, .empty⟩, []⟩ tr → Always (Independent EiScreen.hotKeys) tr) ∧
    (∀ tr, Trace (CallStep (MSWindowsScreen.hotKeys table)) ⟨.start, []⟩ tr →
      EachStep (fun h c _ => MSWindowsScreen.Clear table h c) ⟨.start, []⟩ tr →
      Always (Independent (MSWindowsScreen.hotKeys table)) tr) ∧
    (∀ tr, Trace (CallStep (XWindowsScreen.hotKeys kb)) ⟨.start, []⟩ tr →
      EachStep (fun h c _ => XWindowsScreen.Clear kb h c) ⟨.start, []⟩ tr →
      Always (Independent (XWindowsScreen.hotKeys kb)) tr) :=
  ⟨fun _ hr hg => EiScreen.always_independent next_id hr hg,
    fun _ hr hg => MSWindowsScreen.always_independent table hr hg,
    fun _ hr hg => XWindowsScreen.always_independent kb hr hg⟩

/-- Two registrations with libei get the same id. -/
theorem not_hotkeys_independent : ¬ ∀ (next_id : Nat) (table : KeyID → Option Nat) (kb : XKeyboard),
    (∀ tr, Trace (CallStep EiScreen.hotKeys) ⟨⟨next_id, .empty⟩, []⟩ tr → Always (Independent EiScreen.hotKeys) tr) ∧
    (∀ tr, Trace (CallStep (MSWindowsScreen.hotKeys table)) ⟨.start, []⟩ tr →
      Always (Independent (MSWindowsScreen.hotKeys table)) tr) ∧
    (∀ tr, Trace (CallStep (XWindowsScreen.hotKeys kb)) ⟨.start, []⟩ tr →
      Always (Independent (XWindowsScreen.hotKeys kb)) tr) := by
  intro h
  have hr := trace_runTrace (Held.call EiScreen.hotKeys) ⟨⟨0, .empty⟩, []⟩
    [.registerHotKey 97 keyModifierControl (), .registerHotKey 98 keyModifierControl ()]
  have hi := (h 0 (fun _ => none) ⟨fun _ => none, fun _ => [], fun _ => []⟩).1 _ hr _
    (List.mem_cons_of_mem _ List.mem_cons_self)
  have hids : ¬ ([1, 1] : List Nat).Nodup := by decide
  exact hids hi.distinct

/-- One hotkey after the other with libei, two at once on Windows, and one with X. -/
theorem hotkeys_independent_controls :
    Always (Independent EiScreen.hotKeys) (runTrace (Held.call EiScreen.hotKeys) ⟨⟨0, .empty⟩, []⟩
      [.registerHotKey 97 keyModifierControl (), .unregisterHotKey 1 (), .registerHotKey 98 keyModifierControl ()]) ∧
    Always (Independent (MSWindowsScreen.hotKeys some))
      (runTrace (Held.call (MSWindowsScreen.hotKeys some)) ⟨.start, []⟩
        [.registerHotKey 65 keyModifierControl true, .registerHotKey 66 keyModifierControl true,
          .unregisterHotKey 1 true]) ∧
    Always (Independent (XWindowsScreen.hotKeys ⟨fun _ => some 4, fun key => [key], fun _ => []⟩))
      (runTrace (Held.call (XWindowsScreen.hotKeys ⟨fun _ => some 4, fun key => [key], fun _ => []⟩))
        ⟨.start, []⟩
        [.registerHotKey 38 keyModifierControl ⟨fun _ => true, fun _ => true, fun _ => true⟩]) := by
  obtain ⟨hei, hms, hx⟩ := hotkeys_independent 0 some ⟨fun _ => some 4, fun key => [key], fun _ => []⟩
  refine ⟨hei _ (trace_runTrace _ _ _) ⟨.inr ⟨rfl, by decide⟩, trivial, .inr ⟨rfl, by decide⟩, trivial⟩,
    hms _ (trace_runTrace _ _ _) ⟨fun _ _ => by decide, fun _ _ => by decide, ?_, trivial⟩,
    hx _ (trace_runTrace _ _ _) ⟨?_, trivial⟩⟩
  · rintro r (_ | ⟨_, _ | ⟨_, ⟨⟩⟩⟩) hid q (_ | ⟨_, _ | ⟨_, ⟨⟩⟩⟩) hne m hm hm'
    · exact absurd hid (by decide)
    · exact absurd hid (by decide)
    · exact absurd (hm.1.symm.trans hm'.1) (by decide)
    · exact absurd rfl hne
  · rintro modifiers hmapped
    refine ⟨fun _ => by decide, fun hfail item hitem r hr => absurd hr List.not_mem_nil⟩

end Synergy.HotKeys
