import Synergy.Lib.Trace
import Synergy.Server.Config

/-! Whether the table of names and the screens agree, and whether links follow a
renamed screen. Names are looked up without regard to case but some comparisons
are exact, so the answer depends on how the arguments are spelled. -/
namespace Synergy
open Synergy.Lib

/-- The manipulators of screens and names; `connect` is there to make links. -/
inductive ConfigOp where
  | addScreen (name : Str)
  | renameScreen (oldName newName : Str)
  | removeScreen (name : Str)
  | addAlias (canonical aliasName : Str)
  | removeAlias (aliasName : Str)
  | removeAliases (canonical : Str)
  | removeAllAliases
  | connect (srcName : Str) (srcSide : Direction) (src : Interval) (dstName : Str) (dst : Interval)

namespace ConfigOp

/-- A manipulator that fails leaves the configuration as it is. -/
def apply (c : Config) : ConfigOp → Config
  | addScreen name => (c.addScreen name).getD c
  | renameScreen oldName newName => (c.renameScreen oldName newName).getD c
  | removeScreen name => c.removeScreen name
  | addAlias canonical aliasName => (c.addAlias canonical aliasName).getD c
  | removeAlias aliasName => (c.removeAlias aliasName).getD c
  | removeAliases canonical => (c.removeAliases canonical).getD c
  | removeAllAliases => c.removeAllAliases
  | connect srcName srcSide src dstName dst => (c.connect srcName srcSide src dstName dst).getD c

def step (c : Config) (op : ConfigOp) (t : Config) : Prop := t = apply c op

end ConfigOp

namespace Config

/-- Every screen is its own canonical name and every canonical name is a screen. -/
structure NamesConsistent (c : Config) : Prop where
  canonical : ∀ k ∈ c.map.keys, ∃ v, c.nameToCanonicalName.get? k = some v ∧ CaselessCmp.equal v k = true
  known : ∀ e ∈ c.nameToCanonicalName.entries, c.map.contains e.2 = true

/-- The link at `edge` of screen `src` leads to the screen listed as `dst`. -/
def LeadsTo (c : Config) (src : Str) (edge : CellEdge) (dst : Str) : Prop :=
  ∃ cell target, c.map.get? src = some cell ∧ (edge, target) ∈ cell.neighbors.entries ∧
    (c.map.find? (c.getCanonicalName target.name)).map Prod.fst = some dst

/-- A renamed screen keeps the links that led to it, under its new name. An empty
name is how `getNeighbor` reports the absence of a neighbor, so nothing leads to it. -/
def RenameFollows (s : Config) (op : ConfigOp) (t : Config) : Prop :=
  match op with
  | .renameScreen oldName newName =>
    (s.renameScreen oldName newName).isSome = true → ∀ name, name ≠ [] →
      (s.map.find? (s.getCanonicalName oldName)).map Prod.fst = some name → ∀ src edge, s.LeadsTo src edge name →
        t.LeadsTo (if CaselessCmp.equal src name then newName else src) edge newName
  | _ => True

/-- A screen is renamed by its canonical name unless it has no alias, and removed
only while its aliases spell it the way the table does. -/
def NamesSpelled (s : Config) (op : ConfigOp) (_ : Config) : Prop :=
  match op with
  | .renameScreen oldName newName => (s.renameScreen oldName newName).isSome = true →
      CaselessCmp.equal oldName (s.getCanonicalName oldName) = true ∨
        ∀ e ∈ s.nameToCanonicalName.entries, CaselessCmp.equal e.2 (s.getCanonicalName oldName) = true →
          CaselessCmp.equal e.1 (s.getCanonicalName oldName) = true
  | .removeScreen name => s.map.contains (s.getCanonicalName name) = true →
      ∀ e ∈ s.nameToCanonicalName.entries, CaselessCmp.equal e.2 (s.getCanonicalName name) = true →
        e.2 = s.getCanonicalName name
  | _ => True

/-- The entry of a screen in the table of names spells it as the screen list does. -/
private structure Spelled (c : Config) : Prop where
  self : ∀ k ∈ c.map.keys, (k, k) ∈ c.nameToCanonicalName.entries
  known : ∀ e ∈ c.nameToCanonicalName.entries, ∃ k ∈ c.map.keys, k.fold = e.2.fold

private theorem Spelled.namesConsistent {c : Config} (h : Spelled c) : c.NamesConsistent where
  canonical k hk := ⟨k, c.nameToCanonicalName.get?_of_mem (h.self k hk), (CaselessCmp.equal_iff k k).mpr rfl⟩
  known e he := (c.map.contains_iff_keys e.2).mpr (h.known e he)

private theorem Spelled.contains {c : Config} (h : Spelled c) {name : Str}
    (hn : c.nameToCanonicalName.contains name = false) : c.map.contains name = false := by
  by_contra hc
  obtain ⟨k, hk, hr⟩ := (c.map.contains_iff_keys name).mp (by simpa using hc)
  have : c.nameToCanonicalName.contains name = true :=
    (c.nameToCanonicalName.contains_iff name).mpr ⟨_, h.self k hk, hr⟩
  simp [hn] at this

private theorem Spelled.canonical_of_key {c : Config} (h : Spelled c) {k name : Str} (hk : k ∈ c.map.keys)
    (hr : k.fold = name.fold) : c.getCanonicalName name = k := by
  have hg : c.nameToCanonicalName.get? name = some k :=
    (c.nameToCanonicalName.get?_eq_some_iff name k).mpr ⟨k, h.self k hk, hr⟩
  simp [getCanonicalName, NameMap.getCanonicalName, hg]

private theorem spelled_addScreen {c t : Config} (h : Spelled c) {name : Str} (ht : c.addScreen name = some t) :
    Spelled t := by
  unfold addScreen at ht
  split_ifs at ht with hn
  obtain rfl := Option.some.inj ht
  have hn' : c.nameToCanonicalName.contains name = false := by simpa using hn
  have hm := h.contains hn'
  refine ⟨fun k hk => ?_, fun e he => ?_⟩
  · refine (c.nameToCanonicalName.mem_insert hn' _).mpr ?_
    exact ((c.map.mem_keys_insert hm k).mp hk).imp (fun q => by rw [q]) (h.self k)
  · rcases (c.nameToCanonicalName.mem_insert hn' e).mp he with rfl | he
    · exact ⟨name, (c.map.mem_keys_insert hm name).mpr (.inl rfl), rfl⟩
    · obtain ⟨k, hk, hr⟩ := h.known e he
      exact ⟨k, (c.map.mem_keys_insert hm k).mpr (.inr hk), hr⟩

private theorem spelled_addAlias {c t : Config} (h : Spelled c) {canonical aliasName : Str}
    (ht : c.addAlias canonical aliasName = some t) : Spelled t := by
  unfold addAlias at ht
  split_ifs at ht with hn hc
  obtain rfl := Option.some.inj ht
  have hn' : c.nameToCanonicalName.contains aliasName = false := by simpa using hn
  refine ⟨fun k hk => (c.nameToCanonicalName.mem_insert hn' _).mpr (.inr (h.self k hk)), fun e he => ?_⟩
  rcases (c.nameToCanonicalName.mem_insert hn' e).mp he with rfl | he
  · exact (c.map.contains_iff_keys canonical).mp (by simpa using hc)
  · exact h.known e he

private theorem spelled_removeAlias {c t : Config} (h : Spelled c) {aliasName : Str}
    (ht : c.removeAlias aliasName = some t) : Spelled t := by
  unfold removeAlias at ht
  split_ifs at ht with hc hn
  obtain rfl := Option.some.inj ht
  refine ⟨fun k hk => (c.nameToCanonicalName.mem_erase _ _).mpr ⟨h.self k hk, fun hr => ?_⟩, fun e he => ?_⟩
  · exact hc ((c.map.contains_iff_keys aliasName).mpr ⟨k, hk, hr⟩)
  · exact h.known e ((c.nameToCanonicalName.mem_erase _ _).mp he).1

private theorem spelled_removeAliases {c t : Config} (h : Spelled c) {canonical : Str}
    (ht : c.removeAliases canonical = some t) : Spelled t := by
  unfold removeAliases at ht
  split_ifs at ht with hc
  obtain rfl := Option.some.inj ht
  refine ⟨fun k hk => (c.nameToCanonicalName.mem_filter _ _).mpr ⟨h.self k hk, ?_⟩, fun e he => ?_⟩
  · by_cases hk : k = canonical <;> simp [hk]
  · exact h.known e ((c.nameToCanonicalName.mem_filter _ _).mp he).1

private theorem spelled_removeAllAliases (c : Config) : Spelled c.removeAllAliases := by
  refine ⟨fun k hk => ?_, fun e he => ?_⟩
  · obtain ⟨v, hv⟩ := (c.map.mem_keys k).mp hk
    exact (c.map.mem_mapValues _ _).mpr ⟨v, hv, rfl⟩
  · obtain ⟨v, hv, hr⟩ := (c.map.mem_mapValues _ _).mp he
    exact ⟨e.1, SortedMap.mem_keys_of_mem hv, by rw [hr]⟩

private theorem spelled_connect {c t : Config} (h : Spelled c) {srcName dstName : Str} {srcSide : Direction}
    {src dst : Interval} (ht : c.connect srcName srcSide src dstName dst = some t) : Spelled t := by
  unfold connect at ht
  split at ht
  · cases ht
  · split at ht
    · cases ht
    · obtain rfl := Option.some.inj ht
      exact ⟨by simpa using h.self, by simpa using h.known⟩

theorem removeScreen_of_none {c : Config} {name : Str} (h : c.map.find? (c.getCanonicalName name) = none) :
    c.removeScreen name = c := by
  simp [removeScreen, h]

theorem removeScreen_of_some {c : Config} {name : Str} {index : Str × Cell}
    (h : c.map.find? (c.getCanonicalName name) = some index) :
    (c.removeScreen name).map.keys = (c.map.erase index.1).keys ∧
      (c.removeScreen name).nameToCanonicalName =
        c.nameToCanonicalName.filter fun _ target => target ≠ c.getCanonicalName name := by
  simp [removeScreen, h]

private theorem spelled_removeScreen {c : Config} (h : Spelled c) {name : Str}
    (hg : NamesSpelled c (.removeScreen name) (c.removeScreen name)) : Spelled (c.removeScreen name) := by
  simp only [NamesSpelled, CaselessCmp.equal_iff] at hg
  cases hf : c.map.find? (c.getCanonicalName name) with
  | none => rwa [removeScreen_of_none hf]
  | some index =>
    obtain ⟨hkeys, hnames⟩ := removeScreen_of_some hf
    obtain ⟨-, hi⟩ := (c.map.find?_eq_some_iff _ _).mp hf
    have hg := hg (by simp [SortedMap.contains, hf])
    constructor
    · intro k hk
      rw [hkeys, SortedMap.mem_keys_erase, hi] at hk
      rw [hnames, SortedMap.mem_filter]
      exact ⟨h.self k hk.1, decide_eq_true fun q => hk.2 (congrArg Str.fold q)⟩
    · intro e he
      rw [hnames, SortedMap.mem_filter] at he
      obtain ⟨k, hk, hr⟩ := h.known e he.1
      refine ⟨k, ?_, hr⟩
      rw [hkeys, SortedMap.mem_keys_erase, hi]
      exact ⟨hk, fun q => of_decide_eq_true he.2 (hg e he.1 (hr.symm.trans q))⟩

/-- What a renaming that succeeds has found and done. -/
theorem renameScreen_eq_some {c t : Config} {oldName newName : Str} (h : c.renameScreen oldName newName = some t) :
    ∃ index, c.map.find? (c.getCanonicalName oldName) = some index ∧
      (oldName.fold = newName.fold ∨ c.nameToCanonicalName.contains newName = false) ∧
      t.map = ((c.map.erase index.1).insert newName index.2).mapValues (fun _ cell => cell.rename
        (Name.of ((c.nameToCanonicalName.erase (c.getCanonicalName oldName)).insert newName newName) oldName).eq
        newName) ∧
      t.nameToCanonicalName =
        if oldName.fold = (c.getCanonicalName oldName).fold then
          ((c.nameToCanonicalName.erase (c.getCanonicalName oldName)).insert newName newName).mapValues
            fun _ target => if CaselessCmp.equal target (c.getCanonicalName oldName) then newName else target
        else (c.nameToCanonicalName.erase (c.getCanonicalName oldName)).insert newName newName := by
  unfold renameScreen at h
  cases hf : c.map.find? (c.getCanonicalName oldName) with
  | none => simp [hf] at h
  | some index =>
    simp only [hf] at h
    split_ifs at h with hc he
    all_goals
      obtain rfl := Option.some.inj h
      refine ⟨index, rfl, ?_, rfl, ?_⟩
    · rw [← CaselessCmp.equal_iff]
      by_contra hn
      simp_all
    · rw [if_pos ((CaselessCmp.equal_iff _ _).mp he)]
    · rw [← CaselessCmp.equal_iff]
      by_contra hn
      simp_all
    · rw [if_neg (fun q => he ((CaselessCmp.equal_iff _ _).mpr q))]

/-- The names after a renaming, before the targets of aliases are updated. -/
private def renamedNames (c : Config) (oldName newName : Str) : NameMap :=
  (c.nameToCanonicalName.erase (c.getCanonicalName oldName)).insert newName newName

/-- The old name is the screen's own up to case, or the screen has no other name. -/
private def OwnName (c : Config) (oldName : Str) : Prop :=
  oldName.fold = (c.getCanonicalName oldName).fold ∨ ∀ e ∈ c.nameToCanonicalName.entries,
    e.2.fold = (c.getCanonicalName oldName).fold → e.1.fold = (c.getCanonicalName oldName).fold

private theorem fold_eq_canonical {c : Config} {oldName : Str} (hg : OwnName c oldName)
    (hn : c.nameToCanonicalName.contains oldName = true) : oldName.fold = (c.getCanonicalName oldName).fold := by
  refine hg.elim id fun hg => ?_
  obtain ⟨e, he, hr⟩ := (c.nameToCanonicalName.contains_iff oldName).mp hn
  have hv : c.getCanonicalName oldName = e.2 := by
    simp [getCanonicalName, NameMap.getCanonicalName, (c.nameToCanonicalName.get?_eq_some_iff oldName e.2).mpr
      ⟨e.1, he, hr⟩]
  exact hr.symm.trans (hg e he (by rw [hv]))

private theorem mem_renamedNames {c : Config} {oldName newName : Str} (hg : OwnName c oldName)
    (hok : oldName.fold = newName.fold ∨ c.nameToCanonicalName.contains newName = false) (e : Str × Str) :
    e ∈ (c.renamedNames oldName newName).entries ↔ e = (newName, newName) ∨
      (e ∈ c.nameToCanonicalName.entries ∧ e.1.fold ≠ (c.getCanonicalName oldName).fold) := by
  have habsent : (c.nameToCanonicalName.erase (c.getCanonicalName oldName)).contains newName = false := by
    rw [SortedMap.contains_erase]
    by_cases hn : newName.fold = (c.getCanonicalName oldName).fold
    · simp [hn]
    · rcases hok with ho | ho
      · have hno : c.nameToCanonicalName.contains oldName = false := by
          by_contra hc
          exact hn (ho.symm.trans (fold_eq_canonical hg (by simpa using hc)))
        rw [← SortedMap.contains_congr _ ho, hno, Bool.and_false]
      · rw [ho, Bool.and_false]
  rw [renamedNames, SortedMap.mem_insert _ habsent, SortedMap.mem_erase]

/-- The screens after a renaming: only the renamed one has another name. -/
private theorem mem_renamed_keys {c : Config} (h : Spelled c) {oldName newName : Str} {index : Str × Cell}
    (hi : c.map.find? (c.getCanonicalName oldName) = some index)
    (hok : oldName.fold = newName.fold ∨ c.nameToCanonicalName.contains newName = false) :
    (c.map.erase index.1).contains newName = false := by
  have hr := ((c.map.find?_eq_some_iff _ _).mp hi).2
  by_contra hc
  obtain ⟨k, hk, hkr⟩ := ((c.map.erase index.1).contains_iff_keys newName).mp (by simpa using hc)
  obtain ⟨hk, hne⟩ := (c.map.mem_keys_erase _ _).mp hk
  rcases hok with ho | ho
  · have hcan := h.canonical_of_key hk (hkr.trans ho.symm)
    exact hne (by rw [hr, hcan])
  · have := (c.nameToCanonicalName.contains_iff newName).mpr ⟨_, h.self k hk, hkr⟩
    simp [ho] at this

private theorem spelled_renameScreen {c t : Config} (h : Spelled c) {oldName newName : Str} (hg : OwnName c oldName)
    (ht : c.renameScreen oldName newName = some t) : Spelled t := by
  obtain ⟨index, hi, hok, hmap, hnames⟩ := renameScreen_eq_some ht
  have hr := ((c.map.find?_eq_some_iff _ _).mp hi).2
  have hkeys : ∀ k, k ∈ t.map.keys ↔ k = newName ∨ k ∈ c.map.keys ∧ k.fold ≠ (c.getCanonicalName oldName).fold := by
    intro k
    rw [hmap, SortedMap.keys_mapValues, SortedMap.mem_keys_insert _ (mem_renamed_keys h hi hok),
      SortedMap.mem_keys_erase, hr]
  have hmem := mem_renamedNames hg hok
  constructor
  · intro k hk
    rw [hnames]
    have hin : (k, k) ∈ (c.renamedNames oldName newName).entries :=
      (hmem _).mpr (((hkeys k).mp hk).imp (fun q => by rw [q]) fun q => ⟨h.self k q.1, q.2⟩)
    split_ifs with hold
    · refine (SortedMap.mem_mapValues _ _ _).mpr ⟨k, hin, ?_⟩
      split_ifs with he
      · exact ((hkeys k).mp hk).elim id fun q => absurd ((CaselessCmp.equal_iff _ _).mp he) q.2
      · rfl
    · exact hin
  · intro e he
    have hrest : ∀ d ∈ c.nameToCanonicalName.entries, d.2.fold ≠ (c.getCanonicalName oldName).fold →
        ∃ k ∈ t.map.keys, k.fold = d.2.fold := by
      intro d hd hne
      obtain ⟨k, hk, hkr⟩ := h.known d hd
      exact ⟨k, (hkeys k).mpr (.inr ⟨hk, hkr ▸ hne⟩), hkr⟩
    have hnew : ∃ k ∈ t.map.keys, k.fold = newName.fold := ⟨newName, (hkeys _).mpr (.inl rfl), rfl⟩
    rw [hnames] at he
    split_ifs at he with hold
    · obtain ⟨v, hv, hev⟩ := (SortedMap.mem_mapValues _ _ _).mp he
      rw [hev]
      split_ifs with hq
      · exact hnew
      · rcases (hmem _).mp hv with hv | ⟨hv, -⟩
        · rw [(Prod.mk.inj hv).2]
          exact hnew
        · exact hrest _ hv fun q => hq ((CaselessCmp.equal_iff _ _).mpr q)
    · rcases (hmem _).mp he with rfl | ⟨he, hne⟩
      · exact hnew
      · exact hrest e he fun q => hne (hg.resolve_left hold e he q)

private theorem renameFollows_of_own {c t : Config} (h : Spelled c) {oldName newName : Str} (hg : OwnName c oldName)
    (ht : c.renameScreen oldName newName = some t) : RenameFollows c (.renameScreen oldName newName) t := by
  have hts := spelled_renameScreen h hg ht
  obtain ⟨index, hi, hok, hmap, hnames⟩ := renameScreen_eq_some ht
  have hr := ((c.map.find?_eq_some_iff _ _).mp hi).2
  have hfresh := mem_renamed_keys h hi hok
  rintro - name hname hfind src edge ⟨cell, target, hcell, hlink, htarget⟩
  obtain rfl : index.1 = name := by simpa [hi] using hfind
  have hnewfind : t.map.find? newName = (c.map.find? (c.getCanonicalName oldName)).map fun e =>
      (newName, e.2.rename (Name.of (c.renamedNames oldName newName) oldName).eq newName) := by
    rw [hmap, SortedMap.find?_mapValues, SortedMap.find?_insert, if_pos ⟨rfl, hfresh⟩, hi]
    rfl
  have hnew : t.getCanonicalName newName = newName :=
    hts.canonical_of_key ((t.map.mem_keys _).mpr ⟨_, ((t.map.find?_eq_some_iff _ _).mp (hnewfind.trans (by
      rw [hi]; rfl))).1⟩) rfl
  -- the cell of the source keeps its place unless it is the renamed screen itself
  refine ⟨cell.rename (Name.of (c.renamedNames oldName newName) oldName).eq newName,
    if (Name.of (c.renamedNames oldName newName) oldName).eq target.name then { target with name := newName }
    else target, ?_, (SortedMap.mem_mapValues _ _ _).mpr ⟨target, hlink, rfl⟩, ?_⟩
  · obtain ⟨j, hj, hjr⟩ := (c.map.get?_eq_some_iff _ _).mp hcell
    split_ifs with hs
    · have hsrc : src.fold = index.1.fold := (CaselessCmp.equal_iff _ _).mp hs
      have : (j, cell) = index := c.map.entry_unique hj ((c.map.find?_eq_some_iff _ _).mp hi).1 (hjr.trans hsrc)
      rw [SortedMap.get?, hnewfind, hi, ← this]
      rfl
    · have hsrc : src.fold ≠ index.1.fold := fun q => hs ((CaselessCmp.equal_iff _ _).mpr q)
      have hold : (c.map.erase index.1).find? src = some (j, cell) := by
        rw [SortedMap.find?_erase, if_neg hsrc]
        exact (c.map.find?_eq_some_iff _ _).mpr ⟨hj, hjr⟩
      have hne : newName.fold ≠ src.fold := by
        intro q
        rw [SortedMap.contains_congr _ q, SortedMap.contains, hold] at hfresh
        cases hfresh
      rw [hmap, SortedMap.get?_mapValues, SortedMap.find?_insert, if_neg (fun q => hne q.1), hold]
      rfl
  · have hfst : (t.map.find? newName).map Prod.fst = some newName := by
      rw [hnewfind, hi]
      rfl
    split_ifs with heq
    · rw [hnew, hfst]
    · obtain ⟨d, hd, hdn⟩ := Option.map_eq_some_iff.mp htarget
      have htc : (c.getCanonicalName target.name).fold = (c.getCanonicalName oldName).fold := by
        rw [← ((c.map.find?_eq_some_iff _ _).mp hd).2, hdn, hr]
      have hne : c.getCanonicalName oldName ≠ [] := by
        intro q
        rw [q] at hr
        exact hname (by simpa [Str.fold] using hr)
      have hknown : ∀ name : Str, (c.getCanonicalName name).fold = (c.getCanonicalName oldName).fold →
          ∃ e ∈ c.nameToCanonicalName.entries, e.1.fold = name.fold ∧ e.2 = c.getCanonicalName name := by
        intro name hn
        cases hg : c.nameToCanonicalName.get? name with
        | none =>
          have : (c.getCanonicalName oldName).fold = [] := by
            rw [← hn, getCanonicalName, NameMap.getCanonicalName, hg]
            rfl
          exact absurd (by simpa [Str.fold] using this) hne
        | some v =>
          obtain ⟨j, hj, hjr⟩ := (c.nameToCanonicalName.get?_eq_some_iff _ _).mp hg
          exact ⟨_, hj, hjr, by simp [getCanonicalName, NameMap.getCanonicalName, hg]⟩
      obtain ⟨o, ho, hor, -⟩ := hknown oldName rfl
      have hown := fold_eq_canonical hg ((c.nameToCanonicalName.contains_iff _).mpr ⟨o, ho, hor⟩)
      obtain ⟨e, he, her, hev⟩ := hknown target.name htc
      have hother : e.1.fold ≠ (c.getCanonicalName oldName).fold := by
        intro q
        apply heq
        rw [Name.eq, CaselessCmp.equal_iff, Name.of, NameMap.getCanonicalName, NameMap.getCanonicalName,
          SortedMap.get?_congr _ (her.symm.trans (q.trans hown.symm))]
      have hmem : (e.1, newName) ∈ t.nameToCanonicalName.entries := by
        rw [hnames, if_pos hown]
        refine (SortedMap.mem_mapValues _ _ _).mpr ⟨e.2, (mem_renamedNames hg hok _).mpr (.inr ⟨he, hother⟩), ?_⟩
        rw [if_pos ((CaselessCmp.equal_iff _ _).mpr (by rw [hev, htc]))]
      have hget : t.nameToCanonicalName.get? target.name = some newName :=
        (t.nameToCanonicalName.get?_eq_some_iff _ _).mpr ⟨e.1, hmem, her⟩
      rw [show t.getCanonicalName target.name = newName by simp [getCanonicalName, NameMap.getCanonicalName, hget],
        hfst]

private theorem own_of_namesConsistent {c t : Config} (h : Spelled c) {oldName newName : Str}
    (ht : c.renameScreen oldName newName = some t) (hc : t.NamesConsistent) : OwnName c oldName := by
  obtain ⟨index, hi, hok, hmap, hnames⟩ := renameScreen_eq_some ht
  obtain ⟨him, hr⟩ := (c.map.find?_eq_some_iff _ _).mp hi
  by_contra hno
  obtain ⟨hold, hno⟩ := not_or.mp hno
  push Not at hno
  obtain ⟨e, he, hev, hek⟩ := hno
  rw [if_neg hold] at hnames
  have hstays : e ∈ t.nameToCanonicalName.entries := by
    rw [hnames]
    exact SortedMap.mem_insert_of_mem _ ((SortedMap.mem_erase _ _ _).mpr ⟨he, hek⟩)
  obtain ⟨k, hk, hkr⟩ := (t.map.contains_iff_keys _).mp (hc.known e hstays)
  rw [hmap, SortedMap.keys_mapValues, SortedMap.mem_keys_insert _ (mem_renamed_keys h hi hok),
    SortedMap.mem_keys_erase, hr] at hk
  rcases hk with rfl | ⟨-, hne⟩
  · have hin := (c.nameToCanonicalName.contains_iff k).mpr
      ⟨_, h.self _ (SortedMap.mem_keys_of_mem him), hr.trans (hev.symm.trans hkr.symm)⟩
    have ho : oldName.fold = k.fold := hok.resolve_right (by simp [hin])
    exact hold (ho.trans (hkr.trans hev))
  · exact hne (hkr.trans hev)

private theorem spelled_of_guard {s t : Config} {op : ConfigOp} (h : Spelled s) (hg : NamesSpelled s op t)
    (hstep : ConfigOp.step s op t) : Spelled t := by
  obtain rfl := hstep
  have hget : ∀ r : Option Config, (∀ u, r = some u → Spelled u) → Spelled (r.getD s) := by
    rintro (_ | u) hr
    · exact h
    · exact hr u rfl
  cases op with
  | addScreen name => exact hget _ fun u hu => spelled_addScreen h hu
  | renameScreen oldName newName =>
    refine hget _ fun u hu => spelled_renameScreen h ?_ hu
    simpa only [OwnName, NamesSpelled, CaselessCmp.equal_iff] using hg (by rw [hu]; rfl)
  | removeScreen name => exact spelled_removeScreen h hg
  | addAlias canonical aliasName => exact hget _ fun u hu => spelled_addAlias h hu
  | removeAlias aliasName => exact hget _ fun u hu => spelled_removeAlias h hu
  | removeAliases canonical => exact hget _ fun u hu => spelled_removeAliases h hu
  | removeAllAliases => exact spelled_removeAllAliases s
  | connect srcName srcSide src dstName dst => exact hget _ fun u hu => spelled_connect h hu

private theorem guard_of_namesConsistent {s t : Config} {op : ConfigOp} (h : Spelled s)
    (hstep : ConfigOp.step s op t) (hc : t.NamesConsistent) : NamesSpelled s op t := by
  obtain rfl := hstep
  cases op with
  | renameScreen oldName newName =>
    intro hok
    obtain ⟨u, hu⟩ := Option.isSome_iff_exists.mp hok
    simp only [ConfigOp.apply, hu, Option.getD_some] at hc
    simpa only [OwnName, CaselessCmp.equal_iff] using own_of_namesConsistent h hu hc
  | removeScreen name =>
    intro hin e he hev
    obtain ⟨index, hi⟩ := Option.isSome_iff_exists.mp hin
    obtain ⟨hkeys, hnames⟩ := removeScreen_of_some hi
    have hr := ((s.map.find?_eq_some_iff _ _).mp hi).2
    rw [CaselessCmp.equal_iff] at hev
    by_contra hne
    have hstays : e ∈ (s.removeScreen name).nameToCanonicalName.entries := by
      rw [hnames]
      exact (SortedMap.mem_filter _ _ _).mpr ⟨he, decide_eq_true hne⟩
    obtain ⟨k, hk, hkr⟩ := (SortedMap.contains_iff_keys _ _).mp (hc.known e hstays)
    rw [ConfigOp.apply, hkeys, SortedMap.mem_keys_erase, hr] at hk
    exact hk.2 (hkr.trans hev)
  | _ => trivial

/-- Along a run names and screens agree and links follow renamed screens exactly
when every renaming and every removal spells its names the way the table does. -/
theorem names_consistent_iff {tr : List (ConfigOp × Config)} (hr : Trace ConfigOp.step empty tr) :
    EachStep NamesSpelled empty tr ↔
      EachStep (fun s op t => t.NamesConsistent ∧ RenameFollows s op t) empty tr := by
  have hempty : Spelled empty := ⟨by simp [empty, SortedMap.keys], by simp [empty]⟩
  have hfollows : ∀ s op t, Spelled s → ConfigOp.step s op t → NamesSpelled s op t → RenameFollows s op t := by
    rintro s op t hs rfl hg
    cases op with
    | renameScreen oldName newName =>
      intro hok
      obtain ⟨u, hu⟩ := Option.isSome_iff_exists.mp hok
      have hown : OwnName s oldName := by simpa only [OwnName, NamesSpelled, CaselessCmp.equal_iff] using hg hok
      simp only [ConfigOp.apply, hu, Option.getD_some]
      exact renameFollows_of_own hs hown hu hok
    | _ => trivial
  refine hr.eachStep_iff Spelled (fun s op t hs hstep => ?_)
    (fun s op t hs hstep hg => spelled_of_guard hs hg hstep) hempty
  constructor
  · exact fun hg => ⟨(spelled_of_guard hs hg hstep).namesConsistent, hfollows s op t hs hstep hg⟩
  · exact fun hgood => guard_of_namesConsistent hs hstep hgood.1

theorem names_consistent_rename :
    EachStep (fun s op t => t.NamesConsistent ∧ RenameFollows s op t) empty
      (runTrace ConfigOp.apply empty [.addScreen ['a'], .addScreen ['b'], .addAlias ['b'] ['x'],
        .connect ['a'] .right .full ['x'] .full, .renameScreen ['B'] ['c']]) :=
  (names_consistent_iff (trace_runTrace _ _ _)).mp
    ⟨trivial, trivial, trivial, trivial, fun _ => .inl (by decide), trivial⟩

/-- Renaming a screen by its alias leaves the alias on a screen that is gone. -/
theorem names_consistent_fails_alias :
    ¬ ∀ tr : List (ConfigOp × Config), Trace ConfigOp.step empty tr →
      EachStep (fun s op t => t.NamesConsistent ∧ RenameFollows s op t) empty tr := by
  intro h
  have hgood := h _ (trace_runTrace ConfigOp.apply empty
    [.addScreen ['a'], .addAlias ['a'] ['x'], .renameScreen ['x'] ['b']])
  have hknown := hgood.2.2.1.1.known (['x'], ['a']) (by decide)
  revert hknown
  decide

end Config
end Synergy
