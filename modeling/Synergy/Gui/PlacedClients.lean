import Mathlib.Tactic.Ring
import Synergy.Gui.ServerConfig

/-! Where a new client is put: the neighbors that the code names are those of a grid of the width that
the list was constructed with. -/
namespace Synergy.Gui
open ServerConfig
variable {ρ : Type}

/-- Different cells of a grid whose rows and whose columns are next to each other. -/
def Adjacent (columns k j : Nat) : Prop :=
  k ≠ j ∧ (k / columns ≤ j / columns + 1 ∧ j / columns ≤ k / columns + 1) ∧
    (k % columns ≤ j % columns + 1 ∧ j % columns ≤ k % columns + 1)

instance (columns k j : Nat) : Decidable (Adjacent columns k j) := inferInstanceAs (Decidable (_ ∧ _ ∧ _))

private theorem pred_mod {w k : Nat} (hw : 0 < w) (hk : 0 < k) : (k - 1) % w = w - 1 ↔ k % w = 0 := by
  have hlt := Nat.mod_lt k hw
  by_cases hzero : k % w = 0
  · obtain ⟨r, rfl⟩ := Nat.dvd_of_mod_eq_zero hzero
    obtain ⟨r, rfl⟩ : ∃ q, r = q + 1 := ⟨r - 1, by rcases r with _ | r <;> simp_all⟩
    have hsplit : w * (r + 1) - 1 = (w - 1) + w * r := by
      rw [Nat.mul_succ]
      omega
    rw [hsplit, Nat.add_mul_mod_self_left, Nat.mod_eq_of_lt (by omega)]
    simp
  · refine iff_of_false (fun h => ?_) hzero
    have hsplit : k - 1 = (k % w - 1) + w * (k / w) := by
      have := Nat.mod_add_div k w
      omega
    rw [hsplit, Nat.add_mul_mod_self_left, Nat.mod_eq_of_lt (by omega)] at h
    omega

private theorem succ_mod {w k : Nat} (hw : 0 < w) : (k + 1) % w = 0 ↔ k % w = w - 1 := by
  have h := pred_mod hw (Nat.succ_pos k)
  simpa using h.symm

/-- An index that is unset unless a condition holds. -/
private def setIf (p : Prop) [Decidable p] (index : Int) : Int := if p then index else UNSET

private theorem setIf_ne_unset {p : Prop} [Decidable p] {index : Int} (h : p → 0 ≤ index) : setIf p index ≠ UNSET ↔
    p := by
  unfold setIf UNSET
  split_ifs with hp
  · have hindex := h hp
    refine iff_of_true ?_ hp
    rintro rfl
    exact absurd hindex (by decide)
  · exact iff_of_false (by simp) hp

private theorem eq_setIf {p : Prop} [Decidable p] {index : Int} {j : Nat} : (j : Int) = setIf p index ↔ p ∧
    (j : Int) = index := by
  by_cases hp : p
  · simp [setIf, hp]
  · simp [setIf, hp, UNSET]

private theorem ite_setIf_add {p q : Prop} [Decidable p] [Decidable q] {index d : Int} :
    (if p ∧ q then setIf p index + d else UNSET) = setIf (p ∧ q) (index + d) := by
  unfold setIf
  split_ifs with hpq hp
  · rfl
  · exact absurd hpq.1 hp
  · rfl

private theorem ite_setIf_sub {p q : Prop} [Decidable p] [Decidable q] {index d : Int} :
    (if p ∧ q then setIf p index - d else UNSET) = setIf (p ∧ q) (index - d) :=
  ite_setIf_add

/-- The indexes of the neighbors on the grid, by the row and the column of the cell. -/
private theorem getNeighborsIndexes_eq {w k size : Nat} (hw : 0 < w) (hk : k < size) :
    getNeighborsIndexes k w size = some [setIf (k % w ≠ 0) (k - 1), setIf (k % w ≠ w - 1) (k + 1),
        setIf (w ≤ k) (k - w),
      setIf (k + w < size) (k + w), setIf (w ≤ k ∧ k % w ≠ 0) (k - w - 1), setIf (w ≤ k ∧ k % w ≠ w - 1) (k - w + 1),
      setIf (k + w < size ∧ k % w ≠ w - 1) (k + w + 1), setIf (k + w < size ∧ k % w ≠ 0) (k + w - 1)] := by
  have hleft : (if ((k : Int) - 1).tmod w ≠ w - 1 then (k : Int) - 1 else UNSET) = setIf (k % w ≠ 0) (k - 1) := by
    rcases Nat.eq_zero_or_pos k with rfl | hpos
    · simp [setIf, UNSET]
    · have hcast : ((k : Int) - 1) = ((k - 1 : Nat) : Int) := by omega
      have hmod : ((k : Int) - 1).tmod w ≠ w - 1 ↔ k % w ≠ 0 := by
        rw [hcast, ne_eq (k % w), ← pred_mod hw hpos, ← Int.ofNat_tmod]
        omega
      simp only [setIf, hmod]
  have hright : (if ((k : Int) + 1).tmod w ≠ 0 then (k : Int) + 1 else UNSET) = setIf (k % w ≠ w - 1) (k + 1) := by
    have hmod : ((k : Int) + 1).tmod w ≠ 0 ↔ k % w ≠ w - 1 := by
      have hcast : ((k : Int) + 1) = ((k + 1 : Nat) : Int) := by omega
      rw [hcast, ne_eq (k % w), ← succ_mod hw, ← Int.ofNat_tmod]
      omega
    simp only [setIf, hmod]
  have htop : (if 0 ≤ (k : Int) - w then (k : Int) - w else UNSET) = setIf (w ≤ k) (k - w) := by
    have hle : 0 ≤ (k : Int) - w ↔ w ≤ k := by omega
    simp only [setIf, hle]
  have hbottom : (if (k : Int) + w < size then (k : Int) + w else UNSET) = setIf (k + w < size) (k + w) := by
    have hlt : (k : Int) + w < size ↔ k + w < size := by omega
    simp only [setIf, hlt]
  have hleftSet : setIf (k % w ≠ 0) ((k : Int) - 1) ≠ UNSET ↔ k % w ≠ 0 := setIf_ne_unset fun h => by
    rcases Nat.eq_zero_or_pos k with rfl | hpos
    · exact absurd (Nat.zero_mod w) h
    · omega
  have hrightSet : setIf (k % w ≠ w - 1) ((k : Int) + 1) ≠ UNSET ↔ k % w ≠ w - 1 := setIf_ne_unset fun _ => by omega
  have htopSet : setIf (w ≤ k) ((k : Int) - w) ≠ UNSET ↔ w ≤ k := setIf_ne_unset fun _ => by omega
  have hbottomSet : setIf (k + w < size) ((k : Int) + w) ≠ UNSET ↔ k + w < size := setIf_ne_unset fun _ => by omega
  unfold getNeighborsIndexes
  rw [if_pos ⟨by omega, by omega⟩, if_neg (by omega), hleft, hright, htop, hbottom]
  simp only [hleftSet, hrightSet, htopSet, hbottomSet, ite_setIf_add, ite_setIf_sub]

private theorem div_mod_of_eq {w r c j : Nat} (hc : c < w) (h : j = c + w * r) : j / w = r ∧ j % w = c := by
  subst h
  rw [Nat.add_mul_div_left _ _ (by omega), Nat.add_mul_mod_self_left, Nat.mod_eq_of_lt hc, Nat.div_eq_of_lt hc]
  simp

/-- On a grid of their width, the indexes that are in it are those of the cells next to the one given. -/
theorem mem_getNeighborsIndexes {w rows k j : Nat} (hk : k < w * rows) (hj : j < w * rows) :
    ∃ indexes, getNeighborsIndexes k w (w * rows : Nat) = some indexes ∧ ((j : Int) ∈ indexes ↔ Adjacent w k j) := by
  have hw : 0 < w := Nat.pos_of_ne_zero fun h => by simp [h] at hk
  refine ⟨_, getNeighborsIndexes_eq hw hk, ?_⟩
  obtain ⟨c, r, hc, rfl⟩ : ∃ c r, c < w ∧ k = c + w * r := ⟨k % w, k / w, Nat.mod_lt k hw, (Nat.mod_add_div k w).symm⟩
  obtain ⟨d, q, hd, rfl⟩ : ∃ d q, d < w ∧ j = d + w * q := ⟨j % w, j / w, Nat.mod_lt j hw, (Nat.mod_add_div j w).symm⟩
  obtain ⟨hkr, hkc⟩ := div_mod_of_eq hc rfl
  obtain ⟨hjq, hjd⟩ := div_mod_of_eq hd rfl
  have hrows : w * r + w ≤ w * rows ∧ w * q + w ≤ w * rows := by
    rw [← Nat.mul_succ, ← Nat.mul_succ]
    refine ⟨Nat.mul_le_mul_left w ?_, Nat.mul_le_mul_left w ?_⟩
    · exact Nat.lt_of_mul_lt_mul_left (a := w) (by omega)
    · exact Nat.lt_of_mul_lt_mul_left (a := w) (by omega)
  -- the rows are the same, next to each other, or further apart
  have horder : (q = r ∧ w * q = w * r) ∨ (q = r + 1 ∧ w * q = w * r + w) ∨ (r = q + 1 ∧ w * r = w * q + w) ∨
      (r + 1 < q ∧ w * r + 2 * w ≤ w * q) ∨ (q + 1 < r ∧ w * q + 2 * w ≤ w * r) := by
    rcases lt_trichotomy q r with h | h | h
    · rcases Nat.lt_or_ge (q + 1) r with h' | h'
      · have := Nat.mul_le_mul_left w (show q + 2 ≤ r by omega)
        rw [Nat.mul_add] at this
        omega
      · have hr : r = q + 1 := by omega
        subst hr
        rw [Nat.mul_succ]
        omega
    · subst h
      omega
    · rcases Nat.lt_or_ge (r + 1) q with h' | h'
      · have := Nat.mul_le_mul_left w (show r + 2 ≤ q by omega)
        rw [Nat.mul_add] at this
        omega
      · have hq : q = r + 1 := by omega
        subst hq
        rw [Nat.mul_succ]
        omega
  rw [Adjacent, hkr, hjq, hjd]
  simp only [List.mem_cons, List.not_mem_nil, or_false, eq_setIf, hkc]
  generalize w * rows = size at hrows hk hj ⊢
  generalize w * r = a at hrows horder hk ⊢
  generalize w * q = b at hrows horder hj ⊢
  constructor
  · rintro (⟨hp, hindex⟩ | ⟨hp, hindex⟩ | ⟨hp, hindex⟩ | ⟨hp, hindex⟩ | ⟨hp, hindex⟩ | ⟨hp, hindex⟩ | ⟨hp, hindex⟩ |
      ⟨hp, hindex⟩) <;> omega
  · rintro ⟨hne, hrow, hcolumn⟩
    rcases horder with ⟨hq, hb⟩ | ⟨hq, hb⟩ | ⟨hq, hb⟩ | ⟨hq, hb⟩ | ⟨hq, hb⟩
    · rcases lt_trichotomy d c with hd | hd | hd
      · exact .inl ⟨by omega, by omega⟩
      · exact absurd (by rw [hd, hb]) hne
      · exact .inr (.inl ⟨by omega, by omega⟩)
    · rcases lt_trichotomy d c with hd | hd | hd
      · exact .inr (.inr (.inr (.inr (.inr (.inr (.inr ⟨by omega, by omega⟩))))))
      · exact .inr (.inr (.inr (.inl ⟨by omega, by omega⟩)))
      · exact .inr (.inr (.inr (.inr (.inr (.inr (.inl ⟨by omega, by omega⟩))))))
    · rcases lt_trichotomy d c with hd | hd | hd
      · exact .inr (.inr (.inr (.inr (.inl ⟨by omega, by omega⟩))))
      · exact .inr (.inr (.inl ⟨by omega, by omega⟩))
      · exact .inr (.inr (.inr (.inr (.inr (.inl ⟨by omega, by omega⟩)))))
    · omega
    · omega

/-- The cell that the new screen goes to: the first free one of the indexes, otherwise the first free one of all. -/
def target (cells : List (Screen ρ)) (indexes : List Int) : Option Nat :=
  match indexes.find? (isFree cells) with
  | some index => some index.toNat
  | none => cells.findIdx? Screen.isNull

section
variable [Inhabited ρ]

/-- What the placing of a client is to do to the cells that the server has been placed in. -/
structure Placed (columns : Nat) (server : Option Nat) (clientName : Str) (cells cells' : List (Screen ρ)) : Prop where
  full : (∀ s ∈ cells, s.isNull = false) → cells' = cells
  put : (∃ s ∈ cells, s.isNull = true) → ∃ i : Nat, isFree cells i = true ∧ cells' = cells.set i
      (Screen.ofName clientName) ∧
    ∀ k, server = some k → (∃ j : Nat, isFree cells j = true ∧ Adjacent columns k j) → Adjacent columns k i

end

/-- The screens that were in the grid keep their cells, apart from being marked as the server. -/
def KeepsScreens (before after : List (Screen ρ)) : Prop :=
  ∀ (i : Nat) (s : Screen ρ), before[i]? = some s → s.isNull = false →
    ∃ s', after[i]? = some s' ∧ s'.name = s.name ∧ s'.rest = s.rest

/-- Adding a client accesses the grid only inside it, and the client is put where it should be. -/
def PlacesSafely [Inhabited ρ] (c : ServerConfig ρ) (serverName clientName : Str) : Prop :=
  ∃ cells server c', placeServer c.screens.cells serverName = some (cells, server) ∧
    c.addClient serverName clientName = some c' ∧
    Placed c.columns server clientName cells c'.screens.cells ∧ KeepsScreens c.screens.cells c'.screens.cells

theorem isFree_iff {cells : List (Screen ρ)} {i : Nat} :
    isFree cells i = true ↔ ∃ s, cells[i]? = some s ∧ s.isNull = true := by
  simp [isFree, Option.any_eq_true]

theorem addScreenByPriority_eq (l : ScreenList ρ) (newScreen : Screen ρ) :
    l.addScreenByPriority newScreen =
      (getNeighborsIndexes (getServerIndex l.cells) l.width l.cells.length).map fun indexes =>
        match target l.cells indexes with
        | some i => { l with cells := l.cells.set i newScreen }
        | none => l := by
  unfold ScreenList.addScreenByPriority target addScreenToFirstEmpty
  congr 1
  funext indexes
  cases indexes.find? (isFree l.cells) with
  | some index => rfl
  | none => cases l.cells.findIdx? Screen.isNull <;> rfl

/-- The cell is free, and there is one when any cell is free. -/
theorem target_free {cells : List (Screen ρ)} {indexes : List Int} :
    (∀ i, target cells indexes = some i → isFree cells i = true) ∧
      (target cells indexes = none → ∀ s ∈ cells, s.isNull = false) := by
  unfold target
  cases hfind : indexes.find? (isFree cells) with
  | some index =>
    refine ⟨fun i hi => ?_, fun h => nomatch h⟩
    have hfree := List.find?_some hfind
    have hnonneg : 0 ≤ index := by
      simp only [isFree, Bool.and_eq_true, decide_eq_true_eq] at hfree
      exact hfree.1
    rw [← Option.some.inj hi, Int.toNat_of_nonneg hnonneg]
    exact hfree
  | none =>
    refine ⟨fun i hi => ?_, fun h s hs => ?_⟩
    · obtain ⟨hlt, hnull, -⟩ := List.findIdx?_eq_some_iff_getElem.mp hi
      exact isFree_iff.mpr ⟨_, List.getElem?_eq_getElem hlt, hnull⟩
    · exact List.findIdx?_eq_none_iff.mp h s hs

section
variable [Inhabited ρ]

/-- When a client is placed well: the server is in the grid or its default cell is, a grid for no columns has no
server, and the cell that is chosen is next to the server if one next to it is free. A client without a name is not
seen in its cell, and one next to the server may be as good. -/
structure FitsGrid (c : ServerConfig ρ) (serverName clientName : Str) : Prop where
  inside : (findScreenName c.screens.cells serverName).isSome = true ∨ serverDefaultIndex < c.screens.cells.length
  divides : c.screens.width = 0 → ∀ cells server, placeServer c.screens.cells serverName = some (cells, server) →
    ∀ s ∈ cells, s.isServer = false
  near : ∀ cells server indexes, placeServer c.screens.cells serverName = some (cells, server) →
    getNeighborsIndexes (getServerIndex cells) c.screens.width cells.length = some indexes →
    ∀ k i, server = some k → target cells indexes = some i →
      (∃ j : Nat, isFree cells j = true ∧ Adjacent c.columns k j) →
      Adjacent c.columns k i ∨ clientName = [] ∧ ∃ j : Nat, isFree cells j = true ∧ Adjacent c.columns k j ∧
        cells.set i (Screen.ofName clientName) = cells.set j (Screen.ofName clientName)

end

theorem placeServer_isSome (cells : List (Screen ρ)) (serverName : Str) :
    (placeServer cells serverName).isSome = true ↔
      (findScreenName cells serverName).isSome = true ∨ serverDefaultIndex < cells.length := by
  unfold placeServer
  cases findScreenName cells serverName with
  | some i => simp
  | none =>
    cases hcell : cells[serverDefaultIndex]? with
    | none => simpa using hcell
    | some s =>
      obtain ⟨hlt, -⟩ := List.getElem?_eq_some_iff.mp hcell
      dsimp only
      split_ifs <;> simp [hlt]

theorem getServerIndex_range (cells : List (Screen ρ)) :
    (0 ≤ getServerIndex cells ∧ getServerIndex cells < cells.length) ↔ ∃ s ∈ cells, s.isServer = true := by
  unfold getServerIndex
  cases hfind : cells.findIdx? Screen.isServer with
  | some i =>
    obtain ⟨hlt, hserver, -⟩ := List.findIdx?_eq_some_iff_getElem.mp hfind
    exact iff_of_true ⟨by simp, by simpa using hlt⟩ ⟨_, List.getElem_mem hlt, hserver⟩
  | none =>
    refine iff_of_false (by simp) ?_
    rintro ⟨s, hs, hserver⟩
    have hnone := List.findIdx?_eq_none_iff.mp hfind s hs
    rw [hnone] at hserver
    cases hserver

/-- The indexes are computed unless that divides by zero. -/
theorem getNeighborsIndexes_isSome (cells : List (Screen ρ)) (width : Int) :
    (getNeighborsIndexes (getServerIndex cells) width cells.length).isSome = true ↔
      (width = 0 → ∀ s ∈ cells, s.isServer = false) := by
  unfold getNeighborsIndexes
  by_cases hrange : 0 ≤ getServerIndex cells ∧ getServerIndex cells < cells.length
  · rw [if_pos hrange]
    by_cases hwidth : width = 0
    · obtain ⟨s, hs, hserver⟩ := (getServerIndex_range cells).mp hrange
      rw [if_pos hwidth]
      refine iff_of_false (by simp) fun h => ?_
      rw [h hwidth s hs] at hserver
      cases hserver
    · rw [if_neg hwidth]
      exact iff_of_true rfl fun h => absurd h hwidth
  · rw [if_neg hrange]
    refine iff_of_true rfl fun _ s hs => ?_
    rw [Bool.eq_false_iff]
    exact fun hserver => hrange ((getServerIndex_range cells).mpr ⟨s, hs, hserver⟩)

theorem placeServer_keeps {cells cells' : List (Screen ρ)} {serverName : Str} {server : Option Nat}
    (h : placeServer cells serverName = some (cells', server)) : KeepsScreens cells cells' := by
  unfold placeServer at h
  split at h
  · cases h
    intro i s hs _
    rw [List.getElem?_modify, hs]
    split_ifs <;> exact ⟨_, rfl, rfl, rfl⟩
  · split at h
    · cases h
    · next s' hs' =>
      split_ifs at h with hnull
      · cases h
        intro i s hs hused
        refine ⟨s, ?_, rfl, rfl⟩
        rw [List.getElem?_set_ne, hs]
        rintro rfl
        rw [hs] at hs'
        cases hs'
        rw [hused] at hnull
        cases hnull
      · cases h
        exact fun i s hs _ => ⟨s, hs, rfl, rfl⟩

theorem length_placeServer {cells cells' : List (Screen ρ)} {serverName : Str} {server : Option Nat}
    (h : placeServer cells serverName = some (cells', server)) : cells'.length = cells.length := by
  unfold placeServer at h
  split at h
  · cases h
    exact List.length_modify _ _ _
  · split at h
    · cases h
    · split_ifs at h
      · cases h
        exact List.length_set
      · cases h
        rfl

theorem placeServer_inside {cells cells' : List (Screen ρ)} {serverName : Str} {k : Nat}
    (h : placeServer cells serverName = some (cells', some k)) : k < cells.length := by
  unfold placeServer at h
  split at h
  · next i hfound =>
    cases h
    exact (List.findIdx?_eq_some_iff_getElem.mp hfound).1
  · split at h
    · cases h
    · next s hs =>
      split_ifs at h
      · cases h
        exact (List.getElem?_eq_some_iff.mp hs).1
      · cases h

private theorem modify_marked {cells : List (Screen ρ)} {k : Nat} {s : Screen ρ} (hs : cells[k]? = some s)
    (hserver : s.isServer = true) : cells.modify k Screen.markAsServer = cells := by
  refine List.ext_getElem? fun i => ?_
  rw [List.getElem?_modify]
  split_ifs with hi
  · subst hi
    obtain ⟨name, isServer, rest⟩ := s
    cases hserver
    rw [hs]
    rfl
  · simp

theorem set_free_keeps {cells : List (Screen ρ)} {i : Nat} (h : isFree cells i = true) (newScreen : Screen ρ) :
    KeepsScreens cells (cells.set i newScreen) := by
  intro j s hs hused
  obtain ⟨t, ht, hnull⟩ := isFree_iff.mp h
  refine ⟨s, ?_, rfl, rfl⟩
  rw [List.getElem?_set_ne, hs]
  rintro rfl
  rw [hs] at ht
  cases ht
  rw [hused] at hnull
  cases hnull

theorem KeepsScreens.trans {cells cells' cells'' : List (Screen ρ)} (h : KeepsScreens cells cells')
    (h' : KeepsScreens cells' cells'') : KeepsScreens cells cells'' := by
  intro i s hs hused
  obtain ⟨s', hs', hname, hrest⟩ := h i s hs hused
  have hused' : s'.isNull = false := by rwa [Screen.isNull, hname]
  obtain ⟨s'', hs'', hname', hrest'⟩ := h' i s' hs' hused'
  exact ⟨s'', hs'', hname'.trans hname, hrest'.trans hrest⟩

section
variable [Inhabited ρ]

/-- The cells that a client is added to, with the client in them. -/
def withClient (cells : List (Screen ρ)) (indexes : List Int) (clientName : Str) : List (Screen ρ) :=
  match target cells indexes with
  | some i => cells.set i (Screen.ofName clientName)
  | none => cells

theorem addClient_eq {c : ServerConfig ρ} {serverName : Str} {cells : List (Screen ρ)} {server : Option Nat}
    (h : placeServer c.screens.cells serverName = some (cells, server)) (clientName : Str) :
    c.addClient serverName clientName =
      (getNeighborsIndexes (getServerIndex cells) c.screens.width cells.length).map fun indexes =>
        { c with screens := ⟨c.screens.width, withClient cells indexes clientName⟩ } := by
  unfold addClient
  rw [h]
  dsimp only
  rw [addScreenByPriority_eq, Option.map_map]
  congr 1
  funext indexes
  unfold withClient
  dsimp only [Function.comp]
  cases target cells indexes <;> rfl

/-- A client with a name is seen in its cell. -/
private theorem set_injective {cells : List (Screen ρ)} {i j : Nat} {clientName : Str} (hi : isFree cells i = true)
    (hname : clientName ≠ []) (h : cells.set i (Screen.ofName clientName) = cells.set j (Screen.ofName clientName)) :
    i = j := by
  obtain ⟨s, hs, hnull⟩ := isFree_iff.mp hi
  obtain ⟨hlt, -⟩ := List.getElem?_eq_some_iff.mp hs
  by_contra hne
  have hget := congrArg (fun l : List (Screen ρ) => l[i]?) h
  simp only [List.getElem?_set_self hlt, List.getElem?_set_ne (Ne.symm hne), hs, Option.some.injEq] at hget
  rw [← hget] at hnull
  exact hname (List.isEmpty_iff.mp hnull)

theorem placed_withClient_iff {columns : Nat} {server : Option Nat} {cells : List (Screen ρ)} {indexes : List Int}
    {clientName : Str} :
    Placed columns server clientName cells (withClient cells indexes clientName) ↔
      ∀ k i, server = some k → target cells indexes = some i →
        (∃ j : Nat, isFree cells j = true ∧ Adjacent columns k j) →
        Adjacent columns k i ∨ clientName = [] ∧ ∃ j : Nat, isFree cells j = true ∧ Adjacent columns k j ∧
          cells.set i (Screen.ofName clientName) = cells.set j (Screen.ofName clientName) := by
  have hused (i : Nat) (hi : isFree cells i = true) : ∃ s ∈ cells, s.isNull = true := by
    obtain ⟨s, hs, hnull⟩ := isFree_iff.mp hi
    exact ⟨s, List.mem_of_getElem? hs, hnull⟩
  obtain ⟨hfree, hnone⟩ := @target_free _ cells indexes
  unfold withClient
  cases htarget : target cells indexes with
  | none =>
    refine iff_of_true ⟨fun _ => rfl, fun ⟨s, hs, hnull⟩ => ?_⟩ fun _ _ _ h => nomatch h
    rw [hnone htarget s hs] at hnull
    cases hnull
  | some i =>
    have hi := hfree i htarget
    dsimp only
    constructor
    · intro hplaced k i' hserver hi' hadjacent
      obtain rfl := Option.some.inj hi'
      obtain ⟨j, hj, hset, hnear⟩ := hplaced.put (hused i hi)
      by_cases hname : clientName = []
      · exact .inr ⟨hname, j, hj, hnear k hserver hadjacent, hset⟩
      · rw [set_injective hi hname hset]
        exact .inl (hnear k hserver hadjacent)
    · intro hnear
      refine ⟨fun hfull => ?_, fun _ => ?_⟩
      · obtain ⟨s, hs, hnull⟩ := hused i hi
        rw [hfull s hs] at hnull
        cases hnull
      · by_cases hk : ∃ k, server = some k ∧ ∃ j : Nat, isFree cells j = true ∧ Adjacent columns k j
        · obtain ⟨k, hserver, hadjacent⟩ := hk
          have hsame {k' : Nat} (hk' : server = some k') : k = k' := Option.some.inj (hserver.symm.trans hk')
          rcases hnear k i hserver rfl hadjacent with hi' | ⟨-, j, hj, hj', hset⟩
          · exact ⟨i, hi, rfl, fun k' hk' _ => hsame hk' ▸ hi'⟩
          · exact ⟨j, hj, hset, fun k' hk' _ => hsame hk' ▸ hj'⟩
        · exact ⟨i, hi, rfl, fun k hserver hadjacent => absurd ⟨k, hserver, hadjacent⟩ hk⟩

theorem withClient_keeps (cells : List (Screen ρ)) (indexes : List Int) (clientName : Str) :
    KeepsScreens cells (withClient cells indexes clientName) := by
  unfold withClient
  cases htarget : target cells indexes with
  | none => exact fun i s hs _ => ⟨s, hs, rfl, rfl⟩
  | some i => exact set_free_keeps (target_free.1 i htarget) _

/-- In any grid a client is placed safely exactly when the grid fits. -/
theorem placesSafely_iff (c : ServerConfig ρ) (serverName clientName : Str) :
    PlacesSafely c serverName clientName ↔ FitsGrid c serverName clientName := by
  constructor
  · rintro ⟨cells, server, c', hplace, hadd, hplaced, -⟩
    rw [addClient_eq hplace] at hadd
    obtain ⟨indexes, hindexes, rfl⟩ := Option.map_eq_some_iff.mp hadd
    refine ⟨(placeServer_isSome _ _).mp (by rw [hplace]; rfl), fun hwidth => ?_, ?_⟩
    · intro cells' server' hplace'
      obtain ⟨rfl, rfl⟩ := Prod.mk.inj (Option.some.inj (hplace.symm.trans hplace'))
      exact (getNeighborsIndexes_isSome cells _).mp (by rw [hindexes]; rfl) hwidth
    · intro cells' server' indexes' hplace' hindexes'
      obtain ⟨rfl, rfl⟩ := Prod.mk.inj (Option.some.inj (hplace.symm.trans hplace'))
      obtain rfl := Option.some.inj (hindexes.symm.trans hindexes')
      exact placed_withClient_iff.mp hplaced
  · intro hfits
    obtain ⟨⟨cells, server⟩, hplace⟩ := Option.isSome_iff_exists.mp ((placeServer_isSome _ _).mpr hfits.inside)
    have hdivides (hwidth : c.screens.width = 0) : ∀ s ∈ cells, s.isServer = false :=
      hfits.divides hwidth cells server hplace
    obtain ⟨indexes, hindexes⟩ := Option.isSome_iff_exists.mp ((getNeighborsIndexes_isSome cells _).mpr hdivides)
    have hkept : KeepsScreens c.screens.cells cells := placeServer_keeps hplace
    refine ⟨cells, server, _, hplace, by rw [addClient_eq hplace, hindexes]; rfl, ?_, ?_⟩
    · exact placed_withClient_iff.mpr (hfits.near cells server indexes hplace hindexes)
    · exact hkept.trans (withClient_keeps cells indexes clientName)

/-- The settings hold a grid of some columns and rows, and no more screens than cells. -/
structure StoredGrid.Fits (stored : StoredGrid ρ) : Prop where
  columns : 0 < stored.numColumns
  rows : 0 < stored.numRows
  screens : stored.screens.length ≤ stored.numColumns * stored.numRows

theorem recalled_length {stored : StoredGrid ρ} (h : stored.Fits) (columns : Int) (serverName : Str) :
    (recalled columns stored serverName).screens.cells.length = stored.numColumns * stored.numRows := by
  have hle := h.screens
  simp [recalled]
  omega

/-- The screens that are marked are those with the name of the server. -/
theorem recalled_isServer {stored : StoredGrid ρ} {columns : Int} {serverName : Str} (hname : serverName ≠ [])
    {s : Screen ρ} (hs : s ∈ (recalled columns stored serverName).screens.cells) :
    s.isServer = (!s.isNull && decide (s.name = serverName)) := by
  simp only [recalled, List.mem_append, List.mem_map, List.mem_replicate] at hs
  rcases hs with ⟨e, -, rfl⟩ | ⟨-, rfl⟩
  · split_ifs with he
    · subst he
      simp [Screen.markAsServer, Screen.loadSettings, Screen.isNull, hname]
    · simp [Screen.loadSettings, Ne.symm he]
  · simp [Screen.ofName, Screen.isNull]

/-- The server that is placed in a recalled grid is the first screen that is marked. -/
theorem getServerIndex_placeServer {stored : StoredGrid ρ} {columns : Int} {serverName : Str} (hname : serverName ≠ [])
    {cells : List (Screen ρ)} {k : Nat}
    (h : placeServer (recalled columns stored serverName).screens.cells serverName = some (cells, some k)) :
    getServerIndex cells = k := by
  have hmarked := fun s hs => @recalled_isServer _ _ stored columns serverName hname s hs
  generalize (recalled columns stored serverName).screens.cells = before at h hmarked
  suffices hfirst : cells.findIdx? Screen.isServer = some k by
    rw [getServerIndex, hfirst]
  unfold placeServer at h
  split at h
  · next i hfound =>
    obtain ⟨hlt, hnamed, hfirst⟩ := List.findIdx?_eq_some_iff_getElem.mp hfound
    have hserver : (before[i]).isServer = true := (hmarked _ (List.getElem_mem hlt)).trans hnamed
    rw [modify_marked (List.getElem?_eq_getElem hlt) hserver] at h
    cases h
    refine List.findIdx?_eq_some_iff_getElem.mpr ⟨hlt, hserver, fun j hj => ?_⟩
    rw [hmarked _ (List.getElem_mem _)]
    exact hfirst j hj
  · next hnone =>
    have hunmarked (s : Screen ρ) (hs : s ∈ before) : s.isServer = false :=
      (hmarked s hs).trans (List.findIdx?_eq_none_iff.mp hnone s hs)
    split at h
    · cases h
    · next s hs =>
      split_ifs at h
      · cases h
        obtain ⟨hlt, -⟩ := List.getElem?_eq_some_iff.mp hs
        refine List.findIdx?_eq_some_iff_getElem.mpr ⟨by simpa using hlt, by simp [Screen.markAsServer], fun j hj => ?_⟩
        rw [List.getElem_set_ne (by omega), hunmarked _ (List.getElem_mem _)]
        exact Bool.false_ne_true
      · cases h

/-- A grid that has the columns it was constructed with fits when the server has a cell in it or its default cell is
inside. -/
theorem fitsGrid_recalled {stored : StoredGrid ρ} (h : stored.Fits) {serverName : Str} (hname : serverName ≠ [])
    (clientName : Str)
    (hinside : (findScreenName (recalled stored.numColumns stored serverName).screens.cells serverName).isSome = true ∨
      serverDefaultIndex < stored.numColumns * stored.numRows) :
    FitsGrid (recalled stored.numColumns stored serverName) serverName clientName := by
  have hlength := recalled_length h stored.numColumns serverName
  refine ⟨by rwa [hlength], fun hwidth => absurd hwidth ?_, ?_⟩
  · have := h.columns
    change (stored.numColumns : Int) ≠ 0
    omega
  · intro cells server indexes hplace hindexes k i hserver htarget hadjacent
    subst hserver
    have hk := getServerIndex_placeServer hname hplace
    have hsize : cells.length = stored.numColumns * stored.numRows := by
      rw [← hlength]
      exact length_placeServer hplace
    have hkSize : k < stored.numColumns * stored.numRows := by
      rw [← hlength]
      exact placeServer_inside hplace
    have hinGrid {j : Nat} (hj : isFree cells j = true) : j < stored.numColumns * stored.numRows := by
      obtain ⟨s, hs, -⟩ := isFree_iff.mp hj
      rw [← hsize]
      exact (List.getElem?_eq_some_iff.mp hs).1
    have hmem {j : Nat} (hj : isFree cells j = true) : (j : Int) ∈ indexes ↔ Adjacent stored.numColumns k j := by
      obtain ⟨indexes', hindexes', hmem⟩ := mem_getNeighborsIndexes hkSize (hinGrid hj)
      rw [hk, hsize] at hindexes
      obtain rfl := Option.some.inj (hindexes.symm.trans hindexes')
      exact hmem
    obtain ⟨j, hj, hadjacent⟩ := hadjacent
    unfold target at htarget
    split at htarget
    · next index hfind =>
      cases htarget
      have hfree := List.find?_some hfind
      have hcast : ((index.toNat : Nat) : Int) = index := by
        simp only [isFree, Bool.and_eq_true, decide_eq_true_eq] at hfree
        exact Int.toNat_of_nonneg hfree.1
      refine .inl ((hmem (j := index.toNat) ?_).mp ?_)
      · rwa [hcast]
      · rw [hcast]
        exact List.mem_of_find?_eq_some hfind
    · next hnone => exact absurd hj (List.find?_eq_none.mp hnone j ((hmem hj).mpr hadjacent))

/-- In a recalled grid a client is placed safely exactly when the grid fits, and a grid that has the columns it was
constructed with does. -/
theorem places_client_iff (columns : Int) {stored : StoredGrid ρ} (h : stored.Fits)
    (recalledName serverName clientName : Str) :
    (PlacesSafely (recalled columns stored recalledName) serverName clientName ↔
      FitsGrid (recalled columns stored recalledName) serverName clientName) ∧
    (columns = stored.numColumns → recalledName = serverName → serverName ≠ [] →
      (findScreenName (recalled columns stored recalledName).screens.cells serverName).isSome = true ∨
        serverDefaultIndex < stored.numColumns * stored.numRows →
      FitsGrid (recalled columns stored recalledName) serverName clientName) := by
  refine ⟨placesSafely_iff _ _ _, fun hcolumns hrecalled hname hinside => ?_⟩
  subst hcolumns hrecalled
  exact fitsGrid_recalled h hname clientName hinside

end

/-- Three columns and three rows with the server in the first column. -/
def storedThree : StoredGrid Unit := ⟨3, 3, [([], ()), ([], ()), ([], ()), ("server".toList, ())]⟩

def storedTwo : StoredGrid Unit := ⟨2, 2, []⟩

/-- The list was constructed for five columns: its cell to the left of the server is in the row above and at the other
side. In a small grid the default cell of the server is not there. -/
theorem client_in_wrong_row :
    ¬PlacesSafely (recalled 5 storedThree "server".toList) "server".toList "client".toList ∧
      ¬PlacesSafely (recalled 5 storedTwo "server".toList) "server".toList "client".toList := by
  refine ⟨fun h => ?_, fun h => ?_⟩
  · have hnear := ((placesSafely_iff _ _ _).mp h).near _ _ _ rfl rfl 3 2 rfl (by decide) ⟨0, by decide, by decide⟩
    rcases hnear with hadjacent | ⟨hname, -⟩
    · exact absurd hadjacent (by decide)
    · exact absurd hname (by decide)
  · exact absurd ((placesSafely_iff _ _ _).mp h).inside (by decide)

theorem places_client_iff_three :
    PlacesSafely (recalled 3 storedThree "server".toList) "server".toList "client".toList :=
  have h := @places_client_iff Unit _ 3 storedThree ⟨by decide, by decide, by decide⟩ "server".toList
    "server".toList "client".toList
  h.1.mpr (h.2 rfl rfl (by decide) (.inr (by decide)))

end Synergy.Gui
