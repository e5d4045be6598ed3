import Synergy.Lib.Search
import Synergy.Server.Neighbor

/-! Where a point beyond an edge comes to lie: on the destination exactly when the
neighbors in a row are large enough for it and the jump zone fits the screen. -/
namespace Synergy
open Synergy.Lib

namespace Config

/-- A neighbor is entered within its edge. -/
theorem getNeighbor_position {c : Config} {srcName dstName : Str} {srcSide : Direction} {t t' : ℚ}
    (h : c.getNeighbor srcName srcSide t = some (dstName, t')) : 0 ≤ t' ∧ t' < 1 := by
  unfold getNeighbor at h
  cases hc : c.map.get? (c.getCanonicalName srcName) with
  | none => simp [hc] at h
  | some cell =>
    simp only [hc] at h
    cases hl : cell.getLink srcSide t with
    | none => simp [hl] at h
    | some i =>
      obtain ⟨srcEdge, dstEdge⟩ := i
      simp only [hl, Option.some.injEq, Prod.mk.injEq] at h
      obtain ⟨h0, h1⟩ := CellEdge.transform_mem (Cell.getLink_eq_some hl).2.2
      obtain ⟨hlo, hhi⟩ := (dstEdge.isInside_iff _).mp (dstEdge.isInside_inverseTransform h0 h1)
      rw [← h.2]
      exact ⟨dstEdge.interval.nonneg.trans hlo, hhi.trans_le dstEdge.interval.le_one⟩

end Config

namespace Server
variable {e : Platform} {s : Server}

/-- `dst` is the closest connected neighbor of `src` at the coordinate `b` along
the edge and is entered at the coordinate `b'`. -/
def Next (e : Platform) (s : Server) (side : Direction) (src : BaseClientProxy) (b : Int) (dst : BaseClientProxy)
    (b' : Int) : Prop :=
  ∃ fuel, s.getNeighbor e fuel src side (point side 0 b) = some (some dst, point side 0 b')

/-- How far beyond the edge a point is; 0 is the first pixel outside. -/
def overshoot (e : Platform) (src : BaseClientProxy) (side : Direction) (p : Int × Int) : Int :=
  let a := e.shape src
  if side.back then a.start side - 1 - across side p else across side p - (a.start side + a.extent side)

/-- The primary screen has room for its jump zone, where it matters. -/
def ZoneFits (e : Platform) (s : Server) (side : Direction) (dst : BaseClientProxy) (b : Int) : Prop :=
  dst = s.primaryClient → s.hasNeighborAt dst side.opposite (mapToFraction e dst side (point side 0 b)) = true →
    e.jumpZoneSize < (e.shape dst).extent side

/-- The screens from `dst` on are large enough for a point `excess` pixels in, and
the last of them has room for its jump zone. -/
inductive Absorbs (e : Platform) (s : Server) (side : Direction) : BaseClientProxy → Int → Int → Prop
  | here {dst : BaseClientProxy} {b excess : Int} : excess < (e.shape dst).extent side →
      ZoneFits e s side dst b → Absorbs e s side dst b excess
  | next {dst next : BaseClientProxy} {b b' excess : Int} : (e.shape dst).extent side ≤ excess →
      Next e s side dst b next b' → Absorbs e s side next b' (excess - (e.shape dst).extent side) →
      Absorbs e s side dst b excess

private theorem mapToFraction_point (e : Platform) (client : BaseClientProxy) (dir : Direction) (p : Int × Int) :
    mapToFraction e client dir p = mapToFraction e client dir (point dir 0 (along dir p)) := by
  simp [mapToFraction]

/-- The search looks at the coordinate along the edge and leaves the other alone. -/
private theorem getNeighbor_point (fuel : Nat) (src : BaseClientProxy) (dir : Direction) (p : Int × Int) :
    s.getNeighbor e fuel src dir p =
      (s.getNeighbor e fuel src dir (point dir 0 (along dir p))).map fun r =>
        (r.1, point dir (across dir p) (along dir r.2)) := by
  rw [getNeighbor, getNeighbor, Option.map_map, ← mapToFraction_point]
  congr 1
  funext r
  cases r with
  | none => simp
  | some n => simp [mapToPixel]

theorem getNeighbor_unique {fuel fuel' : Nat} {src : BaseClientProxy} {dir : Direction} {p : Int × Int}
    {r r' : Option BaseClientProxy × Int × Int} (h : s.getNeighbor e fuel src dir p = some r)
    (h' : s.getNeighbor e fuel' src dir p = some r') : r = r' := by
  simp only [getNeighbor, neighborLoop_eq_search, Option.map_eq_some_iff] at h h'
  obtain ⟨n, hn, rfl⟩ := h
  obtain ⟨n', hn', rfl⟩ := h'
  rw [search_unique hn hn']

private theorem mapLoop_unique {fuel fuel' steps steps' : Nat} {side : Direction} {first : BaseClientProxy} {last : Shape}
    {p : Int × Int} {r r' : BaseClientProxy × Int × Int} (h : s.mapLoop e fuel side steps first last p = some r)
    (h' : s.mapLoop e fuel' side steps' first last p = some r') : r = r' := by
  induction steps generalizing steps' first last p with
  | zero => cases h
  | succ steps ih =>
    cases steps' with
    | zero => cases h'
    | succ steps' =>
      rw [mapLoop] at h h'
      split at h
      · rename_i hreach
        rw [if_pos hreach] at h'
        exact Option.some.inj (h.symm.trans h')
      · rename_i hreach
        rw [if_neg hreach] at h'
        split at h
        · cases h
        · rename_i hn
          split at h'
          · cases h'
          · rename_i hn'
            obtain rfl := (Prod.mk.inj (getNeighbor_unique hn hn')).2
            exact Option.some.inj (h.symm.trans h')
          · rename_i hn'
            cases getNeighbor_unique hn hn'
        · rename_i hn
          split at h'
          · cases h'
          · rename_i hn'
            cases getNeighbor_unique hn hn'
          · rename_i hn'
            cases getNeighbor_unique hn hn'
            exact ih h h'

/-- More fuel does not lead elsewhere. -/
theorem mapToNeighbor_unique {fuel fuel' : Nat} {src : BaseClientProxy} {side : Direction} {p : Int × Int}
    {r r' : Option BaseClientProxy × Int × Int} (h : s.mapToNeighbor e fuel src side p = some r)
    (h' : s.mapToNeighbor e fuel' src side p = some r') : r = r' := by
  unfold mapToNeighbor at h h'
  split at h
  · cases h
  · rename_i hn
    split at h'
    · cases h'
    · rename_i hn'
      cases getNeighbor_unique hn hn'
      exact Option.some.inj (h.symm.trans h')
    · rename_i hn'
      cases getNeighbor_unique hn hn'
  · rename_i hn
    split at h'
    · cases h'
    · rename_i hn'
      cases getNeighbor_unique hn hn'
    · rename_i hn'
      cases getNeighbor_unique hn hn'
      obtain ⟨q, hq, rfl⟩ := Option.map_eq_some_iff.mp h
      obtain ⟨q', hq', rfl⟩ := Option.map_eq_some_iff.mp h'
      rw [mapLoop_unique hq hq']

/-- Without a neighbor the point is unchanged. -/
theorem getNeighbor_none {fuel : Nat} {src : BaseClientProxy} {dir : Direction} {p q : Int × Int}
    (h : s.getNeighbor e fuel src dir p = some (none, q)) : q = p := by
  obtain ⟨m, -, hm⟩ := Option.map_eq_some_iff.mp h
  cases m with
  | none => exact (Prod.mk.inj hm).2.symm
  | some m => simp at hm

theorem next_of_getNeighbor {fuel : Nat} {src dst : BaseClientProxy} {side : Direction} {p p' : Int × Int}
    (h : s.getNeighbor e fuel src side p = some (some dst, p')) :
    p' = point side (across side p) (along side p') ∧ Next e s side src (along side p) dst (along side p') := by
  rw [getNeighbor_point, Option.map_eq_some_iff] at h
  obtain ⟨⟨n, q⟩, hq, hr⟩ := h
  obtain ⟨rfl, rfl⟩ := Prod.mk.inj hr
  refine ⟨by simp, fuel, ?_⟩
  have hacross : q = point side 0 (along side q) := by
    rw [getNeighbor_point, Option.map_eq_some_iff] at hq
    obtain ⟨_, -, hr'⟩ := hq
    have := (Prod.mk.inj hr').2
    simp only [across_point] at this
    rw [← this]
    simp
  rw [hq, along_point, ← hacross]

/-- Only one neighbor answers, at one coordinate. -/
theorem next_unique {fuel : Nat} {src dst : BaseClientProxy} {side : Direction} {p : Int × Int} {b' : Int}
    {r : Option BaseClientProxy × Int × Int} (h : s.getNeighbor e fuel src side p = some r)
    (hn : Next e s side src (along side p) dst b') : r = (some dst, point side (across side p) b') := by
  rw [getNeighbor_point, Option.map_eq_some_iff] at h
  obtain ⟨q, hq, rfl⟩ := h
  obtain ⟨fuel', hf⟩ := hn
  rw [getNeighbor_unique hq hf]
  simp

/-- What the loop finds is a connected client and a position of its edge. -/
theorem neighborLoop_some {dir : Direction} {fuel : Nat} {srcName : Str} {t t' : ℚ} {client : BaseClientProxy}
    (h : s.neighborLoop dir fuel srcName t = some (some (client, t'))) :
    (∃ name, s.clients.get? name = some client) ∧ 0 ≤ t' ∧ t' < 1 := by
  induction fuel generalizing srcName t with
  | zero => cases h
  | succ fuel ih =>
    rw [neighborLoop] at h
    cases hg : s.config.getNeighbor srcName dir t with
    | none => simp [hg] at h
    | some m =>
      obtain ⟨dstName, tTmp⟩ := m
      simp only [hg] at h
      split_ifs at h
      · simp at h
      · cases hc : s.clients.get? dstName with
        | none =>
          simp only [hc] at h
          exact ih h
        | some d =>
          simp only [hc, Option.some.injEq, Prod.mk.injEq] at h
          obtain ⟨rfl, rfl⟩ := h
          exact ⟨⟨dstName, hc⟩, Config.getNeighbor_position hg⟩

/-- Every connected screen has pixels. -/
def Sized (e : Platform) (s : Server) : Prop := ∀ i ∈ s.clients.entries, 0 < (e.shape i.2).w ∧ 0 < (e.shape i.2).h

theorem Sized.edgeExtent {name : Str} {client : BaseClientProxy} (h : Sized e s)
    (hc : s.clients.get? name = some client) (side : Direction) : 0 < (e.shape client).edgeExtent side := by
  obtain ⟨j, hj, -⟩ := (s.clients.get?_eq_some_iff _ _).mp hc
  cases side <;> simp [Shape.edgeExtent, Direction.horizontal, h _ hj]

/-- The point entered lies along the edge of the neighbor. -/
theorem next_along (hs : Sized e s) {src dst : BaseClientProxy} {side : Direction} {b b' : Int}
    (h : Next e s side src b dst b') :
    (e.shape dst).edgeStart side ≤ b' ∧ b' < (e.shape dst).edgeStart side + (e.shape dst).edgeExtent side := by
  obtain ⟨fuel, h⟩ := h
  obtain ⟨n, hn, hr⟩ := Option.map_eq_some_iff.mp h
  cases n with
  | none => cases hr
  | some n =>
    obtain ⟨client, t⟩ := n
    obtain ⟨hc, hp⟩ := Prod.mk.inj hr
    obtain rfl := Option.some.inj hc
    obtain ⟨⟨name, hname⟩, ht⟩ := neighborLoop_some hn
    have hb : b' = truncate (t * (e.shape client).edgeExtent side) + (e.shape client).edgeStart side := by
      have := congrArg (along side) hp
      simpa [mapToPixel] using this.symm
    have hq : (0 : ℚ) < (e.shape client).edgeExtent side := by exact_mod_cast hs.edgeExtent hname side
    have h0 : 0 ≤ t * (e.shape client).edgeExtent side := mul_nonneg ht.1 hq.le
    have h1 : t * (e.shape client).edgeExtent side < (e.shape client).edgeExtent side := by
      simpa using mul_lt_mul_of_pos_right ht.2 hq
    have hf0 : 0 ≤ ⌊t * (e.shape client).edgeExtent side⌋ := Int.floor_nonneg.mpr h0
    have hf1 : ⌊t * (e.shape client).edgeExtent side⌋ < (e.shape client).edgeExtent side := by
      exact_mod_cast (Int.floor_le _).trans_lt h1
    rw [hb, truncate, if_pos h0]
    omega

/-- The coordinate `excess` pixels into a screen from the side that is entered. -/
def entered (a : Shape) (side : Direction) (excess : Int) : Int :=
  if side.back then a.start side + a.extent side - 1 - excess else a.start side + excess

private theorem absorbs_iff_here {side : Direction} {dst : BaseClientProxy} {b excess : Int}
    (h : excess < (e.shape dst).extent side) : Absorbs e s side dst b excess ↔ ZoneFits e s side dst b := by
  constructor
  · intro ha
    cases ha with
    | here _ hz => exact hz
    | next hle => exact absurd h (not_lt.mpr hle)
  · exact fun hz => .here h hz

/-- The walk ends on the screen that absorbs the point, or beyond the last one. -/
private theorem mapLoop_spec (hs : Sized e s) {fuel steps : Nat} {side : Direction} {dst d : BaseClientProxy}
    {last : Shape} {p q : Int × Int} {excess : Int} (h0 : 0 ≤ excess)
    (halong : (e.shape dst).edgeStart side ≤ along side p ∧
      along side p < (e.shape dst).edgeStart side + (e.shape dst).edgeExtent side)
    (hp : across side p = if side.back then -(excess + 1) else excess + last.extent side)
    (h : s.mapLoop e fuel side steps dst last p = some (d, q)) :
    ∃ excess', 0 ≤ excess' ∧ across side q = entered (e.shape d) side excess' ∧
      ((e.shape d).edgeStart side ≤ along side q ∧
        along side q < (e.shape d).edgeStart side + (e.shape d).edgeExtent side) ∧
      (Absorbs e s side dst (along side p) excess ↔
        excess' < (e.shape d).extent side ∧ ZoneFits e s side d (along side q)) := by
  induction steps generalizing dst last p excess with
  | zero => cases h
  | succ steps ih =>
    rw [mapLoop] at h
    have hreach : reaches side (e.shape dst) (advance side (e.shape dst) last (across side p)) = true ↔
        excess < (e.shape dst).extent side := by
      rw [hp, reaches, advance]
      split <;> simp only [decide_eq_true_eq] <;> omega
    have hentered : advance side (e.shape dst) last (across side p) + (e.shape dst).start side =
        entered (e.shape dst) side excess := by
      rw [hp, entered, advance]
      split <;> omega
    by_cases hlt : excess < (e.shape dst).extent side
    · rw [if_pos (hreach.mpr hlt), Option.some.injEq, Prod.mk.injEq] at h
      obtain ⟨rfl, rfl⟩ := h
      rw [across_point, along_point]
      exact ⟨excess, h0, hentered, halong, by rw [absorbs_iff_here hlt]; exact ⟨fun z => ⟨hlt, z⟩, And.right⟩⟩
    · rw [if_neg (fun q => hlt (hreach.mp q))] at h
      have hle := not_lt.mp hlt
      cases hn : s.getNeighbor e fuel dst side
          (point side (advance side (e.shape dst) last (across side p)) (along side p)) with
      | none => simp [hn] at h
      | some r =>
        obtain ⟨n, p₂⟩ := r
        cases n with
        | none =>
          have hsame := getNeighbor_none hn
          rw [hn] at h
          simp only [Option.some.injEq, Prod.mk.injEq] at h
          obtain ⟨rfl, rfl⟩ := h
          rw [across_point, along_point, hsame, along_point]
          refine ⟨excess, h0, hentered, halong, fun ha => ?_, fun ha => absurd ha.1 hlt⟩
          -- nothing lies beyond the last screen, so no later one absorbs the point
          cases ha with
          | here hlt' => exact absurd hlt' hlt
          | next _ hnext =>
            have := next_unique hn (by simpa using hnext)
            simp at this
        | some m =>
          rw [hn] at h
          obtain ⟨hp₂, hnext⟩ := next_of_getNeighbor hn
          rw [along_point] at hnext
          rw [across_point] at hp₂
          have hover : 0 ≤ excess - (e.shape dst).extent side := by omega
          have hacross : across side p₂ = if side.back then -(excess - (e.shape dst).extent side + 1)
              else excess - (e.shape dst).extent side + (e.shape dst).extent side := by
            rw [hp₂, across_point, hp, advance]
            split <;> omega
          obtain ⟨excess', h0', hq, hin, hiff⟩ := ih hover (next_along hs hnext) hacross h
          refine ⟨excess', h0', hq, hin, Iff.trans ⟨fun ha => ?_, fun ha => .next hle hnext ha⟩ hiff⟩
          cases ha with
          | here hlt' => exact absurd hlt' hlt
          | next _ hnext' ha =>
            have := next_unique hn (by simpa using hnext')
            simp only [Prod.mk.injEq, Option.some.injEq] at this
            obtain ⟨rfl, hp₂'⟩ := this
            rwa [hp₂', along_point]

/-- Leaving the jump zone keeps a point on the screen when the zone fits, and
never brings one back onto it. -/
private theorem avoidJumpZone_contains {side : Direction} {d : BaseClientProxy} {q : Int × Int} {excess : Int}
    (h0 : 0 ≤ excess) (hq : across side q = entered (e.shape d) side excess)
    (halong : (e.shape d).edgeStart side ≤ along side q ∧
      along side q < (e.shape d).edgeStart side + (e.shape d).edgeExtent side) :
    (e.shape d).contains (s.avoidJumpZone e d side q) ↔
      excess < (e.shape d).extent side ∧ ZoneFits e s side d (along side q) := by
  have hplain : (e.shape d).contains q ↔ excess < (e.shape d).extent side := by
    rw [Shape.contains_iff _ side, hq, entered]
    split <;> constructor <;> intro h <;> omega
  rw [avoidJumpZone, ZoneFits]
  by_cases hd : d = s.primaryClient
  · subst hd
    rw [if_neg (by simp)]
    dsimp only
    rw [getJumpZoneSize, if_pos rfl, ← mapToFraction_point]
    cases hn : s.hasNeighborAt s.primaryClient side.opposite (mapToFraction e s.primaryClient side q) with
    | false => simp [hplain]
    | true =>
      simp only [true_and, forall_const]
      rw [hq, entered]
      cases hb : side.back <;> simp only [if_true, if_false, Bool.false_eq_true]
      all_goals
        split
        · rw [Shape.contains_iff _ side, across_point, along_point]
          constructor <;> intro h <;> omega
        · rw [hplain]
          constructor <;> intro h <;> omega
  · rw [if_pos hd]
    simp [hplain, hd]

/-- No destination and the point unchanged, or a destination and the point on it. -/
def Landed (e : Platform) (p : Int × Int) : Option BaseClientProxy × Int × Int → Prop
  | (none, q) => q = p
  | (some dst, q) => (e.shape dst).contains q

/-- Where a point beyond an edge goes: nowhere, unchanged, or onto the destination,
exactly when the neighbors in a row absorb it. -/
theorem mapToNeighbor_lands_iff {fuel : Nat} {src : BaseClientProxy} {side : Direction} {p : Int × Int}
    {r : Option BaseClientProxy × Int × Int} (hs : Sized e s) (hout : 0 ≤ overshoot e src side p)
    (h : s.mapToNeighbor e fuel src side p = some r) :
    Landed e p r ↔
      ∀ first b, Next e s side src (along side p) first b → Absorbs e s side first b (overshoot e src side p) := by
  unfold mapToNeighbor at h
  cases hn : s.getNeighbor e fuel src side p with
  | none => simp [hn] at h
  | some r =>
    obtain ⟨n, p₁⟩ := r
    cases n with
    | none =>
      simp only [hn, Option.some.injEq] at h
      subst h
      refine ⟨fun _ first b hnext => ?_, fun _ => getNeighbor_none hn⟩
      have := next_unique hn hnext
      simp at this
    | some first =>
      simp only [hn, Option.map_eq_some_iff] at h
      obtain ⟨⟨d, q⟩, hloop, rfl⟩ := h
      obtain ⟨hp₁, hnext⟩ := next_of_getNeighbor hn
      have hstart : across side (point side (across side p₁ - (e.shape src).start side) (along side p₁)) =
          if side.back then -(overshoot e src side p + 1) else overshoot e src side p + (e.shape src).extent side := by
        rw [hp₁, across_point, across_point, overshoot]
        split <;> omega
      obtain ⟨excess', h0', hq, hin, hiff⟩ :=
        mapLoop_spec hs hout (by rw [along_point]; exact next_along hs hnext) hstart hloop
      rw [along_point] at hiff
      rw [Landed, avoidJumpZone_contains h0' hq hin, ← hiff]
      refine ⟨fun ha first' b hnext' => ?_, fun ha => ha _ _ hnext⟩
      have := next_unique hn hnext'
      simp only [Prod.mk.injEq, Option.some.injEq] at this
      obtain ⟨rfl, hp₁'⟩ := this
      rwa [hp₁', along_point] at ha

/-- A wide primary screen a with the narrow screen b on its right. -/
def narrowRight : Server :=
  let a : BaseClientProxy := ⟨0, ['a']⟩
  let config := Option.getD (do
    let c ← Config.empty.addScreen ['a']
    let c ← c.addScreen ['b']
    c.connect ['a'] .right .full ['b'] .full) .empty
  { initial config a with clients := (SortedMap.empty.insert ['a'] a).insert ['b'] ⟨1, ['b']⟩ }

def narrow : Platform :=
  { Platform.still with shape := fun client => if client.name = ['b'] then ⟨0, 0, 10, 100⟩ else ⟨0, 0, 100, 100⟩ }

theorem mapToNeighbor_lands_five : Landed narrow (105, 50) (some ⟨1, ['b']⟩, (5, 50)) := by
  have hsized : Sized narrow narrowRight := by
    unfold Sized
    decide
  have hmap : narrowRight.mapToNeighbor narrow 2 ⟨0, ['a']⟩ .right (105, 50) = some (some ⟨1, ['b']⟩, (5, 50)) := by
    decide +kernel
  refine (mapToNeighbor_lands_iff hsized (by decide) hmap).mpr ?_
  intro first b hnext
  have hn : narrowRight.getNeighbor narrow 1 ⟨0, ['a']⟩ .right (105, 50) = some (some ⟨1, ['b']⟩, (105, 50)) := by
    decide +kernel
  have hfirst := next_unique hn hnext
  obtain ⟨rfl, rfl⟩ : ⟨1, ['b']⟩ = first ∧ 50 = b := by
    simpa [point, across, Direction.horizontal] using hfirst
  exact .here (by decide) (fun h => absurd h (by decide))

/-- Moving fast over a narrow last screen ends beyond it. -/
theorem mapToNeighbor_not_lands :
    ¬ ∀ (e : Platform) (s : Server) (fuel : Nat) (src : BaseClientProxy) (side : Direction) (p : Int × Int)
      (r : Option BaseClientProxy × Int × Int), Sized e s → s.clients.get? (s.getName src) = some src →
      0 ≤ overshoot e src side p → (e.shape src).edgeStart side ≤ along side p →
      along side p < (e.shape src).edgeStart side + (e.shape src).edgeExtent side →
      s.mapToNeighbor e fuel src side p = some r → Landed e p r := by
  intro h
  have hland := h narrow narrowRight 2 ⟨0, ['a']⟩ .right (150, 50) (some ⟨1, ['b']⟩, (50, 50))
    (by unfold Sized; decide) (by decide) (by decide) (by decide)
    (by decide +kernel) (by decide +kernel)
  exact absurd hland.2.1 (by decide)

end Server
end Synergy
