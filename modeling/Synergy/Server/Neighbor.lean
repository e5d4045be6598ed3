import Synergy.Lib.Search
import Synergy.Server.State

/-! From a point beyond an edge to the screen on the other side. The loops of the
source have no bound of their own, so they run on fuel and give nothing when it
runs out. -/
namespace Synergy
open Synergy.Lib

/-- Conversion to an integer drops the fraction. -/
def truncate (q : ℚ) : Int := if 0 ≤ q then ⌊q⌋ else ⌈q⌉

/-- The coordinate that changes when the edge is crossed. -/
def across (side : Direction) (p : Int × Int) : Int := if side.horizontal then p.1 else p.2

/-- The coordinate along the edge. -/
def along (side : Direction) (p : Int × Int) : Int := if side.horizontal then p.2 else p.1

/-- The point with the given coordinates across and along an edge. -/
def point (side : Direction) (a b : Int) : Int × Int := if side.horizontal then (a, b) else (b, a)

@[simp] theorem across_point (side : Direction) (a b : Int) : across side (point side a b) = a := by
  cases side <;> rfl

@[simp] theorem along_point (side : Direction) (a b : Int) : along side (point side a b) = b := by
  cases side <;> rfl

@[simp] theorem point_across_along (side : Direction) (p : Int × Int) :
    point side (across side p) (along side p) = p := by
  cases side <;> rfl

theorem Shape.contains_iff (a : Shape) (side : Direction) (p : Int × Int) :
    a.contains p ↔ (a.start side ≤ across side p ∧ across side p < a.start side + a.extent side) ∧
      a.edgeStart side ≤ along side p ∧ along side p < a.edgeStart side + a.edgeExtent side := by
  cases side <;> simp only [Shape.contains, Shape.start, Shape.extent, Shape.edgeStart, Shape.edgeExtent, across,
    along, Direction.horizontal, Bool.false_eq_true, if_true, if_false] <;> tauto

namespace Server
variable (e : Platform) (fuel : Nat) (s : Server)

/-- The middle of the pixel as a fraction of the edge. -/
def mapToFraction (client : BaseClientProxy) (dir : Direction) (p : Int × Int) : ℚ :=
  let a := e.shape client
  ((along dir p - a.edgeStart dir : Int) + 1 / 2) / (a.edgeExtent dir : ℚ)

/-- The pixel of an edge at a fraction of it. -/
def mapToPixel (client : BaseClientProxy) (dir : Direction) (f : ℚ) (p : Int × Int) : Int × Int :=
  let a := e.shape client
  point dir (across dir p) (truncate (f * a.edgeExtent dir) + a.edgeStart dir)

/-- Skip unconnected screens; the inner nothing stands for the null pointer. -/
def neighborLoop (dir : Direction) : Nat → Str → ℚ → Option (Option (BaseClientProxy × ℚ))
  | 0, _, _ => none
  | fuel + 1, srcName, t =>
    match s.config.getNeighbor srcName dir t with
    | none => some none
    | some (dstName, tTmp) =>
      if dstName.isEmpty then some none
      else match s.clients.get? dstName with
        | some client => some (some (client, tTmp))
        | none => neighborLoop dir fuel dstName tTmp

/-- The closest connected neighbor and the point on its edge, if there is one. -/
def getNeighbor (src : BaseClientProxy) (dir : Direction) (p : Int × Int) :
    Option (Option BaseClientProxy × Int × Int) :=
  (s.neighborLoop dir fuel (s.getName src) (mapToFraction e src dir p)).map fun
    | none => (none, p)
    | some (client, t) => (some client, mapToPixel e client dir t p)

/-- There is a link to a known screen at that position of the edge. -/
def hasNeighborAt (client : BaseClientProxy) (dir : Direction) (t : ℚ) : Bool :=
  match s.config.getNeighbor (s.getName client) dir t with
  | none => false
  | some (dstName, _) => !dstName.isEmpty

/-- Move in from an edge of the primary screen that can provoke a jump back. -/
def avoidJumpZone (dst : BaseClientProxy) (dir : Direction) (p : Int × Int) : Int × Int :=
  if dst ≠ s.primaryClient then p
  else
    let a := e.shape dst
    let z := s.getJumpZoneSize e dst
    let hasNeighbor := s.hasNeighborAt dst dir.opposite (mapToFraction e dst dir p)
    let last := a.start dir + a.extent dir - 1 - z
    let first := a.start dir + z
    if dir.back then
      if hasNeighbor ∧ last < across dir p then point dir last (along dir p) else p
    else
      if hasNeighbor ∧ across dir p < first then point dir first (along dir p) else p

/-- A coordinate relative to the last screen, relative to the next one. -/
def advance (side : Direction) (next last : Shape) (v : Int) : Int :=
  if side.back then v + next.extent side else v - last.extent side

/-- A coordinate relative to a screen is not beyond its far edge. -/
def reaches (side : Direction) (a : Shape) (v : Int) : Bool := if side.back then 0 ≤ v else v < a.extent side

/-- Walk over the neighbors until the point is on one of them, with the point
across the edge relative to the last screen. When the neighbors run out the
point stays where it is relative to the last one. -/
def mapLoop (side : Direction) : Nat → BaseClientProxy → Shape → Int × Int → Option (BaseClientProxy × Int × Int)
  | 0, _, _, _ => none
  | steps + 1, dst, last, p =>
    let a := e.shape dst
    let v := advance side a last (across side p)
    if reaches side a v then some (dst, point side (v + a.start side) (along side p))
    else
      match s.getNeighbor e fuel dst side (point side v (along side p)) with
      | none => none
      | some (none, p) => some (dst, point side (v + a.start side) (along side p))
      | some (some next, p) => mapLoop side steps next a p

/-- The screen that a point beyond an edge of `src` lies on, and the point there. -/
def mapToNeighbor (src : BaseClientProxy) (srcSide : Direction) (p : Int × Int) :
    Option (Option BaseClientProxy × Int × Int) :=
  match s.getNeighbor e fuel src srcSide p with
  | none => none
  | some (none, p) => some (none, p)
  | some (some dst, p) =>
    let a := e.shape src
    let p := point srcSide (across srcSide p - a.start srcSide) (along srcSide p)
    (s.mapLoop e fuel srcSide fuel dst a p).map fun (dst, p) => (some dst, s.avoidJumpZone e dst srcSide p)

variable {e fuel s} {t : Server}

private theorem neighborLoop_congr (hc : t.config = s.config) (hl : t.clients = s.clients) (dir : Direction)
    (srcName : Str) (f : ℚ) : t.neighborLoop dir fuel srcName f = s.neighborLoop dir fuel srcName f := by
  induction fuel generalizing srcName f with
  | zero => rfl
  | succ fuel ih =>
    simp only [neighborLoop, hc, hl]
    split
    · rfl
    · split
      · rfl
      · split
        · rfl
        · exact ih _ _

theorem getNeighbor_congr (hc : t.config = s.config) (hl : t.clients = s.clients) (src : BaseClientProxy)
    (dir : Direction) (p : Int × Int) : t.getNeighbor e fuel src dir p = s.getNeighbor e fuel src dir p := by
  simp only [getNeighbor, getName, hc, neighborLoop_congr hc hl]

private theorem mapLoop_congr (hc : t.config = s.config) (hl : t.clients = s.clients) (side : Direction) (steps : Nat)
    (first : BaseClientProxy) (last : Shape) (p : Int × Int) :
    t.mapLoop e fuel side steps first last p = s.mapLoop e fuel side steps first last p := by
  induction steps generalizing first last p with
  | zero => rfl
  | succ steps ih => simp only [mapLoop, getNeighbor_congr hc hl, ih]

private theorem avoidJumpZone_congr (hp : t.primaryClient = s.primaryClient) (hc : t.config = s.config)
    (dst : BaseClientProxy) (dir : Direction) (p : Int × Int) : t.avoidJumpZone e dst dir p = s.avoidJumpZone e dst dir p := by
  have hzone : t.getJumpZoneSize e dst = s.getJumpZoneSize e dst := by rw [getJumpZoneSize, getJumpZoneSize, hp]
  have hlink : t.hasNeighborAt dst dir.opposite (mapToFraction e dst dir p) =
      s.hasNeighborAt dst dir.opposite (mapToFraction e dst dir p) := by
    simp only [hasNeighborAt, getName, hc]
  simp only [avoidJumpZone, hzone, hlink, hp]

/-- Where a point lies depends on the links and on who is connected only. -/
theorem mapToNeighbor_congr (hp : t.primaryClient = s.primaryClient) (hc : t.config = s.config)
    (hl : t.clients = s.clients) (src : BaseClientProxy) (side : Direction) (p : Int × Int) :
    t.mapToNeighbor e fuel src side p = s.mapToNeighbor e fuel src side p := by
  simp only [mapToNeighbor, getNeighbor_congr hc hl, mapLoop_congr hc hl, avoidJumpZone_congr hp hc]

end Server
end Synergy

/-! When the search for a connected neighbor ends. Unconnected screens are skipped
without a record of those visited, so links among them can form a trap. -/
namespace Synergy
open Synergy.Lib

namespace Server
variable {e : Platform} {s : Server}

/-- One turn of the loop: from an edge position to one on an unconnected screen,
or to the result. -/
def hop (s : Server) (dir : Direction) (p : Str × ℚ) : (Str × ℚ) ⊕ Option (BaseClientProxy × ℚ) :=
  match s.config.getNeighbor p.1 dir p.2 with
  | none => .inr none
  | some (dstName, tTmp) =>
    if dstName.isEmpty then .inr none
    else match s.clients.get? dstName with
      | some client => .inr (some (client, tTmp))
      | none => .inl (dstName, tTmp)

theorem neighborLoop_eq_search (dir : Direction) (fuel : Nat) (srcName : Str) (t : ℚ) :
    s.neighborLoop dir fuel srcName t = search (s.hop dir) fuel (srcName, t) := by
  induction fuel generalizing srcName t with
  | zero => rfl
  | succ fuel ih =>
    rw [neighborLoop, search, hop]
    cases s.config.getNeighbor srcName dir t with
    | none => rfl
    | some n =>
      obtain ⟨dstName, tTmp⟩ := n
      dsimp only
      split
      · rfl
      · cases s.clients.get? dstName with
        | none => exact ih dstName tTmp
        | some client => rfl

theorem hop_eq_inl_iff (dir : Direction) (p q : Str × ℚ) :
    s.hop dir p = .inl q ↔
      s.config.getNeighbor p.1 dir p.2 = some q ∧ q.1 ≠ [] ∧ s.clients.contains q.1 = false := by
  unfold hop
  cases hn : s.config.getNeighbor p.1 dir p.2 with
  | none => simp
  | some n =>
    obtain ⟨dstName, tTmp⟩ := n
    dsimp only
    by_cases he : dstName = []
    · subst he
      simp only [List.isEmpty_nil, if_true, reduceCtorEq, Option.some.injEq, false_iff]
      rintro ⟨rfl, hne, -⟩
      exact hne rfl
    · rw [if_neg (by simpa using he)]
      cases hc : s.clients.get? dstName with
      | some client =>
        simp only [reduceCtorEq, Option.some.injEq, false_iff]
        rintro ⟨rfl, -, hf⟩
        simp [SortedMap.contains_eq_isSome_get?, hc] at hf
      | none =>
        simp only [Sum.inl.injEq, Option.some.injEq]
        refine ⟨fun h => ⟨h, h ▸ he, ?_⟩, And.left⟩
        rw [← h, SortedMap.contains_eq_isSome_get?, hc]
        rfl

/-- Edge positions each of which is linked, in the direction, to another one of
them on a screen that is not connected. -/
def Trapped (s : Server) (dir : Direction) (T : Set (Str × ℚ)) : Prop :=
  ∀ p ∈ T, ∃ q ∈ T, s.config.getNeighbor p.1 dir p.2 = some q ∧ q.1 ≠ [] ∧ s.clients.contains q.1 = false

/-- The search returns exactly when the point it starts from is in no trap. -/
theorem getNeighbor_returns_iff (e : Platform) (s : Server) (src : BaseClientProxy) (dir : Direction)
    (p : Int × Int) :
    (∃ fuel r, s.getNeighbor e fuel src dir p = some r) ↔
      ¬ ∃ T, (s.getName src, mapToFraction e src dir p) ∈ T ∧ s.Trapped dir T := by
  have htrap : ∀ T, s.Trapped dir T ↔ Trap (s.hop dir) T := fun T => by simp [Trapped, Trap, hop_eq_inl_iff]
  simp only [getNeighbor, neighborLoop_eq_search, htrap, ← search_returns_iff, Option.map_eq_some_iff]
  constructor
  · rintro ⟨fuel, _, r, h, -⟩
    exact ⟨fuel, r, h⟩
  · rintro ⟨fuel, r, h⟩
    exact ⟨fuel, _, r, h, rfl⟩

/-- Screen a leads to the unconnected screen b, which leads to itself. -/
def selfLinked : Config :=
  Option.getD (do
    let c ← Config.empty.addScreen ['a']
    let c ← c.addScreen ['b']
    let c ← c.connect ['a'] .right .full ['b'] .full
    c.connect ['b'] .right .full ['b'] .full) .empty

theorem getNeighbor_not_returns :
    ¬ ∀ (e : Platform) (s : Server) (src : BaseClientProxy) (dir : Direction) (p : Int × Int),
      s.clients.get? (s.getName src) = some src → ∃ fuel r, s.getNeighbor e fuel src dir p = some r := by
  intro h
  let src : BaseClientProxy := ⟨0, ['a']⟩
  let s : Server := { initial selfLinked src with clients := SortedMap.empty.insert ['a'] src }
  have hreturns := (getNeighbor_returns_iff .still s src .right (99, 50)).mp (h _ _ _ _ _ (by decide))
  refine hreturns ⟨{(['a'], 101 / 200), (['b'], 101 / 200)}, ?_, ?_⟩
  · have : (s.getName src, mapToFraction .still src .right (99, 50)) = (['a'], 101 / 200) := by decide +kernel
    rw [this]
    exact .inl rfl
  · rintro p (rfl | rfl) <;> exact ⟨(['b'], 101 / 200), .inr rfl, by decide +kernel⟩

end Server
end Synergy
