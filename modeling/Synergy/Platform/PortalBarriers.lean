import Mathlib.Data.Rat.Floor
import Synergy.Lib.Nearest
import Synergy.Platform.EiScreenShape

/-! The barriers of the input capture portal: zones of outputs, the barriers at their sides, and how positions are
mapped between the zones and the screen. -/
namespace Synergy
open Lib

inductive BarrierSide where
  | left | right | top | bottom
  deriving DecidableEq

namespace BarrierSide

/-- `DirectionMask` of the side. -/
def mask : BarrierSide → Nat
  | left => 1 <<< 1
  | right => 1 <<< 2
  | top => 1 <<< 3
  | bottom => 1 <<< 4

/-- The barrier is crossed along the x axis. -/
def isHorizontal : BarrierSide → Bool
  | left | right => true
  | top | bottom => false

/-- The sides in the order in which they are looked at. -/
def all : List BarrierSide := [left, right, top, bottom]

def isActive (activeSides : Nat) (side : BarrierSide) : Bool := activeSides &&& side.mask ≠ 0

end BarrierSide

/-- A zone has a positive size, and its pixels have coordinates of 32 bits. -/
structure PortalZone where
  x : Int
  y : Int
  width : Nat
  height : Nat
  width_pos : 0 < width
  height_pos : 0 < height
  x_ge : -2 ^ 31 ≤ x
  y_ge : -2 ^ 31 ≤ y
  right_lt : x + width ≤ 2 ^ 31
  bottom_lt : y + height ≤ 2 ^ 31
  deriving DecidableEq

namespace PortalZone

def right (zone : PortalZone) : Int := zone.x + zone.width - 1

def bottom (zone : PortalZone) : Int := zone.y + zone.height - 1

def Contains (zone : PortalZone) (p : ℚ × ℚ) : Prop :=
  (zone.x ≤ p.1 ∧ p.1 ≤ zone.right) ∧ zone.y ≤ p.2 ∧ p.2 ≤ zone.bottom

instance (zone : PortalZone) (p : ℚ × ℚ) : Decidable (zone.Contains p) :=
  inferInstanceAs (Decidable ((_ ∧ _) ∧ _ ∧ _))

end PortalZone

structure BarrierInfo where
  id : Nat
  side : BarrierSide
  zone : PortalZone
  x1 : Int
  y1 : Int
  x2 : Int
  y2 : Int
  deriving DecidableEq

structure Bounds where
  left : Int
  top : Int
  right : Int
  bottom : Int

/-- `std::lround`: halves go away from zero. -/
def lround (q : ℚ) : Int := if 0 ≤ q then ⌊q + 1 / 2⌋ else -⌊-q + 1 / 2⌋

def scaleCoordinateBetweenRanges (value : ℚ) (sourceMin sourceMax destinationMin destinationMax : Int) : Int :=
  if sourceMax ≤ sourceMin ∨ destinationMax ≤ destinationMin then destinationMin
  else
    let clamped := clamp (sourceMin : ℚ) sourceMax value
    let fraction := (clamped - sourceMin) / (sourceMax - sourceMin)
    let mapped := lround (destinationMin + fraction * (destinationMax - destinationMin))
    clamp destinationMin destinationMax mapped

def addBarrier (id : Nat) (side : BarrierSide) (zone : PortalZone) : BarrierInfo :=
  match side with
  | .left => ⟨id, side, zone, zone.x, zone.y, zone.x, zone.bottom⟩
  | .right => ⟨id, side, zone, zone.x + zone.width, zone.y, zone.x + zone.width, zone.bottom⟩
  | .top => ⟨id, side, zone, zone.x, zone.y, zone.right, zone.y⟩
  | .bottom => ⟨id, side, zone, zone.x, zone.y + zone.height, zone.right, zone.y + zone.height⟩

/-- The barriers of the zones, numbered on from an id. -/
def handleZonesChanged (activeSides : Nat) : Nat → List PortalZone → List BarrierInfo
  | _, [] => []
  | id, zone :: zones =>
    let added := ((BarrierSide.all.filter (BarrierSide.isActive activeSides)).zipIdx (id + 1)).map fun (side, id) =>
      addBarrier id side zone
    added ++ handleZonesChanged activeSides (id + added.length) zones

/-- The barriers that the portal refuses are dropped. -/
def handleSetPointerBarriers (failed : List Nat) (barrierInfo : List BarrierInfo) : List BarrierInfo :=
  barrierInfo.filter fun info => info.id ∉ failed

def getPortalBounds (barrierInfo : List BarrierInfo) : Option Bounds :=
  if barrierInfo.isEmpty then none
  else
    some
      { left := barrierInfo.foldl (fun left info => min left info.zone.x) (2 ^ 31 - 1)
        top := barrierInfo.foldl (fun top info => min top info.zone.y) (2 ^ 31 - 1)
        right := barrierInfo.foldl (fun right info => max right info.zone.right) (-2 ^ 31)
        bottom := barrierInfo.foldl (fun bottom info => max bottom info.zone.bottom) (-2 ^ 31) }

/-- The last pixels of a screen. -/
def Rect.right (screen : Rect) : Int := screen.x + screen.w - 1

def Rect.bottom (screen : Rect) : Int := screen.y + screen.h - 1

/-- How far a position is from a side of the screen. -/
def sideDistance (screen : Rect) (x y : ℚ) : BarrierSide → ℚ
  | .left => |x - screen.x|
  | .right => |x - screen.right|
  | .top => |y - screen.y|
  | .bottom => |y - screen.bottom|

/-- The active side that is closest to a position. -/
def closestSide (activeSides : Nat) (screen : Rect) (x y : ℚ) : Option BarrierSide :=
  (BarrierSide.all.filter (BarrierSide.isActive activeSides)).foldl (fun side candidate =>
    match side with
    | none => some candidate
    | some side => if sideDistance screen x y candidate < sideDistance screen x y side then candidate else side) none

/-- The position of the portal, of which the side of the barrier is left open. -/
def portalPosition (screen : Rect) (bounds : Bounds) (x y : ℚ) : Int × Int :=
  (scaleCoordinateBetweenRanges x screen.x screen.right bounds.left bounds.right,
    scaleCoordinateBetweenRanges y screen.y screen.bottom bounds.top bounds.bottom)

/-- How far a position of the portal is from a barrier, along the barrier. -/
def barrierDistance (side : BarrierSide) (p : Int × Int) (info : BarrierInfo) : Int :=
  if side.isHorizontal then gap info.zone.y info.zone.bottom p.2 else gap info.zone.x info.zone.right p.1

def getClosestReleaseBarrier (activeSides : Nat) (barrierInfo : List BarrierInfo) (x y : ℚ) (screen : Rect)
    (bounds : Bounds) : Option BarrierInfo :=
  match closestSide activeSides screen x y with
  | none => none
  | some side =>
    cheapest (barrierDistance side (portalPosition screen bounds x y)) (2 ^ 31 - 1)
      (barrierInfo.filter fun info => info.side = side)

/-- The barrier that is activated decides which edge of the screen a position is on. -/
def toEdge (screen : Rect) (p : Int × Int) : BarrierSide → Int × Int
  | .left => (screen.x, p.2)
  | .right => (screen.right, p.2)
  | .top => (p.1, screen.y)
  | .bottom => (p.1, screen.bottom)

/-- Without the barrier the position is taken as it is, cut to integers. -/
def mapPortalActivationToScreenPosition (barrierInfo : List BarrierInfo) (screen : Rect) (barrierId : Nat)
    (rawX rawY : ℚ) : Int × Int :=
  let x := rawX.num.tdiv rawX.den
  let y := rawY.num.tdiv rawY.den
  match barrierInfo.find? fun info => info.id = barrierId with
  | none => (x, y)
  | some info =>
    let p :=
      match getPortalBounds barrierInfo with
      | some bounds => (scaleCoordinateBetweenRanges rawX bounds.left bounds.right screen.x screen.right,
          scaleCoordinateBetweenRanges rawY bounds.top bounds.bottom screen.y screen.bottom)
      | none => (clamp info.zone.x info.zone.right x, clamp info.zone.y info.zone.bottom y)
    toEdge screen p info.side

/-- The position to which the cursor is released, within some bounds. -/
def releaseWithin (bounds : Bounds) (activeSides : Nat) (barrierInfo : List BarrierInfo) (screen : Rect)
    (jumpZoneSize : Int) (x y : ℚ) : Int × Int :=
  let (mappedX, mappedY) := portalPosition screen bounds x y
  match getClosestReleaseBarrier activeSides barrierInfo x y screen bounds with
  | none => (mappedX, mappedY)
  | some info =>
    match info.side with
    | .left => (min (info.zone.x + jumpZoneSize) info.zone.right, clamp info.zone.y info.zone.bottom mappedY)
    | .right => (max (info.zone.right - jumpZoneSize) info.zone.x, clamp info.zone.y info.zone.bottom mappedY)
    | .top => (clamp info.zone.x info.zone.right mappedX, min (info.zone.y + jumpZoneSize) info.zone.bottom)
    | .bottom => (clamp info.zone.x info.zone.right mappedX, max (info.zone.bottom - jumpZoneSize) info.zone.y)

/-- Without bounds the position stays as it is. -/
def mapPortalReleasePosition (activeSides : Nat) (barrierInfo : List BarrierInfo) (screen : Rect) (jumpZoneSize : Int)
    (x y : ℚ) : ℚ × ℚ :=
  match getPortalBounds barrierInfo with
  | none => (x, y)
  | some bounds =>
    let (mappedX, mappedY) := releaseWithin bounds activeSides barrierInfo screen jumpZoneSize x y
    (mappedX, mappedY)

end Synergy
