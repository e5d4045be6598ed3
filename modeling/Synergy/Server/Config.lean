import Mathlib.Data.Prod.Lex
import Mathlib.Data.Rat.Floor
import Mathlib.Tactic.FieldSimp
import Mathlib.Tactic.Linarith
import Synergy.Base.NetworkAddress
import Synergy.Base.Types
import Synergy.Lib.SortedMap
import Synergy.Server.InputFilter

/-! The edges of a screen: which portion of a side leads to which portion of the
opposite side of another screen. Positions along an edge are exact fractions. -/
namespace Synergy
open Synergy.Lib

/-- A portion of an edge, half open at its end. -/
structure Interval where
  first : ℚ
  second : ℚ
  nonneg : 0 ≤ first
  lt : first < second
  le_one : second ≤ 1
  deriving DecidableEq

namespace Interval

/-- The whole edge. -/
def full : Interval := ⟨0, 1, le_refl _, zero_lt_one, le_refl _⟩

end Interval

structure CellEdge where
  name : Str
  side : Direction
  interval : Interval
  deriving DecidableEq

namespace CellEdge

/-- `operator<` compares the side and then the start of the interval. -/
def rank (e : CellEdge) : ℕ ×ₗ ℚ := toLex (e.side.toNat, e.interval.first)

def overlaps (e edge : CellEdge) : Bool :=
  let x := e.interval
  let y := edge.interval
  if e.side ≠ edge.side then false
  else (y.first ≤ x.first && x.first < y.second) || (y.first < x.second && x.second ≤ y.second) ||
    (x.first ≤ y.first && y.first < x.second) || (x.first < y.second && y.second ≤ x.second)

def isInside (e : CellEdge) (x : ℚ) : Bool := e.interval.first ≤ x && x < e.interval.second

/-- Position on the interval as a fraction of it. -/
def transform (e : CellEdge) (x : ℚ) : ℚ :=
  (x - e.interval.first) / (e.interval.second - e.interval.first)

/-- Fraction of the interval as a position on the edge. -/
def inverseTransform (e : CellEdge) (x : ℚ) : ℚ :=
  x * (e.interval.second - e.interval.first) + e.interval.first

/-- `operator==` leaves the names out. -/
def same (e x : CellEdge) : Bool := e.side = x.side && e.interval = x.interval

theorem isInside_iff (e : CellEdge) (x : ℚ) :
    e.isInside x = true ↔ e.interval.first ≤ x ∧ x < e.interval.second := by
  simp [isInside]

theorem transform_mem {e : CellEdge} {x : ℚ} (h : e.isInside x = true) :
    0 ≤ e.transform x ∧ e.transform x < 1 := by
  obtain ⟨hl, hr⟩ := (e.isInside_iff x).mp h
  have hw : 0 < e.interval.second - e.interval.first := sub_pos.mpr e.interval.lt
  exact ⟨div_nonneg (by linarith) hw.le, (div_lt_one hw).mpr (by linarith)⟩

theorem isInside_inverseTransform (e : CellEdge) {t : ℚ} (h0 : 0 ≤ t) (h1 : t < 1) :
    e.isInside (e.inverseTransform t) = true := by
  have hw : 0 < e.interval.second - e.interval.first := sub_pos.mpr e.interval.lt
  have hlo : 0 ≤ t * (e.interval.second - e.interval.first) := mul_nonneg h0 hw.le
  have hhi : t * (e.interval.second - e.interval.first) < e.interval.second - e.interval.first := by
    simpa using mul_lt_mul_of_pos_right h1 hw
  exact (e.isInside_iff _).mpr ⟨by simp only [inverseTransform]; linarith,
    by simp only [inverseTransform]; linarith⟩

end CellEdge

/-- Links of a screen, keyed by the portion of its own edge. -/
abbrev EdgeLinks := SortedMap CellEdge.rank CellEdge

/-- A `std::map` from option ids to values. -/
abbrev ScreenOptions := SortedMap (fun o : OptionID => o) OptionValue

structure Cell where
  neighbors : EdgeLinks
  options : ScreenOptions
  deriving DecidableEq

namespace Cell

def empty : Cell := ⟨.empty, .empty⟩

def hasEdge (c : Cell) (edge : CellEdge) : Bool :=
  match c.neighbors.find? edge with
  | none => false
  | some i => i.1.same edge

/-- The edge behind `edge` and the last one up to it are the only candidates. -/
def overlaps (c : Cell) (edge : CellEdge) : Bool :=
  ((c.neighbors.after edge.rank).head?.any fun i => i.1.overlaps edge) ||
    (c.neighbors.upTo edge.rank).getLast?.any fun i => i.1.overlaps edge

/-- Add a link, or nothing when it overlaps other links without replacing one exactly. -/
def add (c : Cell) (src dst : CellEdge) : Option Cell :=
  if !c.hasEdge src && c.overlaps src then none
  else some { c with neighbors := (c.neighbors.erase src).insert src dst }

def removeSide (c : Cell) (side : Direction) : Cell :=
  { c with neighbors := c.neighbors.filter fun j _ => j.side ≠ side }

/-- Remove the first link of the side that covers the position. -/
def removeAt (c : Cell) (side : Direction) (position : ℚ) : Cell :=
  match c.neighbors.entries.find? fun j => j.1.side = side && j.1.isInside position with
  | none => c
  | some j => { c with neighbors := c.neighbors.erase j.1 }

/-- Remove the links to a name; `eqName` is how the name is compared. -/
def removeName (c : Cell) (eqName : Str → Bool) : Cell :=
  { c with neighbors := c.neighbors.filter fun _ j => !eqName j.name }

def rename (c : Cell) (eqName : Str → Bool) (newName : Str) : Cell :=
  { c with neighbors := c.neighbors.mapValues fun _ j => if eqName j.name then { j with name := newName } else j }

/-- The link whose edge covers the position on the given side. -/
def getLink (c : Cell) (side : Direction) (position : ℚ) : Option (CellEdge × CellEdge) :=
  match (c.neighbors.upTo (toLex (side.toNat, position))).getLast? with
  | none => none
  | some i => if i.1.side = side && i.1.isInside position then some i else none

/-- A link that is found belongs to the cell and covers the position. -/
theorem getLink_eq_some {c : Cell} {side : Direction} {position : ℚ} {i : CellEdge × CellEdge}
    (h : c.getLink side position = some i) :
    i ∈ c.neighbors.entries ∧ i.1.side = side ∧ i.1.isInside position = true := by
  unfold getLink at h
  split at h
  · cases h
  · rename_i j hj
    split_ifs at h with hc
    obtain rfl : j = i := by simpa using h
    have hm := List.mem_of_getLast? hj
    exact ⟨((c.neighbors.mem_upTo _ _).mp hm).1, by simpa using hc⟩

end Cell
end Synergy

/-! The server configuration: screens, the names they go by, their links and
options. Manipulators that report failure give nothing then. -/
namespace Synergy
open Synergy.Lib InputFilter

abbrev CellMap := SortedMap Str.fold Cell
abbrev NameMap := SortedMap Str.fold Str

/-- The canonical name, or the empty string for an unknown name. -/
def NameMap.getCanonicalName (names : NameMap) (name : Str) : Str := (names.get? name).getD []

structure Config where
  map : CellMap
  nameToCanonicalName : NameMap
  synergyAddress : NetworkAddress
  globalOptions : ScreenOptions
  inputFilter : List Rule
  hasLockToScreenAction : Bool
  deriving DecidableEq

namespace Config

def empty : Config := ⟨.empty, .empty, .empty, .empty, [], false⟩

def getCanonicalName (c : Config) (name : Str) : Str := c.nameToCanonicalName.getCanonicalName name

/-- A name, resolved through the table it is built from and compared through it. -/
structure Name where
  config : NameMap
  name : Str

def Name.of (config : NameMap) (name : Str) : Name := ⟨config, config.getCanonicalName name⟩

/-- `Name::operator==`. -/
def Name.eq (n : Name) (name : Str) : Bool := CaselessCmp.equal (n.config.getCanonicalName name) n.name

def addScreen (c : Config) (name : Str) : Option Config :=
  if c.nameToCanonicalName.contains name then none
  else some { c with
    map := c.map.insert name .empty
    nameToCanonicalName := c.nameToCanonicalName.insert name name }

def renameScreen (c : Config) (oldName newName : Str) : Option Config :=
  let oldCanonical := c.getCanonicalName oldName
  match c.map.find? oldCanonical with
  | none => none
  | some index =>
    if !CaselessCmp.equal oldName newName && c.nameToCanonicalName.contains newName then none
    else
      let map := (c.map.erase index.1).insert newName index.2
      let names := (c.nameToCanonicalName.erase oldCanonical).insert newName newName
      let oldNameObj := Name.of names oldName
      some { c with
        map := map.mapValues fun _ cell => cell.rename oldNameObj.eq newName
        nameToCanonicalName :=
          -- an alias as the old name leaves the targets of all aliases alone
          if CaselessCmp.equal oldName oldCanonical then
            names.mapValues fun _ target => if CaselessCmp.equal target oldCanonical then newName else target
          else names }

def removeScreen (c : Config) (name : Str) : Config :=
  let canonical := c.getCanonicalName name
  match c.map.find? canonical with
  | none => c
  | some index =>
    let nameObj := Name.of c.nameToCanonicalName name
    { c with
      map := (c.map.erase index.1).mapValues fun _ cell => cell.removeName nameObj.eq
      nameToCanonicalName := c.nameToCanonicalName.filter fun _ target => target ≠ canonical }

def removeAllScreens (c : Config) : Config := { c with map := .empty, nameToCanonicalName := .empty }

def addAlias (c : Config) (canonical aliasName : Str) : Option Config :=
  if c.nameToCanonicalName.contains aliasName then none
  else if !c.map.contains canonical then none
  else some { c with nameToCanonicalName := c.nameToCanonicalName.insert aliasName canonical }

def removeAlias (c : Config) (aliasName : Str) : Option Config :=
  if c.map.contains aliasName then none
  else if !c.nameToCanonicalName.contains aliasName then none
  else some { c with nameToCanonicalName := c.nameToCanonicalName.erase aliasName }

def removeAliases (c : Config) (canonical : Str) : Option Config :=
  if !c.map.contains canonical then none
  else some { c with
    nameToCanonicalName := c.nameToCanonicalName.filter fun name target => !(target = canonical && name ≠ canonical) }

def removeAllAliases (c : Config) : Config := { c with nameToCanonicalName := c.map.mapValues fun name _ => name }

def connect (c : Config) (srcName : Str) (srcSide : Direction) (src : Interval) (dstName : Str) (dst : Interval) :
    Option Config :=
  match c.map.find? (c.getCanonicalName srcName) with
  | none => none
  | some index =>
    match index.2.add ⟨[], srcSide, src⟩ ⟨dstName, srcSide, dst⟩ with
    | none => none
    | some cell => some { c with map := c.map.mapValues fun k v => if k = index.1 then cell else v }

def addOption (c : Config) (name : Str) (option : OptionID) (value : OptionValue) : Option Config :=
  if name.isEmpty then some { c with globalOptions := c.globalOptions.insert option value }
  else match c.map.find? name with
    | none => none
    | some index => some { c with map := c.map.mapValues fun k v =>
        if k = index.1 then { v with options := v.options.insert option value } else v }

/-- Change the options of the store of that name: the global one for the empty name, otherwise
the one of the screen. -/
def withOptions (c : Config) (name : Str) (change : ScreenOptions → ScreenOptions) : Option Config :=
  if name.isEmpty then some { c with globalOptions := change c.globalOptions }
  else match c.map.find? name with
    | none => none
    | some index => some { c with map := c.map.mapValues fun k v =>
        if k = index.1 then { v with options := change v.options } else v }

def removeOption (c : Config) (name : Str) (option : OptionID) : Option Config :=
  c.withOptions name fun options => options.erase option

def removeOptions (c : Config) (name : Str) : Option Config := c.withOptions name fun _ => .empty

def isScreen (c : Config) (name : Str) : Bool := c.nameToCanonicalName.contains name

def isCanonicalName (c : Config) (name : Str) : Bool :=
  !name.isEmpty && CaselessCmp.equal (c.getCanonicalName name) name

/-- The screen beyond the edge and the position on it; nothing when there is no
link. The name is empty when the link leads to a name that is unknown. -/
def getNeighbor (c : Config) (srcName : Str) (srcSide : Direction) (position : ℚ) : Option (Str × ℚ) :=
  match c.map.get? (c.getCanonicalName srcName) with
  | none => none
  | some cell =>
    match cell.getLink srcSide position with
    | none => none
    | some (srcEdge, dstEdge) =>
      some (c.getCanonicalName dstEdge.name, dstEdge.inverseTransform (srcEdge.transform position))

def hasNeighborIn (c : Config) (srcName : Str) (srcSide : Direction) (interval : Interval) : Bool :=
  match c.map.get? (c.getCanonicalName srcName) with
  | none => false
  | some cell => cell.overlaps ⟨[], srcSide, interval⟩

def hasNeighbor (c : Config) (srcName : Str) (srcSide : Direction) : Bool :=
  c.hasNeighborIn srcName srcSide .full

/-- The global options for the empty name, otherwise those of the screen. -/
def getOptions (c : Config) (name : Str) : Option ScreenOptions :=
  if name.isEmpty then some c.globalOptions else (c.map.get? name).map Cell.options

end Config
end Synergy
