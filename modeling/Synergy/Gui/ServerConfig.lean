import Mathlib.Data.List.Basic
import Synergy.Base.Text

/-! The grid of screens in the settings of the server. An access outside of the grid and a
division by zero give nothing. -/
namespace Synergy.Gui

/-- A screen; what else is set for it is left open. A screen without a name is an unused cell. -/
structure Screen (ρ : Type) where
  name : Str
  isServer : Bool
  rest : ρ
  deriving DecidableEq

variable {ρ : Type} [Inhabited ρ]

namespace Screen

/-- The constructor from a name. -/
def ofName (name : Str) : Screen ρ := ⟨name, false, default⟩

def isNull (s : Screen ρ) : Bool := s.name.isEmpty

def markAsServer (s : Screen ρ) : Screen ρ := { s with isServer := true }

def setName (s : Screen ρ) (name : Str) : Screen ρ := { s with name := name }

/-- A new screen that is loaded: one without a name has nothing else. -/
def loadSettings (name : Str) (rest : ρ) : Screen ρ := ⟨name, false, if name.isEmpty then default else rest⟩

end Screen

/-- The cells of the grid row by row, and how many of them the list takes for a row. -/
structure ScreenList (ρ : Type) where
  width : Int
  cells : List (Screen ρ)
  deriving DecidableEq

def UNSET : Int := -1

/-- The indexes of the neighbors of a cell: left, right, top, bottom, and then the diagonal ones. Without
a cell only the first one is unset and the others are zero. -/
def getNeighborsIndexes (serverIndex width size : Int) : Option (List Int) :=
  if 0 ≤ serverIndex ∧ serverIndex < size then
    if width = 0 then none
    else
      let left := if (serverIndex - 1).tmod width ≠ width - 1 then serverIndex - 1 else UNSET
      let right := if (serverIndex + 1).tmod width ≠ 0 then serverIndex + 1 else UNSET
      let top := if 0 ≤ serverIndex - width then serverIndex - width else UNSET
      let bottom := if serverIndex + width < size then serverIndex + width else UNSET
      some [left, right, top, bottom,
        if top ≠ UNSET ∧ left ≠ UNSET then top - 1 else UNSET,
        if top ≠ UNSET ∧ right ≠ UNSET then top + 1 else UNSET,
        if bottom ≠ UNSET ∧ right ≠ UNSET then bottom + 1 else UNSET,
        if bottom ≠ UNSET ∧ left ≠ UNSET then bottom - 1 else UNSET]
  else some [UNSET, 0, 0, 0, 0, 0, 0, 0]

/-- The first cell that is marked as the server. -/
def getServerIndex (cells : List (Screen ρ)) : Int :=
  match cells.findIdx? Screen.isServer with
  | some i => i
  | none => -1

/-- The index is inside the grid and its cell is unused. -/
def isFree (cells : List (Screen ρ)) (index : Int) : Bool :=
  0 ≤ index && (cells[index.toNat]?).any Screen.isNull

def addScreenToFirstEmpty (cells : List (Screen ρ)) (newScreen : Screen ρ) : List (Screen ρ) :=
  match cells.findIdx? Screen.isNull with
  | some i => cells.set i newScreen
  | none => cells

def ScreenList.addScreenByPriority (l : ScreenList ρ) (newScreen : Screen ρ) : Option (ScreenList ρ) :=
  (getNeighborsIndexes (getServerIndex l.cells) l.width l.cells.length).map fun indexes =>
    match indexes.find? (isFree l.cells) with
    | some index => { l with cells := l.cells.set index.toNat newScreen }
    | none => { l with cells := addScreenToFirstEmpty l.cells newScreen }

structure ServerConfig (ρ : Type) where
  screens : ScreenList ρ
  columns : Nat
  rows : Nat
  deriving DecidableEq

/-- What the settings hold of the grid. -/
structure StoredGrid (ρ : Type) where
  numColumns : Nat
  numRows : Nat
  screens : List (Str × ρ)

def serverDefaultIndex : Nat := 7

namespace ServerConfig

/-- A configuration that is constructed with a number of columns and recalled from the settings, where the
server has a name. -/
def recalled (columns : Int) (stored : StoredGrid ρ) (serverName : Str) : ServerConfig ρ :=
  let load (e : Str × ρ) : Screen ρ :=
    if serverName = e.1 then (Screen.loadSettings e.1 e.2).markAsServer else Screen.loadSettings e.1 e.2
  { screens := ⟨columns, stored.screens.map load ++
      List.replicate (stored.numColumns * stored.numRows - stored.screens.length) (Screen.ofName [])⟩
    columns := stored.numColumns
    rows := stored.numRows }

def findScreenName (cells : List (Screen ρ)) (name : Str) : Option Nat :=
  cells.findIdx? fun s => !s.isNull && s.name = name

/-- The cells with the server in them, and its cell when it has one. -/
def placeServer (cells : List (Screen ρ)) (serverName : Str) : Option (List (Screen ρ) × Option Nat) :=
  match findScreenName cells serverName with
  | some i => some (cells.modify i Screen.markAsServer, some i)
  | none =>
    match cells[serverDefaultIndex]? with
    | none => none
    | some s =>
      if s.isNull then
        some (cells.set serverDefaultIndex (s.setName serverName).markAsServer, some serverDefaultIndex)
      else some (cells, none)

def addClient (c : ServerConfig ρ) (serverName clientName : Str) : Option (ServerConfig ρ) :=
  match placeServer c.screens.cells serverName with
  | none => none
  | some (cells, _) =>
    (ScreenList.addScreenByPriority { c.screens with cells := cells } (Screen.ofName clientName)).map fun screens =>
      { c with screens := screens }

end ServerConfig
end Synergy.Gui
