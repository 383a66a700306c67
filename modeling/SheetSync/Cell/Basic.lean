import SheetSync.Cell.Value
import SheetSync.Cell.Position
/-!
Cells: what a document holds in one (`CellState`), what is written to a store for one (`CellEdit`),
and a reported change of one (`CellDelta`). A formula that is not the empty text takes the place of
the value; a state with neither counts as no cell at all.
-/
namespace SheetSync

/-- The content of a cell in a document. -/
structure CellState where
  value : Value := .null
  formula : Option String := none
deriving DecidableEq, Inhabited

/-- What is written into a cell of a store. -/
structure CellEdit where
  value : Value
  formula : Option String
deriving DecidableEq, Inhabited

namespace CellState

def empty : CellState := {}

def ofValue (v : Value) : CellState := { value := v }

def ofFormula (text : String) : CellState := { formula := some text }

/-- The formula, unless it is the empty text. -/
def formula? (s : CellState) : Option String := s.formula.filter (· ≠ "")

/-- Neither a value nor a formula. -/
def isEmpty (s : CellState) : Bool := s.value.isNull && s.formula?.isNone

end CellState

namespace CellEdit

/-- The edit that clears a cell. -/
def clear : CellEdit := ⟨.null, none⟩

/-- The edit that a state calls for: a formula alone, or a value alone. -/
def ofState (s : CellState) : CellEdit :=
  match s.formula? with
  | some f => ⟨.null, some f⟩
  | none => ⟨s.value, none⟩

def toState (e : CellEdit) : CellState := ⟨e.value, e.formula⟩

end CellEdit

/-- The number of rows, and of columns, that a sheet can have. -/
def gridSize : Nat := UInt32.size

/-- A change of one cell. Row and column are as reported and may lie off the sheet. -/
structure CellDelta where
  sheet : String
  row : Int
  col : Int
  before : CellState := {}
  after : CellState := {}
deriving DecidableEq, Inhabited

namespace CellDelta

/-- The changed position, if it lies on the sheet. -/
def position? (d : CellDelta) : Option Position :=
  if 0 ≤ d.row ∧ d.row < gridSize ∧ 0 ≤ d.col ∧ d.col < gridSize then
    some ⟨d.row.toNat, d.col.toNat⟩
  else none

end CellDelta

end SheetSync
