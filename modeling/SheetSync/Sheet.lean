import SheetSync.Workbook.Snapshot
/-!
Sheets: a name and cells by position.
-/
namespace SheetSync

structure Sheet where
  name : String
  cells : ByPosition CellState := ∅
deriving DecidableEq, Inhabited

namespace Sheet

/-- Sets a cell, or takes it away where the new state is empty. -/
def put (s : Sheet) (p : Position) (c : CellState) : Sheet :=
  { s with cells := if c.isEmpty then s.cells.erase p else s.cells.insert p c }

def putAll (s : Sheet) (cells : List (Position × CellState)) : Sheet :=
  cells.foldl (fun s c => s.put c.1 c.2) s

/-- The content at a position, empty where nothing is stored. -/
def read (s : Sheet) (p : Position) : CellState := (s.cells[p]?).getD .empty

/-- The smallest rectangle around all cells. -/
def usedRange? (s : Sheet) : Option Rect := Rect.around? s.cells.keys

/-- The cells in order, without those that are empty. -/
def snapshot (id : String) (s : Sheet) : SheetSnapshot := .ofCells id s.name s.cells.toList

/-- The sheet of a copy, empty cells included; the last cell of a position counts. -/
def ofSnapshot (s : SheetSnapshot) : Sheet where
  name := s.name
  cells := s.cells.foldl (fun m c => m.insert c.position c.state) ∅

end Sheet

end SheetSync
