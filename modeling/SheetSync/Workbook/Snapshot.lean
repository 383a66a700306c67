import SheetSync.Cell.Basic
import SheetSync.Cell.Rect
/-!
Plain copies of content: the cells of sheets as lists, and the names and tables of a workbook.
-/
namespace SheetSync

structure SnapshotCell where
  row : Nat
  col : Nat
  state : CellState
deriving DecidableEq, Inhabited

namespace SnapshotCell

def position (c : SnapshotCell) : Position := ⟨c.row, c.col⟩

end SnapshotCell

structure SheetSnapshot where
  id : String
  name : String
  cells : List SnapshotCell
deriving DecidableEq, Inhabited

/-- The content of a document, sheet by sheet. -/
structure Snapshot where
  sheets : List SheetSnapshot
deriving DecidableEq, Inhabited

namespace SheetSnapshot

/-- The copy without the cells that are empty. -/
def withoutEmpty (s : SheetSnapshot) : SheetSnapshot :=
  { s with cells := s.cells.filter fun c => !c.state.isEmpty }

/-- The copy of a sheet with the cells given, those without content left out. -/
def ofCells (id name : String) (cells : List (Position × CellState)) : SheetSnapshot where
  id := id
  name := name
  cells := (cells.filter fun c => !c.2.isEmpty).map fun (p, s) => ⟨p.row, p.col, s⟩

end SheetSnapshot

namespace Snapshot

def count (s : Snapshot) : Nat := s.sheets.foldl (fun n sheet => n + sheet.cells.length) 0

end Snapshot

/-- A name defined in a workbook, for all of it or for one sheet. -/
structure DefinedName where
  name : String
  refersTo : String
  sheet : Option String := none
deriving DecidableEq, Inhabited

namespace DefinedName

/-- The name with its sheet in front. -/
def key (n : DefinedName) : String :=
  match n.sheet with
  | some sheet => s!"{sheet}!{n.name}"
  | none => n.name

end DefinedName

structure Table where
  name : String
  sheet : String
  rect : Rect
  columns : List String := []
deriving DecidableEq, Inhabited

end SheetSync
