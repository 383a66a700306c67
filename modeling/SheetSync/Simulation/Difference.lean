import SheetSync.Keyed
import SheetSync.Sheet
/-!
Where two copies of content first differ, by sheet, then by row, then by column.
-/
namespace SheetSync.Simulation

/-- Content by sheet and position. -/
abbrev Contents := Keyed (ByPosition CellState)

/-- The cells of a copy; of repeated ones the last. -/
def contents (s : Snapshot) : Contents :=
  s.sheets.foldl (fun m t => m.set t.id
    (t.cells.foldl (fun cells c => cells.insert c.position c.state) ((m.get? t.id).getD ∅))) []

def stateAt (c : Contents) (sheet : String) (p : Position) : Option CellState :=
  (c.get? sheet).bind fun cells => cells[p]?

/-- The positions of cells on a sheet, in order. -/
def positions (c : Contents) (sheet : String) : List Position :=
  ((c.get? sheet).map fun cells => cells.keys).getD []

/-- The first place at which contents differ. -/
def firstDifference? (a b : Contents) : Option (String × Position) :=
  let sheets := (a.keys ++ b.keys).mergeSort (· ≤ ·)
  sheets.findSome? fun sheet =>
    let places := (positions a sheet).merge (positions b sheet) fun p q => (compare p q).isLE
    (places.find? fun p => stateAt a sheet p ≠ stateAt b sheet p).map (sheet, ·)

end SheetSync.Simulation
