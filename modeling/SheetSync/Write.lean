import SheetSync.Cell.Basic
import SheetSync.Cell.Rect
/-!
Writes to a store: one table over a rectangle, or one cell.
-/
namespace SheetSync

/-- A write to a sheet. -/
inductive Write where
  | range (sheet : String) (rect : Rect) (values : List (List CellEdit))
  | point (sheet : String) (position : Position) (edit : CellEdit)
deriving DecidableEq, Inhabited

namespace Write

def sheet : Write → String
  | .range sheet _ _ => sheet
  | .point sheet _ _ => sheet

/-- The number of cells that the write names. -/
def cells : Write → Nat
  | .range _ rect _ => rect.area
  | .point _ _ _ => 1

def isRange : Write → Bool
  | .range _ _ _ => true
  | .point _ _ _ => false

end Write

end SheetSync
