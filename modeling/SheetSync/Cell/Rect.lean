import SheetSync.Cell.Position
/-!
Rectangles of cells, all four bounds included. A rectangle whose end lies before its start has no
cells. `chunks` cuts a rectangle into pieces of a bounded shape, row by row.
-/
namespace SheetSync

/-- The cells from `(top, left)` to `(bottom, right)`. -/
structure Rect where
  top : Nat
  left : Nat
  bottom : Nat
  right : Nat
deriving DecidableEq, Inhabited

namespace Rect

/-- The rectangle of one cell. -/
def cell (p : Position) : Rect := ⟨p.row, p.col, p.row, p.col⟩

def isValid (r : Rect) : Bool := r.top ≤ r.bottom && r.left ≤ r.right

/-- The number of rows, zero when the bounds are inverted. -/
def rows (r : Rect) : Nat := r.bottom + 1 - r.top

def cols (r : Rect) : Nat := r.right + 1 - r.left

def area (r : Rect) : Nat := r.rows * r.cols

def contains (r : Rect) (p : Position) : Bool :=
  (r.top ≤ p.row && p.row ≤ r.bottom) && (r.left ≤ p.col && p.col ≤ r.right)

/-- The outermost bounds of both. -/
def union (r s : Rect) : Rect where
  top := min r.top s.top
  left := min r.left s.left
  bottom := max r.bottom s.bottom
  right := max r.right s.right

/-- The smallest rectangle around some positions, none around no position. -/
def around? : List Position → Option Rect
  | [] => none
  | p :: ps => some (ps.foldl (fun r q => r.union (cell q)) (cell p))

/-- The row numbers, in order. -/
def rowRange (r : Rect) : List Nat := List.range' r.top r.rows

def colRange (r : Rect) : List Nat := List.range' r.left r.cols

/-- A table with one entry for each cell, a list for each row. -/
def grid {α : Type} (r : Rect) (f : Position → α) : List (List α) :=
  r.rowRange.map fun row => r.colRange.map fun col => f ⟨row, col⟩

/-- The positions and entries of a table laid over the rectangle from its corner on, row by row;
what sticks out of the rectangle is ignored. -/
def entries {α : Type} (r : Rect) (table : List (List α)) : List (Position × α) :=
  (r.rowRange.zip table).flatMap fun (row, line) =>
    (r.colRange.zip line).map fun (col, a) => (⟨row, col⟩, a)

/-- The written form, rows before columns. -/
def text (r : Rect) : String := s!"R{r.top}C{r.left}:R{r.bottom}C{r.right}"

/-- The numbers from `lo` to `hi` in pieces of `size`, the last one maybe shorter; a size of zero
counts as one. -/
def spans (lo hi size : Nat) : List (Nat × Nat) :=
  let size := max size 1
  (List.range ((hi + 1 - lo + (size - 1)) / size)).map fun i =>
    (lo + i * size, min (lo + i * size + (size - 1)) hi)

/-- The rectangle in pieces of at most `rows` by `cols`, left to right and top to bottom. -/
def chunks (r : Rect) (rows cols : Nat) : List Rect :=
  (spans r.top r.bottom rows).flatMap fun (top, bottom) =>
    (spans r.left r.right cols).map fun (left, right) => ⟨top, left, bottom, right⟩

end Rect

end SheetSync
