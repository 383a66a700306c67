import SheetSync.Error
import SheetSync.Keyed
import SheetSync.Sheet
/-!
A workbook in memory: its sheets in order, each with a name and its cells that are not empty, and
the names and tables defined in it. Everything here is a plain function; a refusal leaves no trace.
-/
namespace SheetSync

/-- A workbook. -/
structure Workbook where
  path : Option String := none
  originPath : Option String := none
  sheets : Keyed Sheet
  names : List DefinedName := []
  tables : List Table := []
deriving DecidableEq, Inhabited

/-- The id and name of the sheet that a new workbook has. -/
def defaultSheet : String := "Sheet1"

/-- The most cells that one command may read or write. -/
def rangeLimit : Nat := 250000

/-- A range must be valid and within the limit. -/
def checkRange (rect : Rect) : Except StoreError Unit :=
  if !rect.isValid then .error (.invalidRange rect)
  else if rangeLimit < rect.area then .error (.rangeTooLarge rect rect.area rangeLimit)
  else .ok ()

/-- A table of values must have the rows and columns of its range. -/
def checkShape {α : Type} (rect : Rect) (values : List (List α)) : Except StoreError Unit :=
  if values.length ≠ rect.rows then
    .error (.shapeMismatch rect values.length ((values.head?.map List.length).getD 0))
  else match values.find? (·.length ≠ rect.cols) with
    | some line => .error (.shapeMismatch rect values.length line.length)
    | none => .ok ()

namespace Workbook

/-- The workbook with one empty sheet. -/
def blank : Workbook := { sheets := [(defaultSheet, { name := defaultSheet })] }

def descriptor (w : Workbook) : Descriptor where
  path := w.path
  originPath := w.originPath
  sheets := w.sheets.map fun (id, s) => ⟨id, s.name⟩

/-- The content of a workbook, in which no cell is stored empty. -/
def snapshot (w : Workbook) : Snapshot := ⟨w.sheets.map fun (id, s) => s.snapshot id⟩

def sheet (w : Workbook) (id : String) : Except StoreError Sheet :=
  match w.sheets.get? id with
  | some s => .ok s
  | none => .error (.sheetNotFound id)

/-- What a cell holds, if the sheet is there and something is stored. -/
def cell? (w : Workbook) (id : String) (p : Position) : Option CellState :=
  (w.sheets.get? id).bind fun s => s.cells[p]?

def readRange (w : Workbook) (id : String) (rect : Rect) :
    Except StoreError (List (List CellState)) := do
  return rect.grid (← w.sheet id).read

def writeAll (w : Workbook) (id : String) (edits : List (Position × CellEdit)) :
    Except StoreError Workbook := do
  let states := edits.map fun (p, e) => (p, e.toState)
  return { w with sheets := w.sheets.set id ((← w.sheet id).putAll states) }

/-- Defines a name, in place of any of the same text. -/
def defineName (w : Workbook) (n : DefinedName) : Workbook :=
  { w with names := w.names.filter (·.name ≠ n.name) ++ [n] }

/-- Adds a table on a sheet of the workbook, in place of one of the same name. -/
def addTable (w : Workbook) (t : Table) : Except StoreError Workbook := do
  let _ ← w.sheet t.sheet
  return { w with tables := w.tables.filter (·.name ≠ t.name) ++ [t] }

/-- Adds an empty sheet, unless one has the id. -/
def addSheet (w : Workbook) (id name : String) : Workbook :=
  if w.sheets.has id then w else { w with sheets := w.sheets.set id { name } }

end Workbook

end SheetSync
