import SheetSync.Json.Record
import SheetSync.Write
/-!
Cells, rectangles and writes as JSON.
-/
namespace SheetSync

open Json (Decoder)

/-- How deep arrays and objects may nest in a text. -/
def nestingLimit : Nat := 127

/-- A row or column number. -/
def coordinateOfJson? : Decoder Nat := Decoder.nat 32

namespace Position

def toJson (p : Position) : Json := .list .ofNat [p.row, p.col]

end Position

namespace Value

/-- The value that a tree stands for, if it nests at most so deep and has no faulty literal. -/
def ofJson? : Nat → Decoder Value
  | _, .null => some .null
  | _, .bool b => some (.bool b)
  | _, .int n => some (.int n)
  | _, .float x => some (.double x)
  | _, .str s => some (.text s)
  | n + 1, .arr items => (items.mapM (ofJson? n)).map .list
  | n + 1, .obj members =>
    (members.mapM fun m => (ofJson? n m.2).map (m.1, ·)).map ofFields
  | 0, .arr _ | 0, .obj _ | _, .faulty => none

mutual

def toJson : Value → Json
  | .null => .null
  | .bool b => .bool b
  | .int n => .int n
  | .double x => .float x
  | .text s => .str s
  | .list items => .arr (toJsonItems items)
  | .record fields => .obj (toJsonFields fields)

def toJsonItems : List Value → List Json
  | [] => []
  | v :: vs => toJson v :: toJsonItems vs

def toJsonFields : List (String × Value) → List (String × Json)
  | [] => []
  | (name, v) :: rest => (name, toJson v) :: toJsonFields rest

end

end Value

namespace CellState

/-- The fields of a state; a formula that is not there is left out. -/
def members (s : CellState) : List (String × Json) :=
  ("value", s.value.toJson) ::
    match s.formula with
    | some f => [("formula", .str f)]
    | none => []

def toJson (s : CellState) : Json := .obj s.members

def ofRecord? (limit : Nat) (r : Json.Record) : Option CellState := do
  let value ← r.orElse "value" .null (Value.ofJson? limit)
  let formula ← r.orElse "formula" none (Decoder.nullable Decoder.string)
  return { value, formula }

def ofJson? : Decoder CellState := fun j => do
  ofRecord? nestingLimit (← Json.record? ["value", "formula"] j)

/-- A row, a column and the state there. -/
def placedOfJson? : Decoder (Position × CellState) := fun j => do
  let (row, col, state) ← Decoder.triple coordinateOfJson? coordinateOfJson? ofJson? j
  return (⟨row, col⟩, state)

end CellState

namespace CellEdit

def toJson (e : CellEdit) : Json :=
  .obj [("value", e.value.toJson), ("formula", .ofOption .str e.formula)]

def ofJson? : Decoder CellEdit := fun j => do
  let r ← Json.record? ["value", "formula"] j
  let value ← r.required "value" (Value.ofJson? nestingLimit)
  let formula ← r.optional "formula" Decoder.string
  return { value, formula }

end CellEdit

/-- Consecutive numbers from zero, as many as fill a table, row by row. -/
def consecutive (rows cols : Nat) : List (List Value) :=
  (List.range rows).map fun r => (List.range cols).map fun c => .int (r * cols + c : Nat)

namespace CellDelta

def toJson (d : CellDelta) : Json :=
  .obj [("sheetId", .str d.sheet), ("row", .int d.row), ("col", .int d.col),
    ("before", d.before.toJson), ("after", d.after.toJson)]

def ofJson? : Decoder CellDelta := fun j => do
  let r ← Json.record? ["sheetId", "row", "col", "before", "after"] j
  let sheet ← r.required "sheetId" Decoder.string
  let row ← r.required "row" Decoder.int64
  let col ← r.required "col" Decoder.int64
  let before ← r.orElse "before" .empty CellState.ofJson?
  let after ← r.orElse "after" .empty CellState.ofJson?
  return { sheet, row, col, before, after }

/-- The changes that put consecutive numbers from zero into a block, row by row. -/
def block (sheet : String) (top left : Int) (rows cols : Nat) : List CellDelta :=
  (consecutive rows cols).zipIdx.flatMap fun (line, r) => line.zipIdx.map fun (v, c) =>
    { sheet, row := top + r, col := left + c, after := .ofValue v }

/-- One change: as such, or as a number that is put into a cell. Or those of a block. -/
def groupOfJson? : Decoder (List CellDelta) := fun j =>
  match j.get? "delta", j.get? "value", j.get? "block" with
  | some d, _, _ => (ofJson? d).map ([·])
  | none, some (.arr [sheet, row, col, n]), _ => do
    let sheet ← Decoder.string sheet
    let row ← Decoder.int64 row
    let col ← Decoder.int64 col
    let n ← Decoder.int64 n
    return [{ sheet, row, col, after := .ofValue (.int n) }]
  | none, none, some (.arr [sheet, top, left, rows, cols]) => do
    let sheet ← Decoder.string sheet
    let top ← Decoder.int64 top
    let left ← Decoder.int64 left
    let rows ← Decoder.int64 rows
    let cols ← Decoder.int64 cols
    return block sheet top left rows.toNat cols.toNat
  | _, _, _ => none

end CellDelta

namespace Rect

def toJson (r : Rect) : Json :=
  .obj [("startRow", .ofNat r.top), ("startCol", .ofNat r.left), ("endRow", .ofNat r.bottom),
    ("endCol", .ofNat r.right)]

def ofJson? : Decoder Rect := fun j => do
  let r ← Json.record? ["startRow", "startCol", "endRow", "endCol"] j
  let top ← r.required "startRow" coordinateOfJson?
  let left ← r.required "startCol" coordinateOfJson?
  let bottom ← r.required "endRow" coordinateOfJson?
  let right ← r.required "endCol" coordinateOfJson?
  return { top, left, bottom, right }

end Rect

namespace Write

def toJson : Write → Json
  | .range sheet rect values =>
    .obj [("kind", .str "rangeWrite"), ("sheetId", .str sheet), ("rect", rect.toJson),
      ("values", .list (.list CellEdit.toJson) values)]
  | .point sheet p edit =>
    .obj [("kind", .str "pointWrite"), ("sheetId", .str sheet), ("row", .ofNat p.row),
      ("col", .ofNat p.col), ("edit", edit.toJson)]

/-- A write without the inside of its table. -/
def summary : Write → Json
  | .range sheet rect values =>
    let all := values.flatten
    .obj [("sheet", .str sheet), ("rect", .str rect.text), ("cells", .ofNat rect.area),
      ("rows", .ofNat values.length), ("cols", .ofNat ((values.map List.length).foldl max 0)),
      ("first", .ofOption CellEdit.toJson all.head?),
      ("last", .ofOption CellEdit.toJson all.getLast?)]
  | .point sheet p edit => .arr [.str sheet, .ofNat p.row, .ofNat p.col, edit.toJson]

/-- Reads a write of a kind from its other fields. -/
def ofRecord? (kind : String) (r : Json.Record) : Option Write := do
  let sheet ← r.required "sheetId" Decoder.string
  if kind = "rangeWrite" then
    let rect ← r.required "rect" Rect.ofJson?
    let values ← r.required "values" (Decoder.list (Decoder.list CellEdit.ofJson?))
    return .range sheet rect values
  else if kind = "pointWrite" then
    let row ← r.required "row" coordinateOfJson?
    let col ← r.required "col" coordinateOfJson?
    let edit ← r.required "edit" CellEdit.ofJson?
    return .point sheet ⟨row, col⟩ edit
  else none

/-- Reads a write: an object whose `kind` tells which one it is, or the kind in front of the other
fields in their order. -/
def ofJson? : Decoder Write
  | .arr (kind :: fields) => do
    let kind ← Decoder.string kind
    let names := if kind = "rangeWrite" then ["sheetId", "rect", "values"]
      else ["sheetId", "row", "col", "edit"]
    ofRecord? kind (← Json.record? names (.arr fields))
  | j => do
    let r ← Json.record? ["kind", "sheetId", "rect", "values", "row", "col", "edit"] j
    ofRecord? (← r.required "kind" Decoder.string) r

end Write

end SheetSync
