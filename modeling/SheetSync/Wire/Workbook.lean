import SheetSync.Wire.Cell
import SheetSync.Workbook.Identity
import SheetSync.Workbook.Snapshot
/-!
Workbooks and their parts as JSON.
-/
namespace SheetSync

open Json (Decoder)

namespace SheetInfo

def toJson (s : SheetInfo) : Json := .obj [("id", .str s.id), ("name", .str s.name)]

def ofJson? : Decoder SheetInfo := fun j => do
  let r ← Json.record? ["id", "name"] j
  let id ← r.required "id" Decoder.string
  let name ← r.required "name" Decoder.string
  return { id, name }

end SheetInfo

namespace Descriptor

def toJson (d : Descriptor) : Json :=
  .obj [("path", .ofOption .str d.path), ("originPath", .ofOption .str d.originPath),
    ("sheets", .list SheetInfo.toJson d.sheets)]

def ofJson? : Decoder Descriptor := fun j => do
  let r ← Json.record? ["path", "originPath", "sheets"] j
  let path ← r.optional "path" Decoder.string
  let originPath ← r.optional "originPath" Decoder.string
  let sheets ← r.required "sheets" (Decoder.list SheetInfo.ofJson?)
  return { path, originPath, sheets }

end Descriptor

namespace WorkbookId

def toJson (id : WorkbookId) : Json := .str id.text

end WorkbookId

namespace Signature

def toJson (s : Signature) : Json := .str s.text

end Signature

namespace SnapshotCell

def toJson (c : SnapshotCell) : Json :=
  .obj (("row", .ofNat c.row) :: ("col", .ofNat c.col) :: c.state.members)

/-- Reads an object; all its members must be readable, also the unknown ones. -/
def ofJson? (limit : Nat) : Decoder SnapshotCell
  | .obj members => do
    let _ ← members.mapM fun m => Value.ofJson? limit m.2
    let r ← Json.record? ["row", "col", "value", "formula"] (.obj members)
    let row ← r.required "row" coordinateOfJson?
    let col ← r.required "col" coordinateOfJson?
    let state ← CellState.ofRecord? limit r
    return { row, col, state }
  | _ => none

end SnapshotCell

namespace SheetSnapshot

def toJson (s : SheetSnapshot) : Json :=
  .obj [("id", .str s.id), ("name", .str s.name), ("cells", .list SnapshotCell.toJson s.cells)]

/-- Reads a sheet; a cell lies two levels below it. -/
def ofJson? (limit : Nat) : Decoder SheetSnapshot := fun j => do
  let r ← Json.record? ["id", "name", "cells"] j
  let id ← r.required "id" Decoder.string
  let name ← r.required "name" Decoder.string
  let cells ← r.required "cells" (Decoder.list (SnapshotCell.ofJson? (limit - 3)))
  return { id, name, cells }

/-- Reads a sheet whose cells are placed states, and leaves out the empty ones. -/
def ofPlacedJson? : Decoder SheetSnapshot := fun j => do
  let id ← j.required "id" Decoder.string
  let name ← j.required "name" Decoder.string
  return .ofCells id name (← j.required "cells" (Decoder.list CellState.placedOfJson?))

end SheetSnapshot

namespace Snapshot

def toJson (s : Snapshot) : Json := .obj [("sheets", .list SheetSnapshot.toJson s.sheets)]

def ofJson? : Decoder Snapshot := fun j => do
  let r ← Json.record? ["sheets"] j
  let sheets ← r.required "sheets" (Decoder.list (SheetSnapshot.ofJson? (nestingLimit - 2)))
  return { sheets }

end Snapshot

namespace DefinedName

def toJson (n : DefinedName) : Json :=
  .obj [("name", .str n.name), ("refersTo", .str n.refersTo), ("sheetId", .ofOption .str n.sheet)]

def ofJson? : Decoder DefinedName := fun j => do
  let r ← Json.record? ["name", "refersTo", "sheetId"] j
  let name ← r.required "name" Decoder.string
  let refersTo ← r.required "refersTo" Decoder.string
  let sheet ← r.orElse "sheetId" none (Decoder.nullable Decoder.string)
  return { name, refersTo, sheet }

end DefinedName

namespace Table

def toJson (t : Table) : Json :=
  .obj [("name", .str t.name), ("sheetId", .str t.sheet), ("rect", t.rect.toJson),
    ("columns", .list .str t.columns)]

def ofJson? : Decoder Table := fun j => do
  let r ← Json.record? ["name", "sheetId", "rect", "columns"] j
  let name ← r.required "name" Decoder.string
  let sheet ← r.required "sheetId" Decoder.string
  let rect ← r.required "rect" Rect.ofJson?
  let columns ← r.orElse "columns" [] (Decoder.list Decoder.string)
  return { name, sheet, rect, columns }

end Table

namespace FileStat

def toJson (s : FileStat) : Json :=
  .obj [("modTimeMs", .ofOption .int s.modified), ("sizeBytes", .ofOption .ofNat s.size)]

def ofJson? : Decoder FileStat := fun j => do
  let r ← Json.record? ["modTimeMs", "sizeBytes"] j
  let modified ← r.optional "modTimeMs" Decoder.int64
  let size ← r.optional "sizeBytes" (Decoder.nat 64)
  return { modified, size }

end FileStat

end SheetSync
