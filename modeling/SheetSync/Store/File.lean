import SheetSync.Files
import SheetSync.Json.Printer
import SheetSync.Json.Reader
import SheetSync.Store.Workbook
import SheetSync.Wire.Workbook
/-!
Workbook files: the sheets with their cells, the names and the tables of a workbook as an indented
JSON document.
-/
namespace SheetSync

open Json (Decoder)

/-- What a workbook file holds. -/
structure WorkbookFile where
  sheets : List SheetSnapshot
  names : List DefinedName := []
  tables : List Table := []
deriving DecidableEq, Inhabited

namespace WorkbookFile

def toJson (f : WorkbookFile) : Json :=
  .obj [("sheets", .list SheetSnapshot.toJson f.sheets),
    ("definedNames", .list DefinedName.toJson f.names), ("tables", .list Table.toJson f.tables)]

def ofJson? : Decoder WorkbookFile := fun j => do
  let r ← Json.record? ["sheets", "definedNames", "tables"] j
  let sheets ← r.required "sheets" (Decoder.list (SheetSnapshot.ofJson? (nestingLimit - 2)))
  let names ← r.orElse "definedNames" [] (Decoder.list DefinedName.ofJson?)
  let tables ← r.orElse "tables" [] (Decoder.list Table.ofJson?)
  return { sheets, names, tables }

def ofWorkbook (w : Workbook) : WorkbookFile where
  sheets := w.snapshot.sheets
  names := w.names
  tables := w.tables

/-- The workbook of a file. Of sheets with the same id the last one counts, at the place of the
first. -/
def toWorkbook (f : WorkbookFile) (path : String) : Workbook where
  path := some path
  sheets := Keyed.ofList (f.sheets.map fun s => (s.id, .ofSnapshot s.withoutEmpty))
  names := f.names
  tables := f.tables

def text (f : WorkbookFile) : String := String.ofList f.toJson.pretty

/-- A character for private use that does not occur in a text. -/
def unusedChar (cs : List Char) : Char :=
  let candidates := (List.range (cs.length + 1)).map fun i => Char.ofNat (0xF0000 + i)
  (candidates.find? (· ∉ cs)).getD '\ufffd'

/-- Reads the content of a workbook file. What is no text only hurts where it is needed. -/
def ofContent? : Content → Option WorkbookFile
  | .text s => (Json.read? s.toList).bind ofJson?
  | .raw bytes =>
    let cs := Text.Utf8.decode bytes
    let flaw := unusedChar (cs.filterMap id)
    (Json.read? (Text.Utf8.filled flaw cs) (some flaw)).bind ofJson?

end WorkbookFile

end SheetSync
