import SheetSync.Document
import SheetSync.Wire.Workbook
/-!
Actions on documents, and what listeners are told, as JSON.
-/
namespace SheetSync

open Json (Decoder)

namespace ChangeSource

def ofJson? : Decoder ChangeSource
  | .str "user" => some user
  | .str "external" => some external
  | .str "load" => some load
  | _ => none

end ChangeSource

namespace DocumentAction

/-- An edit of a block, which gets consecutive numbers. -/
def fill (source : ChangeSource) (sheet : String) (top left rows cols : Nat) : DocumentAction :=
  .edit source sheet ((consecutive rows cols).zipIdx.flatMap fun (line, r) =>
    line.zipIdx.map fun (v, c) => (⟨top + r, left + c⟩, .ofValue v))

/-- How the actions of a name are read, if there is one of the name. -/
def decoder? (name : String) : Option (Decoder DocumentAction) :=
  let sheet (j : Json) := j.required "sheet" Decoder.string
  let source (j : Json) := j.orElse "source" .user ChangeSource.ofJson?
  match name with
  | "edit" => some fun j => do
    let sheet ← sheet j
    let row ← j.required "row" coordinateOfJson?
    let col ← j.required "col" coordinateOfJson?
    return edit .user sheet [(⟨row, col⟩, ← j.orElse "state" .empty CellState.ofJson?)]
  | "edits" => some fun j => do
    let cells ← j.required "edits" (Decoder.list CellState.placedOfJson?)
    return edit (← source j) (← sheet j) cells
  | "fill" => some fun j => do
    match ← j.required "rect" (Decoder.list coordinateOfJson?) with
    | [top, left, rows, cols] => return fill (← source j) (← sheet j) top left rows cols
    | _ => none
  | "apply_state" => some fun j => do return load (← j.required "snapshot" Snapshot.ofJson?)
  | "mark_saved" => some fun _ => some markSaved
  | _ => none

/-- The action that an object names, if it makes sense. -/
def ofJson? : Decoder DocumentAction := fun j => do
  (← decoder? (← j.required "do" Decoder.string)) j

end DocumentAction

namespace Delivery

/-- What a watcher was told: its label, the source and the changes. -/
def toJson? (t : Delivery) : Option Json :=
  match t.listener with
  | .forward => none
  | .watcher label _ _ => some (.arr [.str label, .str t.event.source.name,
      .list CellDelta.toJson t.event.deltas])

end Delivery

end SheetSync
