import SheetSync.Keyed
import SheetSync.Write
/-!
Plans of writes for changes of cells. The changes of one sheet become a single table when they are
as many as the cells of the rectangle around them, and else one write each, in their order. Changes
off the sheet are dropped.
-/
namespace SheetSync.Plan

/-- What is to be written, and where. -/
abbrev Edits := List (Position × CellEdit)

/-- The edits that changes call for, by sheet. -/
def bySheet (deltas : List CellDelta) : Keyed Edits :=
  let onSheet := deltas.filterMap fun d =>
    d.position?.map fun p => (d.sheet, p, CellEdit.ofState d.after)
  let sheets := (onSheet.map (·.1)).eraseDups
  sheets.map fun sheet =>
    (sheet, onSheet.filterMap fun e => if e.1 = sheet then some e.2 else none)

/-- The last edit of each position. -/
def lastEdits (edits : Edits) : ByPosition CellEdit :=
  edits.foldl (fun m e => m.insert e.1 e.2) ∅

/-- A table over the rectangle; a position without an edit is cleared. -/
def table (rect : Rect) (edits : Edits) : List (List CellEdit) :=
  let last := lastEdits edits
  rect.grid fun p => (last[p]?).getD .clear

/-- Whether so many edits are written as one table. -/
def isDense (rect : Rect) (count maxArea : Nat) : Bool :=
  rect.area = count && 1 < rect.area && rect.area ≤ maxArea

/-- The writes for one sheet. -/
def sheetWrites (maxArea : Nat) (sheet : String) (edits : Edits) : List Write :=
  match Rect.around? (edits.map Prod.fst) with
  | none => []
  | some rect =>
    if isDense rect edits.length maxArea then [.range sheet rect (table rect edits)]
    else edits.map fun (p, e) => .point sheet p e

/-- The writes for some changes, sheets in the order of their first change. -/
def writes (maxArea : Nat) (deltas : List CellDelta) : List Write :=
  (bySheet deltas).flatMap fun (sheet, edits) => sheetWrites maxArea sheet edits

end SheetSync.Plan
