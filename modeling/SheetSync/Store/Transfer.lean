import SheetSync.Store.Basic
/-!
Moving whole contents between a store and plain copies, chunk by chunk, so that no single command
grows with the sheet.
-/
namespace SheetSync.Store

/-- Reads the cells of some chunks, in their order. -/
def readChunks (sheet : String) : List Rect → StoreM (List (Position × CellState))
  | [] => return []
  | chunk :: rest => do
    let table ← getRange sheet chunk
    return chunk.entries table ++ (← readChunks sheet rest)

/-- Reads all cells of a sheet that are not empty. -/
def loadSheet (rows cols : Nat) (info : SheetInfo) : StoreM SheetSnapshot := do
  let cells ← match ← usedRange? info.id with
    | some used => readChunks info.id (used.chunks rows cols)
    | none => pure []
  return .ofCells info.id info.name cells

def loadSheets (rows cols : Nat) : List SheetInfo → StoreM (List SheetSnapshot)
  | [] => return []
  | info :: rest => do
    let sheet ← loadSheet rows cols info
    return sheet :: (← loadSheets rows cols rest)

/-- Reads the sheets of a workbook. -/
def loadSnapshot (d : Descriptor) (rows cols : Nat) : StoreM Snapshot := do
  return ⟨← loadSheets rows cols d.sheets⟩

/-- The last state given for each position. -/
def lastStates (cells : List SnapshotCell) : ByPosition CellState :=
  cells.foldl (fun m c => m.insert c.position c.state) ∅

/-- The table that makes a chunk hold some cells and nothing else. -/
def chunkTable (cells : ByPosition CellState) (chunk : Rect) : List (List CellEdit) :=
  chunk.grid fun p => match cells[p]? with
    | some s => .ofState s
    | none => .clear

/-- Writes cells over some chunks; gives the number of writes. -/
def writeChunks (sheet : String) (cells : ByPosition CellState) : List Rect → StoreM Nat
  | [] => return 0
  | chunk :: rest => do
    setRange sheet chunk (chunkTable cells chunk)
    return (← writeChunks sheet cells rest) + 1

/-- The rectangle around the cells of a copy and what a sheet holds already. -/
def replayArea? (cells : ByPosition CellState) (used : Option Rect) : Option Rect :=
  match Rect.around? cells.keys, used with
  | some r, some u => some (r.union u)
  | some r, none => some r
  | none, used => used

/-- Makes the sheet of a copy hold what the copy holds, if the workbook has the sheet. -/
def replaySheet (d : Descriptor) (rows cols : Nat) (s : SheetSnapshot) : StoreM Nat := do
  if (d.sheet? s.id).isNone then return 0
  let cells := lastStates s.cells
  match replayArea? cells (← usedRange? s.id) with
  | none => return 0
  | some area => writeChunks s.id cells (area.chunks rows cols)

def replaySheets (d : Descriptor) (rows cols : Nat) : List SheetSnapshot → StoreM Nat
  | [] => return 0
  | s :: rest => do
    let n ← replaySheet d rows cols s
    return n + (← replaySheets d rows cols rest)

/-- Writes a copy over a workbook; gives the number of writes. -/
def replaySnapshot (d : Descriptor) (s : Snapshot) (rows cols : Nat) : StoreM Nat :=
  replaySheets d rows cols s.sheets

end SheetSync.Store
