import SheetSync.Activity
import SheetSync.Store.File
import SheetSync.Write
/-!
Stores: where a workbook lives outside of the document. A local store keeps one workbook in memory
and saves it to files; a detached one accepts everything and keeps nothing. A store can be watched:
then every command is logged before it is carried out, and chosen commands are made to fail. A
command pauses where it has to wait for a file.
-/
namespace SheetSync

/-- Where the workbook of a store is kept. -/
inductive StoreKind where
  | local
  | detached
deriving DecidableEq, Inhabited

namespace StoreKind

def name : StoreKind → String
  | .local => "local"
  | .detached => "detached"

end StoreKind

/-- A command, as a watched store logs it. -/
inductive Call where
  | getRange (sheet : String) (rect : Rect)
  | setCell (sheet : String) (position : Position)
  | setRange (sheet : String) (rect : Rect)
  | openWorkbook (path : String)
  | newWorkbook
  | saveWorkbook (path : Option String)
  | statFile (path : String)
  | listNames
  | listTables
  | usedRange (sheet : String)
deriving DecidableEq, Inhabited

namespace Call

def isWrite : Call → Bool
  | setCell _ _ | setRange _ _ => true
  | _ => false

def isRead : Call → Bool
  | getRange _ _ | usedRange _ => true
  | _ => false

end Call

/-- The log of a watched store, and which commands fail. -/
structure Watch where
  calls : Array Call := #[]
  openFails : Bool := false
  readsFail : Bool := false
  /-- So many of the next reads fail in any case. -/
  failingReads : Nat := 0
  saveFails : Bool := false
  /-- Sheets that refuse writes. -/
  closedSheets : List String := []
  /-- Whether some time passes before a write. -/
  isSlow : Bool := false
  /-- Answers every question for a file's state. -/
  stat : Option FileStat := none
deriving DecidableEq, Inhabited

/-- A store and the files that it can reach. -/
structure Store where
  kind : StoreKind := .local
  workbook : Option Workbook := none
  watch : Option Watch := none
  files : FileTree := {}
deriving DecidableEq, Inhabited

/-- A command to a store. What it changed stays changed when it fails. -/
abbrev StoreM (α : Type) := ExceptT StoreError (Activity Store) α

/-- Carries out a command while nothing else happens. -/
def StoreM.perform {α : Type} (m : StoreM α) (s : Store) : Except StoreError α × Store :=
  Activity.attempt (fun _ s => s) m s

namespace Store

/-- Waits. -/
def pause (k : Pause) : StoreM Unit := ExceptT.lift (Activity.pause k)

def name (s : Store) : String := if s.watch.isSome then "recording" else s.kind.name

/-- Logs a command, if the store is watched. -/
def log (call : Call) : StoreM Unit :=
  modify fun s => { s with watch := s.watch.map fun w => { w with calls := w.calls.push call } }

/-- The switches of a watched store; none of them is set on another. -/
def switches : StoreM Watch := return ((← get).watch).getD {}

/-- Fails if reads are made to fail. -/
def passRead : StoreM Unit := do
  let w ← switches
  if 0 < w.failingReads then
    modify fun s => { s with watch := s.watch.map fun w =>
      { w with failingReads := w.failingReads - 1 } }
    throw (.rejected "reads disabled")
  if w.readsFail then throw (.rejected "reads disabled")

/-- Fails if writes to the sheet are made to fail. -/
def passWrite (sheet : String) : StoreM Unit := do
  if (← switches).isSlow then pause .clock
  if sheet ∈ (← switches).closedSheets then throw (.rejected s!"writes to {sheet} rejected")

/-- The workbook of a local store. -/
def current : StoreM Workbook := do
  match (← get).workbook with
  | some w => return w
  | none => throw .noWorkbook

def setCurrent (w : Workbook) : StoreM Unit := modify fun s => { s with workbook := some w }

def getRange (sheet : String) (rect : Rect) : StoreM (List (List CellState)) := do
  log (.getRange sheet rect)
  passRead
  match (← get).kind with
  | .detached =>
    if rect.isValid then return rect.grid fun _ => .empty else throw (.invalidRange rect)
  | .local =>
    let _ ← checkRange rect
    (← current).readRange sheet rect

def setCell (sheet : String) (p : Position) (e : CellEdit) : StoreM Unit := do
  log (.setCell sheet p)
  passWrite sheet
  match (← get).kind with
  | .detached => return
  | .local => setCurrent (← (← current).writeAll sheet [(p, e)])

def setRange (sheet : String) (rect : Rect) (values : List (List CellEdit)) : StoreM Unit := do
  log (.setRange sheet rect)
  passWrite sheet
  match (← get).kind with
  | .detached => return
  | .local =>
    let _ ← checkRange rect
    let _ ← checkShape rect values
    setCurrent (← (← current).writeAll sheet (rect.entries values))

/-- Carries out a write. -/
def apply : Write → StoreM Unit
  | .range sheet rect values => setRange sheet rect values
  | .point sheet p e => setCell sheet p e

def usedRange? (sheet : String) : StoreM (Option Rect) := do
  log (.usedRange sheet)
  passRead
  match (← get).kind with
  | .detached => return none
  | .local =>
    let s ← (← current).sheet sheet
    return s.usedRange?

/-- Opens a workbook file. A store that fails to open keeps its workbook. -/
def openWorkbook (path : String) : StoreM Descriptor := do
  log (.openWorkbook path)
  if (← switches).openFails then throw (.rejected s!"open {path} rejected")
  match (← get).kind with
  | .detached => throw (.unsupported "detached" "open_workbook")
  | .local =>
    pause .read
    match (← get).files.read path with
    | .error fault => throw (.file path fault)
    | .ok (content, _) =>
      match WorkbookFile.ofContent? content with
      | none => throw (.malformed path)
      | some file =>
        let w := file.toWorkbook path
        setCurrent w
        return w.descriptor

def newWorkbook : StoreM Descriptor := do
  log .newWorkbook
  if (← get).kind = .local then setCurrent .blank
  return Workbook.blank.descriptor

/-- Replaces a file by the text of a workbook. -/
def writeFile (path : String) (w : Workbook) : StoreM Unit := do
  pause .write
  let s ← get
  let (r, files) := (FileTree.replace path (.text (WorkbookFile.ofWorkbook w).text)).run s.files
  set { s with files }
  match r with
  | .error fault => throw (.file path fault)
  | .ok () => return

/-- Saves to a path, or to the path that the workbook has. What is saved is what the workbook holds
now; the workbook that is there when the file is written has the path from then on. -/
def saveWorkbook (path : Option String) : StoreM Unit := do
  log (.saveWorkbook path)
  if (← switches).saveFails then throw (.rejected "save rejected")
  match (← get).kind with
  | .detached => throw (.unsupported "detached" "save_workbook")
  | .local =>
    let w ← current
    match path.or w.path with
    | none => throw .noSavePath
    | some target =>
      writeFile target w
      modify fun s => { s with workbook := s.workbook.map ({ · with path := some target }) }

/-- The state of a file or a directory. A time before 1970 is not told. -/
def statFile (path : String) : StoreM FileStat := do
  log (.statFile path)
  match (← switches).stat with
  | some stat => return stat
  | none =>
    match (← get).kind with
    | .detached => throw (.unsupported "detached" "stat_file")
    | .local =>
      pause .read
      match (← get).files.state path with
      | .error fault => throw (.file path fault)
      | .ok (time, size) => return ⟨if 0 ≤ time then some time else none, some size⟩

def listNames : StoreM (List DefinedName) := do
  log .listNames
  match (← get).kind with
  | .detached => return []
  | .local => return (← current).names

def listTables : StoreM (List Table) := do
  log .listTables
  match (← get).kind with
  | .detached => return []
  | .local => return (← current).tables

/-- Defines a name in the workbook of a local store. -/
def defineName (n : DefinedName) : StoreM Unit := do
  setCurrent ((← current).defineName n)

/-- Adds a table to the workbook of a local store. -/
def addTable (t : Table) : StoreM Unit := do
  setCurrent (← (← current).addTable t)

/-- Adds a sheet to the workbook of a local store; gives what was asked for, also where a sheet of
the id is there already. -/
def addSheet (id name : String) : StoreM SheetInfo := do
  setCurrent ((← current).addSheet id name)
  return ⟨id, name⟩

/-- The signature of a workbook: by the state of its file, by its path alone where the state cannot
be told, and a new session token where it has no path. -/
def signature (d : Descriptor) (token : String) : StoreM Signature := do
  match d.durablePath? with
  | none => pure ⟨token⟩
  | some path =>
    try
      pure (.ofStat path (← statFile path))
    catch _ => pure ⟨path⟩

end Store

end SheetSync
