import SheetSync.Random
import SheetSync.Session.Save
import SheetSync.Simulation.Difference
import SheetSync.Simulation.Report
/-!
Simulations: a session on a local store under a random stream of edits, saves and changes of
workbook. After every drain the store must hold what the document shows, cell by cell.
-/
namespace SheetSync

/-- What to simulate. -/
structure Scenario where
  seed : UInt64 := 42
  operations : Nat := 1000
  directory : String
  rows : Nat := 60
  cols : Nat := 20
  stopsAtViolation : Bool := false
  config : Config := {}

/-- One random act. -/
inductive Act where
  | editCell (p : Position) (s : CellState)
  | editBlock (p : Position) (rows cols : Nat)
  | clearCell (p : Position)
  | checkpoint
  | request (r : Request)
deriving DecidableEq, Inhabited

structure Simulation where
  scenario : Scenario
  session : Session
  random : Random
  /-- The paths saved to, in the order of their first save. -/
  saved : List String := []
  tally : Tally := {}
  violations : List Violation := []

namespace Simulation

/-- A name within a directory. -/
def inDirectory (directory name : String) : String :=
  if directory = "" then name
  else if directory.endsWith "/" then directory ++ name
  else directory ++ "/" ++ name

/-- Three of twenty edited cells get a formula. -/
def formulaChance : Nat := 2767011611056432640

/-- Draws the content of an edited cell. -/
def drawState (p : Position) (r : Random) : CellState × Random :=
  match r.chance formulaChance with
  | (true, r) => (.ofFormula s!"=R{p.row + 1}C{p.col + 1}*2", r)
  | (false, r) =>
    let (n, r) := r.between (-1000) 999
    (.ofValue (.int n), r)

/-- Draws the next act; none when the sheet has no rows or columns to draw from. -/
def draw? (m : Simulation) : Option (Act × Random) := do
  let (row, r) ← m.random.below? m.scenario.rows
  let (col, r) ← r.below? m.scenario.cols
  let (pick, r) ← r.below? 100
  let p : Position := ⟨row, col⟩
  if pick < 55 then
    let (s, r) := drawState p r
    return (.editCell p s, r)
  else if pick < 70 then
    let (rows, r) ← r.below? 4
    let (cols, r) ← r.below? 4
    return (.editBlock p (rows + 1) (cols + 1), r)
  else if pick < 78 then return (.clearCell p, r)
  else if pick < 88 then return (.checkpoint, r)
  else if pick < 92 then return (.request .save, r)
  else if pick < 96 then
    let path := inDirectory m.scenario.directory s!"book-{m.tally.operations}.json"
    return (.request (.saveAs (some path)), r)
  else if pick < 99 ∧ m.saved ≠ [] then
    let (i, r) ← r.below? m.saved.length
    return (.request (.switch (.file (m.saved[i]?.getD ""))), r)
  else return (.request (.switch .blank), r)

/-- Draws values for cells, one after the other. -/
def drawValues : List Position → Random → List (Position × CellState) × Random
  | [], r => ([], r)
  | p :: ps, r =>
    let (n, r) := r.between 0 99
    let (rest, r) := drawValues ps r
    ((p, .ofValue (.int n)) :: rest, r)

/-- So many coordinates from one on. Where their end lies beyond the grid it is taken modulo the
size of the grid, and there are none. -/
def stretch (start count : Nat) : List Nat :=
  List.range' start ((start + count) % gridSize - start)

/-- The positions of a block, row by row. -/
def block (p : Position) (rows cols : Nat) : List Position :=
  (stretch p.row rows).flatMap fun row => (stretch p.col cols).map fun col => ⟨row, col⟩

def edit (m : Simulation) (cells : List (Position × CellState)) : Simulation :=
  { m with
    session := { m.session with
      toLink := m.session.toLink.perform (.edit .user defaultSheet cells) }
    tally := { m.tally with edits := m.tally.edits + 1 } }

/-- Drains the session and compares its store with its document. -/
def check (m : Simulation) : Simulation :=
  let (_, session) := Session.settle.perform m.session
  let shown := contents session.document.snapshot
  let kept := contents ((session.store.workbook.map Workbook.snapshot).getD ⟨[]⟩)
  let found := (firstDifference? shown kept).map fun (sheet, p) =>
    { operation := m.tally.operations
      cell := s!"{sheet}!R{p.row}C{p.col}"
      document := stateAt shown sheet p
      store := stateAt kept sheet p : Violation }
  { m with
    session
    tally := { m.tally with checks := m.tally.checks + 1 }
    violations := m.violations ++ found.toList }

/-- Notes what became of a request. A cancelled save counts neither way. -/
def note (m : Simulation) : Except SyncError Reply → Simulation
  | .error _ => { m with tally := { m.tally with failures := m.tally.failures + 1 } }
  | .ok .cancelled => m
  | .ok (.saved path) =>
    { m with
      saved := if path ∈ m.saved then m.saved else m.saved ++ [path]
      tally := { m.tally with transitions := m.tally.transitions + 1 } }
  | .ok (.completed _) | .ok .declined =>
    { m with tally := { m.tally with transitions := m.tally.transitions + 1 } }

/-- Carries out an act, drawing what it still needs. -/
def act (m : Simulation) : Act → Simulation
  | .editCell p s => m.edit [(p, s)]
  | .editBlock p rows cols =>
    let (cells, random) := drawValues (block p rows cols) m.random
    { m with random }.edit cells
  | .clearCell p => m.edit [(p, .empty)]
  | .checkpoint => m.check
  | .request r =>
    let (reply, session) := (Session.request r).perform m.session
    { m with session }.note reply

/-- Draws an act and carries it out. -/
def step? (m : Simulation) : Option Simulation := do
  let (a, random) ← m.draw?
  let tally := { m.tally with operations := m.tally.operations + 1 }
  return { m with random, tally }.act a

/-- So many acts, fewer if a violation is to end them. -/
def steps? : Nat → Simulation → Option Simulation
  | 0, m => some m
  | n + 1, m => do
    let m ← m.step?
    if m.scenario.stopsAtViolation && !m.violations.isEmpty then return m
    else steps? n m

def report (m : Simulation) : Report where
  seed := m.scenario.seed.toNat
  tally := m.tally
  violations := m.violations
  queue := m.session.queue.stats

/-- A session on a new workbook in a local store, with one path for all saves without another. The
files are left with the directory of the simulation, as far as it could be made. -/
def start (sc : Scenario) : ExceptT SyncError (StateM FileTree) Simulation := do
  (FileTree.makeDirectory sc.directory).adapt fun _ => .config .unreadable
  let session ← Session.create sc.config { files := ← get }
  let session :=
    { session with prompts := .approving (some (inDirectory sc.directory "untitled.json")) }
  match (Session.request (.switch .blank)).perform session with
  | (.error e, _) => throw e
  | (.ok _, session) => return { scenario := sc, session, random := .ofSeed sc.seed }

/-- Carries out the acts of a simulation and a last check; none when there is nothing to draw
from. -/
def finish? (m : Simulation) : Option Simulation := do
  return (← steps? m.scenario.operations m).check

end Simulation

end SheetSync
