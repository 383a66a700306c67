import SheetSync.Keyed
import SheetSync.Sheet
import SheetSync.Workbook.Identity
/-!
Documents: what the user sees, and who is told of changes. A change reaches the listeners that are
subscribed when it happens, in the order of their subscription, and each before the next one; a
listener may itself change the document or unsubscribe others before the next one is told.
-/
namespace SheetSync

/-- Where a change comes from. -/
inductive ChangeSource where
  | user
  | external
  | load
deriving DecidableEq, Inhabited

namespace ChangeSource

def name : ChangeSource → String
  | user => "user"
  | external => "external"
  | load => "load"

end ChangeSource

/-- Changed cells, in the order of their change. -/
structure ChangeEvent where
  source : ChangeSource
  deltas : List CellDelta
deriving DecidableEq, Inhabited

/-- What can be done to a document. -/
inductive DocumentAction where
  | edit (source : ChangeSource) (sheet : String) (cells : List (Position × CellState))
  | load (s : Snapshot)
  | markSaved
deriving DecidableEq, Inhabited

/-- Who is told of changes. Anything could be told of them and do anything then. Besides what hands
changes on there is one kind of listener here: it does the same thing each time, and it leaves
changes alone that no user made, its own answers among them unless they pass for a user's. -/
inductive Listener where
  /-- Hands changes on to a store. -/
  | forward
  /-- Unsubscribes the bearer of a label, and then answers a user's change with an action. -/
  | watcher (label : String) (unsubscribes : Option String) (answer : Option DocumentAction)
deriving DecidableEq, Inhabited

/-- An event as one listener gets it. -/
structure Delivery where
  id : Nat
  listener : Listener
  event : ChangeEvent
deriving DecidableEq, Inhabited

/-- The content of a document, whether it differs from what was last saved, and its listeners. -/
structure Document where
  sheets : Keyed Sheet := []
  isDirty : Bool := false
  listeners : List (Nat × Listener) := []
  nextListener : Nat := 0
  /-- Which listener a label means. -/
  labels : Keyed Nat := []
deriving DecidableEq, Inhabited

namespace Document

def cell (d : Document) (sheet : String) (p : Position) : CellState :=
  ((d.sheets.get? sheet).map fun s => s.read p).getD .empty

def sheetInfos (d : Document) : List SheetInfo := d.sheets.map fun (id, s) => ⟨id, s.name⟩

def snapshot (d : Document) : Snapshot := ⟨d.sheets.map fun (id, s) => s.snapshot id⟩

/-- Subscribes a listener; gives its number. -/
def subscribe (d : Document) (l : Listener) : Nat × Document :=
  (d.nextListener,
    { d with
      listeners := d.listeners ++ [(d.nextListener, l)]
      nextListener := d.nextListener + 1 })

def unsubscribe (d : Document) (id : Nat) : Document :=
  { d with listeners := d.listeners.filter (·.1 ≠ id) }

def isSubscribed (d : Document) (id : Nat) : Bool := d.listeners.any (·.1 = id)

/-- Subscribes a watcher, whom its label means from now on. -/
def watch (d : Document) (label : String) (unsubscribes : Option String)
    (answer : Option DocumentAction) : Document :=
  let (id, d) := d.subscribe (.watcher label unsubscribes answer)
  { d with labels := d.labels.set label id }

/-- Unsubscribes the bearer of a label, if there is one. -/
def unsubscribeLabel (d : Document) (label : Option String) : Document :=
  match label.bind d.labels.get? with
  | some id => d.unsubscribe id
  | none => d

/-- Sets cells one after the other; gives the sheet and a change for each. -/
def setCells (id : String) (s : Sheet) : List (Position × CellState) → Sheet × List CellDelta
  | [] => (s, [])
  | (p, after) :: rest =>
    let delta : CellDelta :=
      { sheet := id, row := p.row, col := p.col, before := s.read p, after }
    let (s, deltas) := setCells id (s.put p after) rest
    (s, delta :: deltas)

/-- Sets cells of a sheet, which is made if it is not there. -/
def editSheet (d : Document) (source : ChangeSource) (sheet : String)
    (cells : List (Position × CellState)) : Document × List CellDelta :=
  let (s, deltas) := setCells sheet ((d.sheets.get? sheet).getD { name := sheet }) cells
  ({ d with
      sheets := d.sheets.set sheet s
      isDirty := d.isDirty || source ≠ .load }, deltas)

/-- The changes that a copy brings when it is loaded. -/
def loadDeltas (s : Snapshot) : List CellDelta :=
  s.sheets.flatMap fun sheet => sheet.cells.map fun c =>
    { sheet := sheet.id, row := c.row, col := c.col, after := c.state }

/-- The sheets of a copy; the last one of an id counts, at the place of the first. -/
def loadSheets (s : Snapshot) : Keyed Sheet :=
  Keyed.ofList (s.sheets.map fun sheet => (sheet.id, .ofSnapshot sheet))

/-- Does an action; gives the event to be told, if there is any. -/
def change (d : Document) : DocumentAction → Document × Option ChangeEvent
  | .edit _ _ [] => (d, none)
  | .edit source sheet cells =>
    let (d, deltas) := d.editSheet source sheet cells
    (d, some ⟨source, deltas⟩)
  | .load s => ({ d with sheets := loadSheets s }, some ⟨.load, loadDeltas s⟩)
  | .markSaved => ({ d with isDirty := false }, none)

/-- What a listener does that is told an event; `answer` carries out what a watcher does in turn. -/
def react (answer : DocumentAction → Document → Document × List Delivery) (e : ChangeEvent)
    (l : Listener) (d : Document) : Document × List Delivery :=
  match l with
  | .forward => (d, [])
  | .watcher _ unsubscribes reaction =>
    -- who is unsubscribed here is still told of the event that is being told
    let d := d.unsubscribeLabel unsubscribes
    match e.source, reaction with
    | .user, some a => answer a d
    | _, _ => (d, [])

/-- Tells an event to some listeners. -/
def deliver (answer : DocumentAction → Document → Document × List Delivery) (e : ChangeEvent) :
    List (Nat × Listener) → Document → Document × List Delivery
  | [], d => (d, [])
  | (id, l) :: rest, d =>
    let (d, inner) := react answer e l d
    let (d, others) := deliver answer e rest d
    (d, ⟨id, l, e⟩ :: (inner ++ others))

/-- Does an action and tells of it, down to a depth of answers to answers. Gives all that was told,
in the order in which it reached the listeners. -/
def performWithin : Nat → DocumentAction → Document → Document × List Delivery
  | 0, a, d => ((d.change a).1, [])
  | depth + 1, a, d =>
    match d.change a with
    | (d, none) => (d, [])
    | (d, some e) => deliver (performWithin depth) e d.listeners d

/-- Between two answers of one listener in a chain another one must have been unsubscribed, so no
chain of answers that ends is longer. -/
def answerDepth (d : Document) : Nat := (d.listeners.length + 1) * (d.listeners.length + 1)

/-- Does an action and tells of it. -/
def perform (d : Document) (a : DocumentAction) : Document × List Delivery :=
  performWithin (d.answerDepth + 1) a d

end Document

end SheetSync
