import SheetSync.Session.Switch
/-!
Saving the active workbook, in place or under a new path. All writes are carried out first. Under a
new path the workbook gets a new identity, and its refresh schedules follow it.
-/
namespace SheetSync.Session

def activeWorkbook : SessionM ActiveWorkbook := do
  match (← get).active with
  | some w => return w
  | none => throw .noActiveWorkbook

/-- Asks the user for a path. As with `mayDiscard`, the answer is there at once. -/
def choosePath : SessionM (Option String) := do
  let s ← get
  let (path, prompts) := s.prompts.choosePath
  set { s with prompts }
  return path

/-- Carries out every write and saves to a path; the document is then saved too. -/
def writeOut (path : String) : SessionM Unit := do
  settle
  command (Store.saveWorkbook (some path))
  perform .markSaved

/-- Goes through the saving phase, back to the active one. An error of the attempt counts before one
of the phase. -/
def saving (attempt : SessionM Unit) : SessionM Unit := do
  advance .saving
  try attempt
  catch e =>
    try advance .active catch _ => pure ()
    throw e
  advance .active

/-- Gives a workbook the identity of a path. -/
def rename (w : ActiveWorkbook) (path : String) : SessionM Unit := do
  let id := WorkbookId.ofPath path
  modify fun s =>
    { s with
      refresh := (s.refresh.migrate w.id id).2
      hookFor := s.hookFor.map fun _ => id
      active := some { w with descriptor := w.descriptor.withPath path, id } }
  restartServices id

/-- Saves a workbook under a new path: the one given, or one that is asked for. -/
def saveUnder (w : ActiveWorkbook) (path : Option String) : SessionM Reply := do
  let chosen ← match path with
    | some p => pure (some p)
    | none => choosePath
  match chosen with
  | none => return .cancelled
  | some p =>
    saving do
      writeOut p
      rename w p
    return .saved p

/-- Saves a workbook in place. One without a path of its own is saved under a new one. -/
def save (w : ActiveWorkbook) : SessionM Reply := do
  match w.descriptor.savePath? with
  | none => saveUnder w none
  | some p =>
    saving (writeOut p)
    return .saved p

/-- Answers a request. -/
def request (r : Request) : SessionM Reply := exclusively do
  match r with
  | .switch target => switch target
  | .save => save (← activeWorkbook)
  | .saveAs path => saveUnder (← activeWorkbook) path

end SheetSync.Session
