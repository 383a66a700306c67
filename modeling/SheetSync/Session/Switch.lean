import SheetSync.Session.Basic
import SheetSync.Store.Transfer
/-!
Changing the active workbook. All writes for the old one are carried out before the store turns to
the new one, and nothing is forwarded from then on until the new content is in the document. When
the change fails after that, the old workbook is put back and bound again; when even that fails, no
workbook is active.
-/
namespace SheetSync.Session

/-- Whether the content of the document may be given up: others hold it too, it is saved, or the
user agrees. A user who is asked answers at once. What others do until there is an answer is left
out: they can as well do it before the request, or after it where the user declines, since the
session does nothing meanwhile. -/
def mayDiscard : SessionM Bool := do
  let s ← get
  if s.collaboration then return true
  if !s.document.isDirty then return true
  let (answer, prompts) := s.prompts.discard
  set { s with prompts }
  return answer

/-- Lets the hook of the workbook that closes do its work, and carries out what it writes. -/
def runHook (previous : ActiveWorkbook) : SessionM Unit := do
  let s ← get
  match s.hook with
  | none => return
  | some hook =>
    -- the hook may be installed for no workbook, or for another one
    if s.hookFor ≠ some previous.id then return
    advance .beforeClose
    modify fun s => { s with hook := some { hook with calls := hook.calls ++ [previous.id] } }
    pause .hook
    drain

/-- Ends the work on the active workbook: carries out every write and lets its hook do its work.
Gives the workbook. -/
def conclude : SessionM (Option ActiveWorkbook) := do
  advance .draining
  settle
  let previous := (← get).active
  match previous with
  | some w => runHook w
  | none => pure ()
  return previous

/-- Turns the store to the target. -/
def turnStore : Target → SessionM Descriptor
  | .file path => command (Store.openWorkbook path)
  | .blank => command Store.newWorkbook

/-- Fills the caches with the names and tables of the workbook, as far as they can be listed. -/
def fillCaches (signature : Signature) : SessionM Unit := do
  -- a store that cannot list them does not keep the workbook from being loaded
  let names ← try command Store.listNames catch _ => pure []
  let tables ← try command Store.listTables catch _ => pure []
  modify fun s => { s with caches := (s.caches.populate signature names tables).1 }

/-- Reads all content of the store's workbook, chunk by chunk. -/
def loadContent (d : Descriptor) : SessionM Snapshot := do
  let c := (← get).config
  command (Store.loadSnapshot d c.chunkRows c.chunkCols)

def identify (d : Descriptor) : SessionM WorkbookId := do
  match d.durablePath? with
  | some path => return .ofPath path
  | none => return ⟨← newToken⟩

/-- Brings content into the document and binds the workbook that it is of. -/
def install (d : Descriptor) (signature : Signature) (content : Snapshot) : SessionM Unit := do
  perform (.load content)
  perform .markSaved
  fillCaches signature
  let id ← identify d
  advance .active
  bind { descriptor := d, signature, id }
  restartServices id

/-- Brings the store's workbook into the document and binds it. -/
def loadTarget (d : Descriptor) : SessionM Unit := do
  let signature ← command (Store.signature d (← newToken))
  setScope signature
  advance .loading
  install d signature (← loadContent d)

/-- Leaves the session without a workbook. -/
def returnToIdle : SessionM Unit := do
  setScope ⟨← newToken⟩
  modify fun s => { s with active := none, hookFor := none, phase := .idle }

/-- Puts a workbook back into the store and the document's content over it. -/
def restoreStore (previous : ActiveWorkbook) : SessionM Unit := do
  let d ← turnStore previous.source
  let s ← get
  let _ ← command
    (Store.replaySnapshot d s.document.snapshot s.config.chunkRows s.config.chunkCols)

/-- Goes back to the workbook before, if there was one. -/
def rollBack (previous : Option ActiveWorkbook) (turned : Bool) : SessionM Unit := do
  modify fun s => { s with phase := .rollingBack }
  match previous with
  | none => returnToIdle
  | some w =>
    if turned then
      try restoreStore w
      catch e =>
        returnToIdle
        throw e
    setScope w.signature
    bind w

/-- Goes back after a change of workbook that failed; gives the error that it ends with. -/
def recover (previous : Option ActiveWorkbook) (turned : Bool) (e : SyncError) :
    SessionM SyncError :=
  try
    rollBack previous turned
    pure e
  catch restore => pure (.restoreFailed e restore)

/-- Turns from the workbook before, on which all work has ended, to the target. -/
def swap (target : Target) (previous : Option ActiveWorkbook) : SessionM Reply := do
  advance .closing
  detach
  let d ← try turnStore target catch e => throw (← recover previous false e)
  try loadTarget d catch e => throw (← recover previous true e)
  return .completed d

/-- Changes the active workbook. -/
def switch (target : Target) : SessionM Reply := do
  let resume := (← get).phase
  advance .confirming
  if ← mayDiscard then
    swap target (← conclude)
  else
    advance resume
    return .declined

end SheetSync.Session
