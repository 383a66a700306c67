import SheetSync.Cache
import SheetSync.Config
import SheetSync.Link
import SheetSync.Refresh
/-!
Sessions: a linked document, the workbook that is active in it, and everything that is bound to that
workbook. The surroundings of a session are plain data here: the answers that a user gives, the hook
that runs before a workbook closes, and the services that follow the active workbook.
-/
namespace SheetSync

/-- The workbook that a session shows. -/
structure ActiveWorkbook where
  descriptor : Descriptor
  signature : Signature
  id : WorkbookId
deriving DecidableEq, Inhabited

/-- The answers to questions. -/
inductive Prompts where
  /-- Answers given in advance, and how often each question was asked. Without an answer, changes
  may be discarded and no path is chosen. -/
  | scripted (discards : List Bool) (paths : List (Option String)) (askedDiscard askedPath : Nat)
  /-- Everything is approved, with one path for all saves. -/
  | approving (path : Option String)
deriving DecidableEq, Inhabited

namespace Prompts

def none : Prompts := scripted [] [] 0 0

/-- Asks whether changes may be discarded. -/
def discard : Prompts → Bool × Prompts
  | scripted ds ps d p => (ds.head?.getD true, scripted ds.tail ps (d + 1) p)
  | approving path => (true, approving path)

/-- Asks for a path to save to. -/
def choosePath : Prompts → Option String × Prompts
  | scripted ds ps d p => (ps.head?.join, scripted ds ps.tail d (p + 1))
  | approving path => (path, approving path)

def answerDiscard (answer : Bool) : Prompts → Prompts
  | scripted ds ps d p => scripted (ds ++ [answer]) ps d p
  | q => q

def answerPath (path : Option String) : Prompts → Prompts
  | scripted ds ps d p => scripted ds (ps ++ [path]) d p
  | q => q

end Prompts

/-- What runs before a workbook closes: it notes the workbook, acts on the document, and may fail,
which nobody minds. -/
structure CloseHook where
  calls : List WorkbookId := []
  action : Option DocumentAction := none
  fails : Bool := false
deriving DecidableEq, Inhabited

/-- A service that is restarted for each workbook. -/
structure Service where
  name : String
  restarts : List WorkbookId := []
deriving DecidableEq, Inhabited

/-- Which workbook is to become active. -/
inductive Target where
  | file (path : String)
  | blank
deriving DecidableEq, Inhabited

/-- Where a workbook can be had from again. One without a path is made anew. -/
def ActiveWorkbook.source (w : ActiveWorkbook) : Target :=
  match w.descriptor.durablePath? with
  | some path => .file path
  | none => .blank

/-- What a session is asked to do. -/
inductive Request where
  | switch (target : Target)
  | save
  | saveAs (path : Option String)
deriving DecidableEq, Inhabited

/-- What a request comes to. -/
inductive Reply where
  | completed (d : Descriptor)
  | declined
  | saved (path : String)
  | cancelled
deriving DecidableEq, Inhabited

/-- A session. -/
structure Session extends Link where
  config : Config := {}
  phase : Phase := .idle
  active : Option ActiveWorkbook := none
  /-- The listener that forwards the document's changes. -/
  sync : Option Nat := none
  /-- The workbook that the hook is installed for. -/
  hookFor : Option WorkbookId := none
  /-- Whether a request is under way, which no other may interrupt. -/
  isBusy : Bool := false
  caches : WorkbookCaches := {}
  refresh : RefreshBook := {}
  prompts : Prompts := .none
  hook : Option CloseHook := none
  services : List Service := []
  collaboration : Bool := false
  tokens : TokenSource := {}

/-- A step of a session. What it changed stays changed when it fails. -/
abbrev SessionM (α : Type) := ExceptT SyncError (Activity Session) α

namespace Session

/-- A session with an accepted configuration. -/
def create (config : Config) (store : Store) : Except SyncError Session := do
  let config ← config.validated
  return { store, config, maxWriteArea := config.maxWriteArea }

def onLink (f : Link → Link) : SessionM Unit := modify fun s => { s with toLink := f s.toLink }

/-- What the hook does, if it does anything. -/
def act (s : Session) : Session :=
  match s.hook.bind (·.action) with
  | some a => { s with toLink := s.toLink.perform a }
  | none => s

/-- What happens in a session while it waits: for a turn, one turn of its queue, for its hook, what
the hook does, and for anything longer, all that is in its queue. -/
def attend : Pause → Session → Session
  | .turn, s => { s with toLink := s.toLink.turn }
  | .hook, s => s.act
  | _, s => { s with toLink := s.toLink.drain }

def isIdle (s : Session) : Bool := s.queue.isIdle

def pause (k : Pause) : SessionM Unit := ExceptT.lift (Activity.pause k)

/-- Gives a command to the store. -/
def command {α : Type} (m : StoreM α) : SessionM α := ExceptT.mk do
  let r ← Activity.zoom (fun s : Session => s.store) (fun store s => { s with store }) m.run
  return r.mapError .store

def perform (a : DocumentAction) : SessionM Unit := onLink (·.perform a)

/-- Gives way so many times. -/
def giveWay : Nat → SessionM Unit
  | 0 => return
  | n + 1 => do
    pause .turn
    giveWay n

/-- Waits until every write is carried out, if any waits. -/
def drain : SessionM Unit := do
  if !(← get).isIdle then pause .queue

/-- Gives way a few times, and waits until every write is carried out. -/
def settle : SessionM Unit := do
  giveWay (← get).config.ticks
  drain

/-- Changes the phase, if that is allowed. -/
def advance (target : Phase) : SessionM Unit := do
  let s ← get
  if s.phase.Permits target then set { s with phase := target }
  else throw (.illegalPhase s.phase target)

/-- A session token that was not given out before. -/
def newToken : SessionM String := do
  let s ← get
  let (token, tokens) := s.tokens.next
  set { s with tokens }
  return token

def setScope (signature : Signature) : SessionM Unit :=
  modify fun s => { s with caches := s.caches.reset signature }

/-- Binds a workbook: its changes are forwarded, the hook is installed for it, and the session is
active. -/
def bind (w : ActiveWorkbook) : SessionM Unit := modify fun s =>
  let (listener, link) := s.toLink.startSync
  { s with
    toLink := link
    sync := some listener
    hookFor := s.hook.map fun _ => w.id
    active := some w
    phase := .active }

/-- Takes off the hook and stops to forward changes. -/
def detach : SessionM Unit := modify fun s =>
  { s with
    toLink := match s.sync with
      | some id => s.toLink.stopSync id
      | none => s.toLink
    sync := none
    hookFor := none }

def restartServices (id : WorkbookId) : SessionM Unit := modify fun s =>
  { s with services := s.services.map fun v => { v with restarts := v.restarts ++ [id] } }

/-- Does what no other request may interrupt. -/
def exclusively {α : Type} (m : SessionM α) : SessionM α := do
  if (← get).isBusy then throw .transitionInProgress
  ExceptT.mk do
    modify fun s => { s with isBusy := true }
    -- the request ends in any case, so that another one can begin
    let r ← m.run
    modify fun s => { s with isBusy := false }
    return r

end Session

/-- Carries out a step of a session while nothing else happens but what is in its queue. -/
def SessionM.perform {α : Type} (m : SessionM α) (s : Session) : Except SyncError α × Session :=
  Activity.attempt Session.attend m s

end SheetSync
