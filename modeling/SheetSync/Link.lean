import SheetSync.Document
import SheetSync.Plan
import SheetSync.Queue.Basic
import SheetSync.Store.Basic
/-!
A document linked to a store: what users and others change in the document is planned into writes,
which wait in a queue and are carried out on the store in their order. Content that is loaded into
the document is not written back.
-/
namespace SheetSync

/-- The writes that wait for a store. -/
abbrev WriteQueue := Queue.Of Write StoreError Unit

/-- A document, a store, and the writes between them. -/
structure Link where
  store : Store := {}
  queue : WriteQueue := {}
  document : Document := {}
  /-- The largest area written as one range. -/
  maxWriteArea : Nat := 10000

namespace Link

/-- Carries out a queued write. -/
def runWrite : Queue.Runner Write StoreError Unit Store := fun w s =>
  let (r, s) := (Store.apply w).perform s
  (r.mapError .failed, s)

/-- Enqueues writes; gives their numbers. -/
def submitAll (l : Link) (ws : List Write) : List Nat × Link :=
  (List.range' (l.queue.tail + 1) ws.length, { l with queue := l.queue.enqueueAll (ws.map .leaf) })

/-- Enqueues the writes that changes call for; gives their numbers. -/
def batch (l : Link) (deltas : List CellDelta) : List Nat × Link :=
  l.submitAll (Plan.writes l.maxWriteArea deltas)

/-- Carries out every write that waits. -/
def drain (l : Link) : Link :=
  let (queue, store) := l.queue.drain runWrite l.store
  { l with queue, store }

/-- Gives the queue one turn. -/
def turn (l : Link) : Link :=
  let (queue, store) := l.queue.turn runWrite l.store
  { l with queue, store }

/-- Passes on what a forwarding listener was told. -/
def forward (l : Link) (t : Delivery) : Link :=
  match t.listener with
  | .watcher _ _ _ => l
  -- loaded content comes from the store already
  | .forward => if t.event.source = .load then l else (l.batch t.event.deltas).2

/-- Does something to the document and passes on what its listeners were told. -/
def perform (l : Link) (a : DocumentAction) : Link :=
  let (document, told) := l.document.perform a
  told.foldl forward { l with document }

/-- Starts to forward changes; gives the number of the listener. -/
def startSync (l : Link) : Nat × Link :=
  let (id, document) := l.document.subscribe .forward
  (id, { l with document })

def stopSync (l : Link) (id : Nat) : Link := { l with document := l.document.unsubscribe id }

end Link

/-- Who started to forward changes, so that it can be stopped, once. -/
structure SyncHandle where
  listener : Option Nat
deriving DecidableEq, Inhabited

namespace SyncHandle

def isActive (h : SyncHandle) : Bool := h.listener.isSome

def start (l : Link) : SyncHandle × Link :=
  let (id, l) := l.startSync
  (⟨some id⟩, l)

/-- Stops forwarding; a second time nothing happens. -/
def stop (h : SyncHandle) (l : Link) : SyncHandle × Link :=
  match h.listener with
  | some id => (⟨none⟩, l.stopSync id)
  | none => (h, l)

end SyncHandle

end SheetSync
