import SheetSync.Cell.Value
import SheetSync.Queue.Basic
/-!
Scripted operations: each notes its start and its end in a log, and comes to a value, a failure or a
panic as its script says. An operation that panics notes no end.
-/
namespace SheetSync

/-- How a scripted operation ends. -/
inductive Ending where
  | value (v : Value)
  | failure (text : String)
  | panic (message : String)
deriving DecidableEq, Inhabited

structure Script where
  name : String
  ending : Ending
deriving DecidableEq, Inhabited

namespace Script

/-- Runs a script on a log. -/
def run : Queue.Runner Script String Value (Array String) := fun s log =>
  let started := log.push (s.name ++ ":start")
  match s.ending with
  | .value v => (.ok v, started.push (s.name ++ ":end"))
  | .failure text => (.error (.failed text), started.push (s.name ++ ":end"))
  | .panic message => (.error (.panicked message), started)

end Script

/-- A queue of scripts and their log; operations that somebody waits for are known by name.

Whoever uses the queue has a turn too. A turn of the user may ask for what is there already as often
as `credit` says; after that, and whenever what is asked for is not there yet, the queue has its
turns. -/
structure ScriptedQueue where
  queue : Queue.Of Script String Value := {}
  log : Array String := #[]
  awaited : List (String × Nat) := []
  credit : Nat := Queue.turnLimit

namespace ScriptedQueue

/-- Enqueues a script, and keeps its name unless its result is dropped; gives its number. -/
def enqueue (q : ScriptedQueue) (t : Operation Script) (dropped : Bool) : Nat × ScriptedQueue :=
  let queue := q.queue.enqueue t
  let awaited := if dropped then q.awaited else (t.action.name, queue.tail) :: q.awaited
  (queue.tail, { q with queue, awaited })

/-- Gives way to one turn of the queue. -/
def giveWay (q : ScriptedQueue) : ScriptedQueue :=
  let (queue, log) := q.queue.turn Script.run q.log
  { q with queue, log, credit := Queue.turnLimit }

/-- Gives way so many times. -/
def giveWays : Nat → ScriptedQueue → ScriptedQueue
  | 0, q => q
  | n + 1, q => giveWays n q.giveWay

/-- Asks for something, and gives way until it is there. -/
def reach (q : ScriptedQueue) (isThere : Queue.Of Script String Value → Bool) : ScriptedQueue :=
  if isThere q.queue then
    let q := if q.credit = 0 then q.giveWay else q
    { q with credit := q.credit - 1 }
  else
    let (queue, log) := q.queue.turnsUntil Script.run isThere q.queue.effort q.log
    { q with queue, log, credit := Queue.turnLimit - 1 }

/-- Waits for everything enqueued so far, until nothing was enqueued meanwhile; at most so often. -/
def reachEnd : Nat → ScriptedQueue → ScriptedQueue
  | 0, q => q
  | n + 1, q =>
    let tail := q.queue.tail
    let q := q.reach (tail ≤ ·.completed)
    if q.queue.tail = tail then q else reachEnd n q

/-- Waits until nothing waits in the queue. Each round but the last one finds something that was
enqueued by an operation. -/
def drain (q : ScriptedQueue) : ScriptedQueue := reachEnd (q.queue.work + 1) q

/-- Gives way so many times and then waits until nothing waits in the queue. -/
def settle (q : ScriptedQueue) (ticks : Nat) : ScriptedQueue := (giveWays ticks q).drain

/-- Waits for the result of a script by its name, once. -/
def await? (q : ScriptedQueue) (name : String) :
    Option (Except (OpError String) Value × ScriptedQueue) := do
  let seq ← q.awaited.lookup name
  let q := q.reach fun queue => (queue.result? seq).isSome
  let awaited := q.awaited.filter (·.1 ≠ name)
  return ((q.queue.result? seq).getD (.error .closed), { q with awaited })

/-- Takes the log so far. -/
def takeLog (q : ScriptedQueue) : List String × ScriptedQueue :=
  (q.log.toList, { q with log := #[] })

end ScriptedQueue

end SheetSync
