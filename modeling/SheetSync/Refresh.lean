import SheetSync.Keyed
import SheetSync.Time.Instant
import SheetSync.Workbook.Identity
/-!
When the queries of workbooks are to be refreshed. The schedules of a workbook are kept in the order
in which they were last put, one for each query, and move along when the workbook gets a new
identity.
-/
namespace SheetSync

/-- When one query runs. -/
structure Schedule where
  query : String
  interval : Nat
  lastRun : Option Instant
  nextRun : Instant
deriving DecidableEq, Inhabited

namespace Schedule

/-- A schedule whose first run is one interval from now, if that time can be told. -/
def start? (query : String) (interval : Nat) (now : Instant) : Option Schedule := do
  return { query, interval, lastRun := none, nextRun := ← now.after? interval }

def isDue (s : Schedule) (now : Instant) : Bool := s.nextRun ≤ now

/-- The schedule after a run, the next one an interval later. -/
def ran? (s : Schedule) (time : Instant) : Option Schedule := do
  return { s with lastRun := some time, nextRun := ← time.after? s.interval }

/-- Puts a schedule at the end, in place of the one for the same query. -/
def put (s : Schedule) (schedules : List Schedule) : List Schedule :=
  schedules.filter (·.query ≠ s.query) ++ [s]

end Schedule

/-- The schedules of all workbooks. -/
structure RefreshBook where
  entries : Keyed (List Schedule) := []
deriving DecidableEq, Inhabited

namespace RefreshBook

def schedules (b : RefreshBook) (id : WorkbookId) : List Schedule :=
  (b.entries.get? id.text).getD []

def put (b : RefreshBook) (id : WorkbookId) (s : Schedule) : RefreshBook :=
  ⟨b.entries.set id.text (s.put (b.schedules id))⟩

/-- Changes the first schedule of a query. -/
def updateFirst? (query : String) (f : Schedule → Option Schedule) :
    List Schedule → Option (List Schedule)
  | [] => some []
  | s :: rest =>
    if s.query = query then do return (← f s) :: rest
    else do return s :: (← updateFirst? query f rest)

def knows (b : RefreshBook) (id : WorkbookId) (query : String) : Bool :=
  (b.schedules id).any (·.query = query)

/-- Notes a run of a query, which changes nothing where the query is not scheduled; none when the
next run would lie past the last time that can be told. -/
def recordRun? (b : RefreshBook) (id : WorkbookId) (query : String) (time : Instant) :
    Option RefreshBook :=
  if b.knows id query then do
    let schedules ← updateFirst? query (·.ran? time) (b.schedules id)
    return ⟨b.entries.set id.text schedules⟩
  else some b

def due (b : RefreshBook) (id : WorkbookId) (now : Instant) : List String :=
  ((b.schedules id).filter (·.isDue now)).map (·.query)

def remove (b : RefreshBook) (id : WorkbookId) : RefreshBook := ⟨b.entries.erase id.text⟩

/-- Moves the schedules of one identity to another, over those for the same queries; gives their
number. -/
def migrate (b : RefreshBook) (old new : WorkbookId) : Nat × RefreshBook :=
  if old = new then (0, b)
  else
    let moved := b.schedules old
    (moved.length, moved.foldl (fun book s => book.put new s) (b.remove old))

/-- The number of workbooks with schedules. -/
def size (b : RefreshBook) : Nat := b.entries.length

end RefreshBook

end SheetSync
