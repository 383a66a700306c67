import SheetSync.Json.Record
import SheetSync.Refresh
import SheetSync.Time.Text
import SheetSync.Wire.Workbook
/-!
Instants and schedules as JSON.
-/
namespace SheetSync

open Json (Decoder)

namespace Instant

def toJson (t : Instant) : Json := .str t.text

def ofJson? : Decoder Instant := fun j => do ofText? (← Decoder.string j)

end Instant

namespace Schedule

def toJson (s : Schedule) : Json :=
  .obj [("query", .str s.query), ("intervalSecs", .ofNat s.interval),
    ("lastRun", .ofOption Instant.toJson s.lastRun), ("nextRun", s.nextRun.toJson)]

def ofJson? : Decoder Schedule := fun j => do
  let r ← Json.record? ["query", "intervalSecs", "lastRun", "nextRun"] j
  let query ← r.required "query" Decoder.string
  let interval ← r.required "intervalSecs" (Decoder.nat 32)
  let lastRun ← r.optional "lastRun" Instant.ofJson?
  let nextRun ← r.required "nextRun" Instant.ofJson?
  return { query, interval, lastRun, nextRun }

end Schedule

namespace RefreshBook

/-- The schedules of a workbook. -/
def schedulesJson (b : RefreshBook) (id : WorkbookId) : Json :=
  .list Schedule.toJson (b.schedules id)

end RefreshBook

end SheetSync
