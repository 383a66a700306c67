import SheetSync.Simulation.Report
import SheetSync.Wire.Queue
/-!
Reports of simulations as JSON.
-/
namespace SheetSync

open Json (Decoder)

namespace Violation

def ofJson? : Decoder Violation := fun j => do
  return {
    operation := ← j.required "operation" (Decoder.nat 64)
    cell := ← j.required "cell" Decoder.string
    document := ← j.optional "document" CellState.ofJson?
    store := ← j.optional "backend" CellState.ofJson? }

end Violation

namespace Report

/-- A report with the number of its violations only. -/
def toJson (r : Report) : Json :=
  .obj [("seed", .ofNat r.seed), ("passed", .bool r.passed), ("total", .ofNat r.tally.operations),
    ("edits", .ofNat r.tally.edits), ("transitions", .ofNat r.tally.transitions),
    ("transitionFailures", .ofNat r.tally.failures), ("checks", .ofNat r.tally.checks),
    ("violations", .ofNat r.violations.length), ("queue", r.queue.toJson)]

def ofJson? : Decoder Report := fun j => do
  let number (key : String) := j.orElse key 0 (Decoder.nat 64)
  return {
    seed := ← number "seed"
    tally := {
      operations := ← number "total"
      edits := ← number "edits"
      transitions := ← number "transitions"
      failures := ← number "transitionFailures"
      checks := ← number "checks" }
    violations := ← j.orElse "violations" [] (Decoder.list Violation.ofJson?)
    queue := {
      submitted := ← number "submitted"
      completed := ← number "completed"
      failed := ← number "failed" } }

end Report

end SheetSync
