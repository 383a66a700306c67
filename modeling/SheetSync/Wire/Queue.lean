import SheetSync.Queue.Script
import SheetSync.Wire.Error
/-!
Queues and scripted operations as JSON.
-/
namespace SheetSync

open Json (Decoder)

namespace QueueStats

def toJson (s : QueueStats) : Json :=
  .obj [("submitted", .ofNat s.submitted), ("completed", .ofNat s.completed),
    ("failed", .ofNat s.failed), ("pending", .ofNat s.pending)]

end QueueStats

namespace Script

/-- How a script ends: in a panic before a failure, and in a failure before a value. -/
def endingOfJson? : Decoder Ending := fun j => do
  let text ← j.optional "panic" Decoder.string
  let isLiteral ← j.orElse "panicLiteral" false Decoder.bool
  let isOther ← j.orElse "panicOther" false Decoder.bool
  let failure ← j.optional "fail" Decoder.string
  let value ← j.orElse "value" .null (Value.ofJson? nestingLimit)
  let literal := if isLiteral then some "literal panic" else none
  let other := if isOther then some "unknown panic" else none
  match text.or (literal.or other), failure with
  | some message, _ => return .panic message
  | none, some text => return .failure text
  | none, none => return .value value

/-- Reads a script with those that it enqueues, at most so deep. -/
def operationOfJson? : Nat → Decoder (Operation Script)
  | 0, _ => none
  | n + 1, j => do
    let name ← j.required "name" Decoder.string
    let yields ← j.orElse "yields" 0 coordinateOfJson?
    let spawned ← j.orElse "spawn" [] (Decoder.list (operationOfJson? n))
    return .node { name, ending := ← endingOfJson? j } yields spawned

end Script

end SheetSync
