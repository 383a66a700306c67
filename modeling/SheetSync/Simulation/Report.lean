import SheetSync.Cell.Basic
import SheetSync.Queue.Basic
import SheetSync.Text.Quoted
/-!
Reports of simulations: what was done, and where store and document were found to differ.
-/
namespace SheetSync

/-- The first place at which a check found a difference. -/
structure Violation where
  operation : Nat
  cell : String
  document : Option CellState
  store : Option CellState
deriving DecidableEq, Inhabited

/-- How much a simulation did. -/
structure Tally where
  operations : Nat := 0
  edits : Nat := 0
  transitions : Nat := 0
  failures : Nat := 0
  checks : Nat := 0
deriving DecidableEq, Inhabited

structure Report where
  seed : Nat
  tally : Tally := {}
  violations : List Violation := []
  queue : QueueStats := {}
deriving DecidableEq, Inhabited

namespace Value

mutual

/-- A value with its kind spelled out. -/
def description : Value → String
  | .null => "Null"
  | .bool b => s!"Bool({b})"
  | .int n => s!"Number({n})"
  | .double x => s!"Number({String.ofList x.text})"
  | .text s => s!"String({Text.quoted s})"
  | .list items => "Array [" ++ ", ".intercalate (descriptions items) ++ "]"
  | .record fields => "Object \x7b" ++ ", ".intercalate (fieldDescriptions fields) ++ "\x7d"

def descriptions : List Value → List String
  | [] => []
  | v :: vs => description v :: descriptions vs

def fieldDescriptions : List (String × Value) → List String
  | [] => []
  | (name, v) :: rest => s!"{Text.quoted name}: {description v}" :: fieldDescriptions rest

end

end Value

def optional {α : Type} (f : α → String) : Option α → String
  | some a => "Some(" ++ f a ++ ")"
  | none => "None"

namespace CellState

def description (s : CellState) : String :=
  "CellState \x7b value: " ++ s.value.description ++ ", formula: " ++
    optional Text.quoted s.formula ++ " \x7d"

end CellState

namespace Violation

def description (v : Violation) : String :=
  "ConsistencyViolation \x7b operation: " ++ toString v.operation ++ ", cell: " ++
    Text.quoted v.cell ++ ", document: " ++ optional CellState.description v.document ++
    ", backend: " ++ optional CellState.description v.store ++ " \x7d"

end Violation

namespace Report

/-- A simulation passes when no check found a difference. -/
def passed (r : Report) : Bool := r.violations.isEmpty

/-- The violations, numbered from one. -/
def violationLines (vs : List Violation) : List String :=
  (vs.zipIdx 1).map fun (v, i) => s!"{i}. {v.description}"

def lines (r : Report) : List String :=
  ["=== wbsync Simulator Report ===", "",
    s!"Seed: {r.seed}",
    s!"Total Operations: {r.tally.operations}",
    s!"Edits: {r.tally.edits}",
    s!"Transitions: {r.tally.transitions}",
    s!"Transition Failures: {r.tally.failures}",
    s!"Checks: {r.tally.checks}",
    s!"Queue: {r.queue.submitted} submitted, {r.queue.completed} completed, " ++
      s!"{r.queue.failed} failed",
    s!"Violations: {r.violations.length}"] ++
  (if r.passed then [] else ["", "=== Violations ==="] ++ violationLines r.violations) ++
  ["", if r.passed then "=== Result: PASS ===" else "=== Result: FAIL ==="]

/-- The report in words, each line ended. -/
def text (r : Report) : String := String.join (r.lines.map (· ++ "\n"))

end Report

end SheetSync
