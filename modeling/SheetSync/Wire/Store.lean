import SheetSync.Store.Basic
/-!
Stores, the calls that they log and their switches, as JSON.
-/
namespace SheetSync

open Json (Decoder)

namespace StoreKind

def toJson (k : StoreKind) : Json := .str k.name

def ofJson? : Decoder StoreKind :=
  Decoder.choice ([StoreKind.local, .detached].map fun k => (k.name, k))

end StoreKind

namespace Call

def toJson : Call → Json
  | getRange sheet rect => .list .str ["get_range", sheet, rect.text]
  | setCell sheet p => .arr [.str "set_cell", .str sheet, .ofNat p.row, .ofNat p.col]
  | setRange sheet rect => .list .str ["set_range", sheet, rect.text]
  | openWorkbook path => .list .str ["open", path]
  | newWorkbook => .list .str ["new"]
  | saveWorkbook path => .arr [.str "save", .ofOption .str path]
  | statFile path => .list .str ["stat", path]
  | listNames => .list .str ["list_defined_names"]
  | listTables => .list .str ["list_tables"]
  | usedRange sheet => .list .str ["used_range", sheet]

end Call

namespace Watch

/-- The calls so far, and how many of them wrote and read. -/
def callsJson (w : Watch) : Json :=
  let calls := w.calls.toList
  .obj [("calls", .list Call.toJson calls), ("writes", .ofNat (calls.countP Call.isWrite)),
    ("reads", .ofNat (calls.countP Call.isRead))]

/-- The writes so far. -/
def writesJson (w : Watch) : Json := .list Call.toJson (w.calls.toList.filter Call.isWrite)

/-- Sets the switches that an object names. -/
def switched? (w : Watch) : Decoder Watch := fun j => do
  let openFails ← j.orElse "failOpen" w.openFails Decoder.bool
  let readsFail ← j.orElse "failReads" w.readsFail Decoder.bool
  let saveFails ← j.orElse "failSave" w.saveFails Decoder.bool
  let failingReads ← j.orElse "failNextReads" w.failingReads (Decoder.nat 64)
  let closed ← j.optional "failWritesTo" Decoder.string
  let stat ← match j.get? "stat" with
    | none => some w.stat
    | some s => Decoder.nullable FileStat.ofJson? s
  let isSlow := match j.get? "writeDelay" with
    | none => w.isSlow
    | some .null => false
    | some _ => true
  return { w with openFails, readsFail, saveFails, failingReads, stat, isSlow,
                  closedSheets := w.closedSheets ++ closed.toList }

end Watch

namespace Store

/-- An empty store of a name. -/
def ofJson? : Decoder Store
  | .str "local" => some {}
  | .str "detached" => some { kind := .detached }
  | .str "recording" => some { watch := some {} }
  | _ => none

end Store

end SheetSync
