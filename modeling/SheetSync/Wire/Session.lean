import SheetSync.Session.Basic
import SheetSync.Wire.Error
/-!
Settings and sessions as JSON.
-/
namespace SheetSync

open Json (Decoder)

namespace Config

def toJson (c : Config) : Json :=
  .obj [("max_range_write_area", .ofNat c.maxWriteArea), ("load_chunk_rows", .ofNat c.chunkRows),
    ("load_chunk_cols", .ofNat c.chunkCols), ("cache_capacity", .ofNat c.cacheCapacity),
    ("tick_yields", .ofNat c.ticks)]

/-- Reads settings that are not yet accepted; those not given have their default. -/
def ofJson? : Decoder Config := fun j => do
  let d : Config := {}
  let chunk := Decoder.pair coordinateOfJson? coordinateOfJson?
  let (chunkRows, chunkCols) ← j.orElse "chunk" (d.chunkRows, d.chunkCols) chunk
  return {
    maxWriteArea := ← j.orElse "area" d.maxWriteArea (Decoder.nat 64)
    chunkRows, chunkCols
    cacheCapacity := ← j.orElse "capacity" d.cacheCapacity (Decoder.nat 64)
    ticks := ← j.orElse "ticks" d.ticks coordinateOfJson? }

end Config

namespace Prompts

/-- Approval of everything, with a path or without one, or answers that are yet to be given. -/
def ofJson? : Decoder Prompts
  | .bool true => some (approving Option.none)
  | .bool false => some none
  | .str path => some (approving (some path))
  | _ => Option.none

/-- How often each question was asked. -/
def askedJson : Prompts → Json
  | scripted _ _ discards paths => .obj [("confirm", .ofNat discards), ("save", .ofNat paths)]
  | approving _ => .obj [("confirm", .ofNat 0), ("save", .ofNat 0)]

end Prompts

namespace Service

/-- Name, restarts and the last of them. -/
def toJson (s : Service) : Json :=
  .arr [.str s.name, .list WorkbookId.toJson s.restarts,
    .ofOption WorkbookId.toJson s.restarts.getLast?]

end Service

namespace Reply

def toJson : Reply → Json
  | completed d => .obj [("completed", d.toJson)]
  | declined => .str "declined"
  | saved path => .obj [("saved", .str path)]
  | cancelled => .str "cancelled"

end Reply

namespace ActiveWorkbook

def members (w : ActiveWorkbook) : List (String × Json) :=
  [("descriptor", w.descriptor.toJson), ("signature", w.signature.toJson), ("id", w.id.toJson)]

end ActiveWorkbook

end SheetSync
