import SheetSync.Files
import SheetSync.Toml.Reader
/-!
The settings of a session. Every setting has a default; a configuration is accepted when its load
chunks have cells and its range writes may hold more than one cell.
-/
namespace SheetSync

/-- The settings of a session. -/
structure Config where
  /-- The largest area written as one range. -/
  maxWriteArea : Nat := 10000
  /-- The rows of a chunk when a whole sheet is read or written. -/
  chunkRows : Nat := 500
  /-- The columns of such a chunk. -/
  chunkCols : Nat := 100
  cacheCapacity : Nat := 10000
  /-- How often a draining session gives way before it looks at its queue. -/
  ticks : Nat := 1
deriving DecidableEq, Inhabited

namespace Config

/-- What is wrong with a configuration, the shape of its chunks first. -/
def fault? (c : Config) : Option ConfigFault :=
  if c.chunkRows = 0 ∨ c.chunkCols = 0 then some .chunkShape
  else if c.maxWriteArea < 2 then some (.writeArea c.maxWriteArea)
  else none

def validated (c : Config) : Except SyncError Config :=
  match c.fault? with
  | some fault => .error (.config fault)
  | none => .ok c

/-- A setting of a document: its default when it is missing, refused unless it is an integer from
zero up to below `2 ^ bits`. -/
def setting (entries : Toml.Entries) (key : String) (bits default : Nat) : Option Nat :=
  match entries.lookup key with
  | none => some default
  | some (.integer n) => if 0 ≤ n ∧ n < Nat.pow 2 bits then some n.toNat else none
  | some _ => none

def ofEntries? (entries : Toml.Entries) : Option Config := do
  let d : Config := {}
  return {
    maxWriteArea := ← setting entries "max_range_write_area" 64 d.maxWriteArea
    chunkRows := ← setting entries "load_chunk_rows" 32 d.chunkRows
    chunkCols := ← setting entries "load_chunk_cols" 32 d.chunkCols
    cacheCapacity := ← setting entries "cache_capacity" 64 d.cacheCapacity
    ticks := ← setting entries "tick_yields" 32 d.ticks }

/-- Reads an accepted configuration from the text of a TOML document. -/
def ofToml (text : String) : Except SyncError Config :=
  match (Toml.read? text).bind ofEntries? with
  | some c => c.validated
  | none => .error (.config .unreadable)

/-- Reads an accepted configuration from a file. -/
def ofFile (files : FileTree) (path : String) : Except SyncError Config :=
  match files.read path with
  | .ok (.text s, _) => ofToml s
  | _ => .error (.config .unreadable)

end Config

end SheetSync
