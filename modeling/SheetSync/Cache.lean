import SheetSync.Error
import SheetSync.Keyed
import SheetSync.Workbook.Snapshot
/-!
Caches that serve one signature at a time. Whoever asks or adds under another signature is refused,
so that a computation begun before a change of workbook never reaches the cache of the new one.
-/
namespace SheetSync

/-- A cache and the signature that it is scoped to. -/
structure ScopedCache (α : Type) where
  scope : Option Signature := none
  entries : Keyed α := []
deriving DecidableEq, Inhabited

namespace ScopedCache

variable {α : Type}

def isCurrent (c : ScopedCache α) (s : Signature) : Bool := c.scope = some s

def putAll (entries : List (String × α)) (m : Keyed α) : Keyed α :=
  entries.foldl (fun m e => m.set e.1 e.2) m

/-- Forgets all entries and scopes the cache anew. -/
def reset (_ : ScopedCache α) (s : Signature) (seed : List (String × α)) : ScopedCache α :=
  ⟨some s, putAll seed []⟩

def get? (c : ScopedCache α) (s : Signature) (key : String) : Option α :=
  if c.isCurrent s then c.entries.get? key else none

/-- Adds entries under the current signature; gives how many were offered. -/
def merge (c : ScopedCache α) (s : Signature) (entries : List (String × α)) :
    Except SignatureMismatch (Nat × ScopedCache α) :=
  if c.isCurrent s then .ok (entries.length, { c with entries := putAll entries c.entries })
  else .error ⟨c.scope, s⟩

def count (c : ScopedCache α) : Nat := c.entries.length

end ScopedCache

/-- The caches of a session: defined names by their key, and tables by name. -/
structure WorkbookCaches where
  names : ScopedCache DefinedName := {}
  tables : ScopedCache Table := {}
deriving DecidableEq, Inhabited

namespace WorkbookCaches

def reset (c : WorkbookCaches) (s : Signature) : WorkbookCaches :=
  ⟨c.names.reset s [], c.tables.reset s []⟩

def scope (c : WorkbookCaches) : Option Signature := c.names.scope

/-- Adds names and then tables; gives how many of each. A refusal keeps what is already added. -/
def populate (c : WorkbookCaches) (s : Signature) (names : List DefinedName)
    (tables : List Table) : WorkbookCaches × Except SignatureMismatch (Nat × Nat) :=
  match c.names.merge s (names.map fun n => (n.key, n)) with
  | .error e => (c, .error e)
  | .ok (n, merged) =>
    let c := { c with names := merged }
    match c.tables.merge s (tables.map fun t => (t.name, t)) with
    | .error e => (c, .error e)
    | .ok (m, merged) => ({ c with tables := merged }, .ok (n, m))

end WorkbookCaches

end SheetSync
