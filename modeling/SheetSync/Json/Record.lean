import SheetSync.Json.Basic
/-!
Taking domain values out of JSON trees. A record comes as an object, whose unknown members are
ignored and whose known ones must not repeat, or as an array with the fields in their order.
-/
namespace SheetSync.Json

abbrev Decoder (α : Type) := Json → Option α

namespace Decoder

def string : Decoder String
  | .str s => some s
  | _ => none

def bool : Decoder Bool
  | .bool b => some b
  | _ => none

/-- An integer literal from `lo` up to below `hi`. -/
def int (lo hi : Int) : Decoder Int
  | .int n => if lo ≤ n ∧ n < hi then some n else none
  | _ => none

/-- A natural number below `2 ^ bits`. -/
def nat (bits : Nat) : Decoder Nat
  | .int (.ofNat n) => if n < Nat.pow 2 bits then some n else none
  | _ => none

def int64 : Decoder Int := int (-Int.pow 2 63) (Int.pow 2 63)

def list {α : Type} (item : Decoder α) : Decoder (List α)
  | .arr items => items.mapM item
  | _ => none

/-- Null stands for absence. -/
def nullable {α : Type} (item : Decoder α) : Decoder (Option α)
  | .null => some none
  | x => (item x).map some

def pair {α β : Type} (first : Decoder α) (second : Decoder β) : Decoder (α × β)
  | .arr [x, y] => do return (← first x, ← second y)
  | _ => none

def triple {α β γ : Type} (first : Decoder α) (second : Decoder β) (third : Decoder γ) :
    Decoder (α × β × γ)
  | .arr [x, y, z] => do return (← first x, ← second y, ← third z)
  | _ => none

/-- One of some names, written as a text or as the only key of an object that holds null. -/
def choice {α : Type} (choices : List (String × α)) : Decoder α
  | .str s => choices.lookup s
  | .obj [(s, .null)] => choices.lookup s
  | _ => none

end Decoder

/-- The fields of a record as they were found. -/
structure Record where
  positional : Bool
  slots : List (String × Json)

/-- Reads a tree as a record with the fields given. -/
def record? (fields : List String) : Decoder Record
  | .obj members =>
    let known := members.filter fun m => m.1 ∈ fields
    if (known.map Prod.fst).Nodup then some ⟨false, known⟩ else none
  | .arr items => if items.length ≤ fields.length then some ⟨true, fields.zip items⟩ else none
  | _ => none

namespace Record

variable {α : Type}

/-- A field that must be there. -/
def required (r : Record) (field : String) (item : Decoder α) : Option α := do
  item (← r.slots.lookup field)

/-- A field that may be null, and may be missing from an object. -/
def optional (r : Record) (field : String) (item : Decoder α) : Option (Option α) :=
  match r.slots.lookup field with
  | some x => Decoder.nullable item x
  | none => if r.positional then none else some none

/-- A field that may be missing. -/
def orElse (r : Record) (field : String) (default : α) (item : Decoder α) : Option α :=
  match r.slots.lookup field with
  | some x => item x
  | none => some default

end Record

/-! Members of an object that is no record: whatever else it holds is not looked at. -/

variable {α : Type}

/-- A member that must be there. -/
def required (j : Json) (key : String) (item : Decoder α) : Option α := do
  item (← j.get? key)

/-- A member that may be null or missing. -/
def optional (j : Json) (key : String) (item : Decoder α) : Option (Option α) :=
  match j.get? key with
  | some x => Decoder.nullable item x
  | none => some none

/-- A member that has a value also where it is null or missing. -/
def orElse (j : Json) (key : String) (default : α) (item : Decoder α) : Option α := do
  return (← j.optional key item).getD default

end SheetSync.Json
