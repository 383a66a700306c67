import SheetSync.Double
/-!
JSON trees as a reader leaves them: members of an object in the order of the text, repeated keys
included. Integers within 64 bits and binary numbers are different values, also where they are
equal as numbers.
-/
namespace SheetSync

/-- A JSON tree. -/
inductive Json where
  | null
  | bool (b : Bool)
  | int (n : Int)
  | float (x : Double)
  | str (s : String)
  | arr (items : List Json)
  | obj (members : List (String × Json))
  /-- A literal that is well formed and stands for no value: a number past the largest binary one,
  or a string with half of a surrogate pair or with a gap. It only hurts whoever needs its value. -/
  | faulty
deriving Inhabited

namespace Json

def ofNat (n : Nat) : Json := .int n

def ofOption {α : Type} (f : α → Json) : Option α → Json
  | none => .null
  | some a => f a

def list {α : Type} (f : α → Json) (xs : List α) : Json := .arr (xs.map f)

/-- The last member with the key. -/
def get? (key : String) : Json → Option Json
  | .obj members => members.reverse.lookup key
  | _ => none

end Json

end SheetSync
