/-!
TOML documents as trees. A table remembers how it came about, because that decides whether a later
line may still add to it.
-/
namespace SheetSync.Toml

/-- How a table came about: by its own header, between braces, on the way to a longer header, or by
a dotted key. -/
inductive Origin where
  | header
  | braces
  | onTheWay
  | dotted
deriving DecidableEq

/-- A value, a table or an array of tables. -/
inductive Node where
  | integer (n : Int)
  | boolean (b : Bool)
  | text (s : String)
  | float
  | time
  | array (items : List Node)
  | table (origin : Origin) (entries : List (String × Node))
  | tables (items : List (List (String × Node)))
deriving Inhabited

abbrev Entries := List (String × Node)

namespace Entries

/-- Replaces the entry of a key or appends one. -/
def put (key : String) (x : Node) : Entries → Entries
  | [] => [(key, x)]
  | (k, y) :: rest => if key = k then (k, x) :: rest else (k, y) :: put key x rest

/-- Changes the table at the end of a dotted path, through the last element of arrays of tables. The
tables on the way must be open for dotted keys; missing ones are made. -/
def atDotted (f : Origin → Entries → Option Entries) (origin : Origin) :
    List String → Entries → Option Entries
  | [], es => f origin es
  | key :: path, es =>
    match es.lookup key with
    | none => do return es.put key (.table .dotted (← atDotted f .dotted path []))
    | some (.table o inner) =>
      if o = .header ∨ o = .braces then none
      else do return es.put key (.table o (← atDotted f o path inner))
    | some (.tables items) =>
      match items.getLast? with
      | some last =>
        do return es.put key (.tables (items.dropLast ++ [← atDotted f .header path last]))
      | none => none
    | some _ => none

/-- Adds `path.key = x`: the key must be new, and a dotted path must end in a table made by dotted
keys. -/
def addPair (path : List String) (key : String) (x : Node) (es : Entries) : Option Entries :=
  atDotted (fun origin es =>
    if (es.lookup key).isSome ∨ (path ≠ [] ∧ origin ≠ .dotted) then none
    else some (es ++ [(key, x)])) .header path es

/-- Changes the table that a header path leads to, through the last element of arrays of tables;
missing tables are made on the way. -/
def atHeader (f : Entries → Option Entries) : List String → Entries → Option Entries
  | [], es => f es
  | key :: path, es =>
    match es.lookup key with
    | none => do return es.put key (.table .onTheWay (← atHeader f path []))
    | some (.table o inner) =>
      if o = .braces then none
      else do return es.put key (.table o (← atHeader f path inner))
    | some (.tables items) =>
      match items.getLast? with
      | some last => do return es.put key (.tables (items.dropLast ++ [← atHeader f path last]))
      | none => none
    | some _ => none

/-- Opens the table `[path.key]`, which no header may have opened before. -/
def openTable (path : List String) (key : String) : Entries → Option Entries :=
  atHeader (fun es =>
    match es.lookup key with
    | none => some (es.put key (.table .header []))
    | some (.table .onTheWay inner) => some (es.put key (.table .header inner))
    | some _ => none) path

/-- Appends an element to the array of tables `[[path.key]]`. -/
def openElement (path : List String) (key : String) : Entries → Option Entries :=
  atHeader (fun es =>
    match es.lookup key with
    | none => some (es.put key (.tables [[]]))
    | some (.tables items) => some (es.put key (.tables (items ++ [[]])))
    | some _ => none) path

end Entries

end SheetSync.Toml
