import SheetSync.Toml.Scalar
/-!
Reading of whole TOML documents. Values nest arrays and inline tables; a document is read line by
line into one tree. Recursion runs on fuel that the length of the text pays for.
-/
namespace SheetSync.Toml

/-- Drops a comment, up to the end of its line. -/
def skipComment : List Char → List Char
  | '#' :: rest => rest.dropWhile isPlain
  | cs => cs

/-- Blanks, line breaks and comments between the items of an array. -/
def skipLines : Nat → List Char → List Char
  | 0, cs => cs
  | fuel + 1, cs =>
    let rest := skipBlanks cs
    match lineBreak? (skipComment rest) with
    | some rest => skipLines fuel rest
    | none => rest

mutual

/-- A value, in which at most `depth` arrays and inline tables stand around each other. -/
def value : Nat → Nat → Step Node
  | 0, _, _ => none
  | fuel + 1, depth, cs =>
    match depth, cs with
    | 0, '[' :: _ | 0, '{' :: _ => none
    | depth + 1, '[' :: rest => items fuel depth [] rest
    | depth + 1, '{' :: rest =>
      match skipBlanks rest with
      | '}' :: rest => some (.table .braces [], rest)
      | rest => pairs fuel depth [] rest
    | _, 't' :: 'r' :: 'u' :: 'e' :: rest => some (.boolean true, rest)
    | _, 'f' :: 'a' :: 'l' :: 's' :: 'e' :: rest => some (.boolean false, rest)
    | _, '"' :: _ | _, '\'' :: _ => (string cs).map fun (s, rest) => (.text s, rest)
    | _, _ => (time cs).or ((float cs).or (integer cs))

/-- The items of an array up to its bracket; a comma may follow the last one. -/
def items : Nat → Nat → List Node → Step Node
  | 0, _, _, _ => none
  | fuel + 1, depth, acc, cs =>
    match skipLines (cs.length + 1) cs with
    | ']' :: rest => some (.array acc.reverse, rest)
    | rest => do
      let (x, rest) ← value fuel depth rest
      match skipLines (rest.length + 1) rest with
      | ',' :: rest => items fuel depth (x :: acc) rest
      | ']' :: rest => return (.array (x :: acc).reverse, rest)
      | _ => none

/-- The pairs of an inline table up to its brace, all on one line. -/
def pairs : Nat → Nat → Entries → Step Node
  | 0, _, _, _ => none
  | fuel + 1, depth, acc, cs => do
    let (path, rest) ← keyPath cs
    let rest ← expect '=' rest
    let (x, rest) ← value fuel depth (skipBlanks rest)
    let acc ← acc.addPair path.dropLast (path.getLastD "") x
    match skipBlanks rest with
    | ',' :: rest => pairs fuel depth acc rest
    | '}' :: rest => return (.table .braces acc, rest)
    | _ => none

end

/-- What is left after the end of a line, which may hold a comment; none at other text. -/
def lineEnd? (cs : List Char) : Option (List Char) :=
  match skipComment (skipBlanks cs) with
  | [] => some []
  | rest => lineBreak? rest

/-- The document so far, and how to reach the table that pairs go to now. -/
structure Draft where
  root : Entries
  current : List String

namespace Draft

def addPair (d : Draft) (path : List String) (key : String) (x : Node) : Option Draft := do
  let root ← Entries.atHeader (fun es => es.addPair path key x) d.current d.root
  return { d with root }

end Draft

/-- Reads one line that is not blank. -/
def line (d : Draft) (cs : List Char) : Option (Draft × List Char) :=
  match cs with
  | '[' :: '[' :: rest => do
    let (path, rest) ← keyPath rest
    let rest ← expect ']' rest
    let rest ← expect ']' rest
    let root ← d.root.openElement path.dropLast (path.getLastD "")
    return (⟨root, path⟩, rest)
  | '[' :: rest => do
    let (path, rest) ← keyPath rest
    let rest ← expect ']' rest
    let root ← d.root.openTable path.dropLast (path.getLastD "")
    return (⟨root, path⟩, rest)
  | cs => do
    let (path, rest) ← keyPath cs
    let rest ← expect '=' rest
    let (x, rest) ← value (2 * rest.length + 2) maxDepth (skipBlanks rest)
    return (← d.addPair path.dropLast (path.getLastD "") x, rest)

def lines : Nat → Draft → List Char → Option Draft
  | 0, _, _ => none
  | fuel + 1, d, cs =>
    match skipBlanks cs with
    | [] => some d
    | rest =>
      match lineEnd? rest with
      | some [] => some d
      | some rest => lines fuel d rest
      | none => do
        let (d, rest) ← line d rest
        match ← lineEnd? rest with
        | [] => return d
        | rest => lines fuel d rest

/-- Reads a document; a byte order mark may come first. -/
def read? (text : String) : Option Entries := do
  let cs := match text.toList with
    | '\uFEFF' :: rest => rest
    | cs => cs
  let d ← lines (cs.length + 1) ⟨[], []⟩ cs
  return d.root

end SheetSync.Toml
