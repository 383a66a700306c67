import SheetSync.Toml.Basic
import SheetSync.Json.Reader
/-!
The scalars of TOML: keys, strings, numbers and times. A step reads something off the head of a text
and gives the rest, or refuses.
-/
namespace SheetSync.Toml

abbrev Step (α : Type) := List Char → Option (α × List Char)

def isBlank (c : Char) : Bool := c = ' ' || c = '\t'

def skipBlanks (cs : List Char) : List Char := cs.dropWhile isBlank

/-- Characters that may stand in comments and quotes: all but controls other than the tabulator. -/
def isPlain (c : Char) : Bool := c = '\t' || (0x20 ≤ c.toNat && c.toNat ≠ 0x7f)

/-- Drops a line break, which is a line feed or both of carriage return and line feed. -/
def lineBreak? : List Char → Option (List Char)
  | '\n' :: rest => some rest
  | '\r' :: '\n' :: rest => some rest
  | _ => none

def isBareKey (c : Char) : Bool := c.isAlphanum || c = '_' || c = '-'

/-- Hexadecimal digits of a character code. -/
def codePoint? (width : Nat) (cs : List Char) : Option (Char × List Char) := do
  let ds := cs.take width
  if ds.length < width then none
  let n ← ds.foldlM (fun n c => (Json.hexDigit? c).map (16 * n + ·)) 0
  if h : n.isValidChar then return (Char.ofNatAux n h, cs.drop width) else none

/-- The character after a backslash. -/
def escaped : Step Char
  | 'b' :: rest => some ('\x08', rest)
  | 't' :: rest => some ('\t', rest)
  | 'n' :: rest => some ('\n', rest)
  | 'f' :: rest => some ('\x0c', rest)
  | 'r' :: rest => some ('\r', rest)
  | '"' :: rest => some ('"', rest)
  | '\\' :: rest => some ('\\', rest)
  | 'u' :: rest => codePoint? 4 rest
  | 'U' :: rest => codePoint? 8 rest
  | _ => none

/-- The rest of a string between plain quotes. -/
def basicBody : Nat → List Char → Step String
  | 0, _, _ => none
  | _ + 1, acc, '"' :: rest => some (String.ofList acc.reverse, rest)
  | fuel + 1, acc, '\\' :: rest => do
    let (c, rest) ← escaped rest
    basicBody fuel (c :: acc) rest
  | fuel + 1, acc, c :: rest => if isPlain c then basicBody fuel (c :: acc) rest else none
  | _ + 1, _, [] => none

/-- The rest of a string between apostrophes, in which nothing is escaped. -/
def literalBody (cs : List Char) : Option (String × List Char) :=
  match cs.span fun c => isPlain c && c ≠ '\'' with
  | (body, '\'' :: rest) => some (String.ofList body, rest)
  | _ => none

/-- Blanks and line breaks after a backslash at the end of a line. -/
def skipBreaks : Nat → List Char → List Char
  | 0, cs => cs
  | fuel + 1, cs =>
    match cs with
    | c :: rest =>
      if isBlank c then skipBreaks fuel rest
      else match lineBreak? cs with
        | some rest => skipBreaks fuel rest
        | none => cs
    | [] => []

/-- The rest of a string between tripled quotes; up to two of them may stand at its end. -/
def longBody (quote : Char) : Nat → List Char → Step String
  | 0, _, _ => none
  | _ + 1, _, [] => none
  | fuel + 1, acc, c :: rest =>
    if c = quote then
      let run := ((c :: rest).takeWhile (· = quote)).length
      if run < 3 then longBody quote fuel (c :: acc) rest
      else
        let inside := min (run - 3) 2
        some (String.ofList ((List.replicate inside quote ++ acc).reverse),
          (c :: rest).drop (inside + 3))
    else if c = '\\' ∧ quote = '"' then
      match lineBreak? (skipBlanks rest) with
      | some rest => longBody quote fuel acc (skipBreaks (rest.length + 1) rest)
      | none => do
        let (e, rest) ← escaped rest
        longBody quote fuel (e :: acc) rest
    else if isPlain c then longBody quote fuel (c :: acc) rest
    else match lineBreak? (c :: rest) with
      | some rest => longBody quote fuel ('\n' :: acc) rest
      | none => none

def long (quote : Char) (cs : List Char) : Option (String × List Char) :=
  let cs := (lineBreak? cs).getD cs
  longBody quote (cs.length + 1) [] cs

def string : Step String
  | '"' :: '"' :: '"' :: rest => long '"' rest
  | '\'' :: '\'' :: '\'' :: rest => long '\'' rest
  | '"' :: rest => basicBody (rest.length + 1) [] rest
  | '\'' :: rest => literalBody rest
  | _ => none

/-- One part of a key. -/
def keyPart : Step String
  | '"' :: rest => basicBody (rest.length + 1) [] rest
  | '\'' :: rest => literalBody rest
  | cs =>
    match cs.span isBareKey with
    | ([], _) => none
    | (part, rest) => some (String.ofList part, rest)

/-- The parts of a key, joined by dots. -/
def key : Nat → Step (List String)
  | 0, _ => none
  | fuel + 1, cs => do
    let (part, rest) ← keyPart (skipBlanks cs)
    match skipBlanks rest with
    | '.' :: rest =>
      let (parts, rest) ← key fuel rest
      return (part :: parts, rest)
    | rest => return ([part], rest)

/-- How many arrays and inline tables may stand around each other, and how many parts a key may
have. -/
def maxDepth : Nat := 79

/-- A whole key. -/
def keyPath : Step (List String) := fun cs => do
  let (parts, rest) ← key (cs.length + 1) cs
  if parts.length ≤ maxDepth then return (parts, rest) else none

/-- Digits with single underscores between them. -/
def digitRun (isDigit : Char → Bool) : List Char → List Char × List Char
  | '_' :: c :: rest =>
    if isDigit c then let (ds, r) := digitRun isDigit rest; (c :: ds, r) else ([], '_' :: c :: rest)
  | c :: rest =>
    if isDigit c then let (ds, r) := digitRun isDigit rest; (c :: ds, r) else ([], c :: rest)
  | [] => ([], [])

/-- A digit and those that follow it. -/
def digits1 (isDigit : Char → Bool) : Step (List Char)
  | c :: rest =>
    if isDigit c then let (ds, r) := digitRun isDigit rest; some (c :: ds, r) else none
  | [] => none

def sign : List Char → Bool × List Char
  | '-' :: rest => (true, rest)
  | '+' :: rest => (false, rest)
  | cs => (false, cs)

/-- Decimal digits that are `0` alone or start with another digit. -/
def decimal (cs : List Char) : Option (List Char × List Char) :=
  match cs with
  | '0' :: rest => some (['0'], rest)
  | cs => digits1 Char.isDigit cs

def ofDigits (base : Nat) (ds : List Char) : Nat :=
  ds.foldl (fun n c => base * n + (Json.hexDigit? c).getD 0) 0

def fits (n : Int) : Bool := -Int.pow 2 63 ≤ n && n < Int.pow 2 63

def based (base : Nat) (cs : List Char) : Option (Node × List Char) := do
  let isDigit (c : Char) : Bool := (Json.hexDigit? c).any (· < base)
  let (ds, rest) ← digits1 isDigit cs
  let n : Int := ofDigits base ds
  if fits n then return (.integer n, rest) else none

def integer : Step Node
  | '0' :: 'x' :: rest => based 16 rest
  | '0' :: 'o' :: rest => based 8 rest
  | '0' :: 'b' :: rest => based 2 rest
  | cs => do
    let (negative, cs) := sign cs
    let (ds, rest) ← decimal cs
    let n : Int := ofDigits 10 ds
    let n := if negative then -n else n
    if fits n then return (.integer n, rest) else none

/-- The digits after a point, if there is one. -/
def fraction : Step (List Char)
  | '.' :: rest => digits1 Char.isDigit rest
  | cs => some ([], cs)

/-- The power of ten, if there is one. -/
def power : Step Int
  | c :: rest =>
    if c = 'e' ∨ c = 'E' then do
      let (negative, rest) := sign rest
      let (ds, rest) ← digits1 Char.isDigit rest
      let n : Int := ofDigits 10 ds
      return (if negative then -n else n, rest)
    else some (0, c :: rest)
  | [] => some (0, [])

/-- Whether digits times a power of ten lie beyond the largest binary number, with the half unit
that still rounds down to it. -/
def overflows (ds : List Char) (k : Int) : Bool :=
  let n := ofDigits 10 ds
  n ≠ 0 && 308 < k + ds.length &&
    (400 < k || (Nat.pow 2 54 - 1) * Nat.pow 2 970 * Nat.pow 10 (-k).toNat ≤ n * Nat.pow 10 k.toNat)

/-- Binary numbers: a fraction or a power of ten, or one of the special names. Only a positive one
must be in range. -/
def float (cs : List Char) : Option (Node × List Char) :=
  let (negative, body) := sign cs
  match body with
  | 'i' :: 'n' :: 'f' :: rest => some (.float, rest)
  | 'n' :: 'a' :: 'n' :: rest => some (.float, rest)
  | body => do
    let (whole, rest) ← decimal body
    let (frac, rest') ← fraction rest
    let (k, rest'') ← power rest'
    if rest''.length = rest.length then none
    if !negative && overflows (whole ++ frac) (k - frac.length) then none
    return (.float, rest'')

/-- A number of exactly so many digits within bounds. -/
def field (width lo hi : Nat) (cs : List Char) : Option (Nat × List Char) :=
  let ds := cs.take width
  if ds.length = width ∧ ds.all Char.isDigit then
    let n := ofDigits 10 ds
    if lo ≤ n ∧ n ≤ hi then some (n, cs.drop width) else none
  else none

def expect (c : Char) : List Char → Option (List Char)
  | d :: rest => if c = d then some rest else none
  | [] => none

/-- The last day of a month. -/
def lastDay (year month : Nat) : Nat :=
  if month = 2 then
    if year % 4 = 0 ∧ (year % 100 ≠ 0 ∨ year % 400 = 0) then 29 else 28
  else if month = 4 ∨ month = 6 ∨ month = 9 ∨ month = 11 then 30
  else 31

def date (cs : List Char) : Option (List Char) := do
  let (year, cs) ← field 4 0 9999 cs
  let (month, cs) ← field 2 1 12 (← expect '-' cs)
  let (_, cs) ← field 2 1 (lastDay year month) (← expect '-' cs)
  return cs

def clock (cs : List Char) : Option (List Char) := do
  let (_, cs) ← field 2 0 23 cs
  let (_, cs) ← field 2 0 59 (← expect ':' cs)
  let (_, cs) ← field 2 0 60 (← expect ':' cs)
  match cs with
  | '.' :: rest =>
    match rest.span Char.isDigit with
    | ([], _) => none
    | (_, rest) => return rest
  | cs => return cs

def offset : List Char → Option (List Char)
  | c :: rest =>
    if c = 'Z' ∨ c = 'z' then some rest
    else if c = '+' ∨ c = '-' then do
      let (_, cs) ← field 2 0 23 rest
      let (_, cs) ← field 2 0 59 (← expect ':' cs)
      return cs
    else some (c :: rest)
  | [] => some []

/-- A date, a time of day, or both with or without an offset. -/
def time (cs : List Char) : Option (Node × List Char) :=
  match date cs with
  | none => (clock cs).map (.time, ·)
  | some rest =>
    let joined := match rest with
      | c :: after =>
        if c = 'T' ∨ c = 't' ∨ c = ' ' then (clock after).bind offset else none
      | [] => none
    some (.time, joined.getD rest)

end SheetSync.Toml
