import SheetSync.Json.Number
/-!
Strict reading of JSON: one value, blanks around it, nothing else. Recursion runs on fuel that twice
the length of the text always pays for. A text may have a `flaw`: a character that stands for what
could not be decoded. A string with a flaw is well formed but has no value.
-/
namespace SheetSync.Json

def isBlank (c : Char) : Bool := c = ' ' || c = '\n' || c = '\t' || c = '\r'

def skipBlanks (cs : List Char) : List Char := cs.dropWhile isBlank

def hexDigit? (c : Char) : Option Nat :=
  if '0' ≤ c ∧ c ≤ '9' then some (c.toNat - 48)
  else if 'a' ≤ c ∧ c ≤ 'f' then some (c.toNat - 87)
  else if 'A' ≤ c ∧ c ≤ 'F' then some (c.toNat - 55)
  else none

/-- Four hexadecimal digits as one 16-bit unit. -/
def hexUnit? : List Char → Option (Nat × List Char)
  | a :: b :: c :: d :: rest => do
    let a ← hexDigit? a
    let b ← hexDigit? b
    let c ← hexDigit? c
    let d ← hexDigit? d
    return (((a * 16 + b) * 16 + c) * 16 + d, rest)
  | _ => none

/-- The character of a two-letter escape. -/
def escape? : Char → Option Char
  | '"' => some '"'
  | '\\' => some '\\'
  | '/' => some '/'
  | 'b' => some '\x08'
  | 'f' => some '\x0c'
  | 'n' => some '\n'
  | 'r' => some '\r'
  | 't' => some '\t'
  | _ => none

def isHighSurrogate (n : Nat) : Bool := 0xD800 ≤ n && n < 0xDC00

def isLowSurrogate (n : Nat) : Bool := 0xDC00 ≤ n && n < 0xE000

/-- The low half of a pair, if one is spelled out next. -/
def lowHalf? : List Char → Option (Nat × List Char)
  | '\\' :: 'u' :: cs => do
    let (n, rest) ← hexUnit? cs
    if isLowSurrogate n then return (n, rest) else none
  | _ => none

/-- The inside of a string up to its closing quote, read onto `acc` in reverse; `whole` turns false
at a flaw and at half of a surrogate pair. -/
def stringBody (flaw : Option Char) :
    Nat → List Char → Bool → List Char → Option (Option String × List Char)
  | 0, _, _, _ => none
  | _ + 1, _, _, [] => none
  | _ + 1, acc, whole, '"' :: rest =>
    some (if whole then some (String.ofList acc.reverse) else none, rest)
  | fuel + 1, acc, whole, '\\' :: 'u' :: cs => do
    let (n, rest) ← hexUnit? cs
    if isHighSurrogate n then
      match lowHalf? rest with
      | some (low, rest) =>
        let code := 0x10000 + (n - 0xD800) * 0x400 + (low - 0xDC00)
        stringBody flaw fuel (Char.ofNat code :: acc) whole rest
      | none => stringBody flaw fuel acc false rest
    else if isLowSurrogate n then stringBody flaw fuel acc false rest
    else stringBody flaw fuel (Char.ofNat n :: acc) whole rest
  | fuel + 1, acc, whole, '\\' :: c :: rest => do
    let e ← escape? c
    stringBody flaw fuel (e :: acc) whole rest
  | fuel + 1, acc, whole, c :: rest =>
    if c.toNat < 0x20 ∨ c = '\\' then none
    else stringBody flaw fuel (c :: acc) (whole && flaw ≠ some c) rest

/-- The string after an opening quote. -/
def string? (flaw : Option Char) (fuel : Nat) (cs : List Char) :
    Option (Option String × List Char) :=
  stringBody flaw fuel [] true cs

/-- An object with an unreadable key has no value. -/
def object (members : List (Option String × Json)) : Json :=
  match members.mapM fun m => m.1.map (·, m.2) with
  | some ms => .obj ms
  | none => .faulty

mutual

/-- The value at the head of a text, and the rest. -/
def value? (flaw : Option Char) : Nat → List Char → Option (Json × List Char)
  | 0, _ => none
  | fuel + 1, cs =>
    match skipBlanks cs with
    | 'n' :: 'u' :: 'l' :: 'l' :: rest => some (.null, rest)
    | 't' :: 'r' :: 'u' :: 'e' :: rest => some (.bool true, rest)
    | 'f' :: 'a' :: 'l' :: 's' :: 'e' :: rest => some (.bool false, rest)
    | '"' :: rest => do
      let (s, rest) ← string? flaw fuel rest
      return (match s with | some s => .str s | none => .faulty, rest)
    | '[' :: rest =>
      match skipBlanks rest with
      | ']' :: rest => some (.arr [], rest)
      | rest => do
        let (items, rest) ← items? flaw fuel rest
        return (.arr items, rest)
    | '{' :: rest =>
      match skipBlanks rest with
      | '}' :: rest => some (.obj [], rest)
      | rest => do
        let (members, rest) ← members? flaw fuel rest
        return (object members, rest)
    | rest => do
      let (x, rest) ← Literal.scan? rest
      return (x.value, rest)

/-- Values separated by commas, up to the closing bracket. -/
def items? (flaw : Option Char) : Nat → List Char → Option (List Json × List Char)
  | 0, _ => none
  | fuel + 1, cs => do
    let (x, rest) ← value? flaw fuel cs
    match skipBlanks rest with
    | ',' :: rest =>
      let (xs, rest) ← items? flaw fuel rest
      return (x :: xs, rest)
    | ']' :: rest => return ([x], rest)
    | _ => none

/-- Members separated by commas, up to the closing brace. -/
def members? (flaw : Option Char) :
    Nat → List Char → Option (List (Option String × Json) × List Char)
  | 0, _ => none
  | fuel + 1, cs =>
    match skipBlanks cs with
    | '"' :: rest => do
      let (key, rest) ← string? flaw fuel rest
      match skipBlanks rest with
      | ':' :: rest =>
        let (x, rest) ← value? flaw fuel rest
        match skipBlanks rest with
        | ',' :: rest =>
          let (ms, rest) ← members? flaw fuel rest
          return ((key, x) :: ms, rest)
        | '}' :: rest => return ([(key, x)], rest)
        | _ => none
      | _ => none
    | _ => none

end

/-- Reads a whole text. -/
def read? (cs : List Char) (flaw : Option Char := none) : Option Json := do
  let (x, rest) ← value? flaw (2 * cs.length + 2) cs
  if skipBlanks rest = [] then return x else none

end SheetSync.Json
