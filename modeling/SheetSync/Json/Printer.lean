import SheetSync.Json.Basic
/-!
Writing of JSON, on one line or indented by two blanks a level. In strings only the quote, the
backslash and control characters are escaped.
-/
namespace SheetSync.Json

def hexChar (n : Nat) : Char := if n < 10 then Char.ofNat (48 + n) else Char.ofNat (87 + n)

/-- A character inside quotes. -/
def escaped (c : Char) : List Char :=
  if c = '"' then ['\\', '"']
  else if c = '\\' then ['\\', '\\']
  else if c = '\x08' then ['\\', 'b']
  else if c = '\t' then ['\\', 't']
  else if c = '\n' then ['\\', 'n']
  else if c = '\x0c' then ['\\', 'f']
  else if c = '\r' then ['\\', 'r']
  else if c.toNat < 0x20 then
    ['\\', 'u', '0', '0', hexChar (c.toNat / 16), hexChar (c.toNat % 16)]
  else [c]

def quoted (s : String) : List Char := '"' :: (s.toList.flatMap escaped ++ ['"'])

/-- Scalars; arrays and objects have no text of their own here. -/
def scalar : Json → List Char
  | .bool true => ['t', 'r', 'u', 'e']
  | .bool false => ['f', 'a', 'l', 's', 'e']
  | .int n => (toString n).toList
  | .float x => x.text
  | .str s => quoted s
  | _ => ['n', 'u', 'l', 'l']

mutual

def compact : Json → List Char
  | .arr items => '[' :: (compactItems true items ++ [']'])
  | .obj members => '{' :: (compactMembers true members ++ ['}'])
  | x => scalar x

def compactItems (first : Bool) : List Json → List Char
  | [] => []
  | x :: xs => (if first then [] else [',']) ++ compact x ++ compactItems false xs

def compactMembers (first : Bool) : List (String × Json) → List Char
  | [] => []
  | (key, x) :: ms =>
    (if first then [] else [',']) ++ quoted key ++ ':' :: (compact x ++ compactMembers false ms)

end

/-- A new line at a level of indentation. -/
def newline (level : Nat) : List Char := '\n' :: List.replicate (2 * level) ' '

mutual

/-- The indented form of a value that starts at a level. -/
def indented (level : Nat) : Json → List Char
  | .arr [] => ['[', ']']
  | .arr items => '[' :: (indentedItems (level + 1) true items ++ newline level ++ [']'])
  | .obj [] => ['{', '}']
  | .obj members => '{' :: (indentedMembers (level + 1) true members ++ newline level ++ ['}'])
  | x => scalar x

def indentedItems (level : Nat) (first : Bool) : List Json → List Char
  | [] => []
  | x :: xs =>
    (if first then [] else [',']) ++ newline level ++ indented level x ++
      indentedItems level false xs

def indentedMembers (level : Nat) (first : Bool) : List (String × Json) → List Char
  | [] => []
  | (key, x) :: ms =>
    (if first then [] else [',']) ++ newline level ++ quoted key ++
      ':' :: ' ' :: (indented level x ++ indentedMembers level false ms)

end

/-- The indented form of a document. -/
def pretty (x : Json) : List Char := indented 0 x

end SheetSync.Json
