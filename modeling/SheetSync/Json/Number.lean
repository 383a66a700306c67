import SheetSync.Json.Basic
/-!
Number literals of JSON and the values they stand for. An integer literal within 64 bits is an
integer; every other literal is a binary number, found by one correctly rounded scaling of the
digits that fit into 64 bits.
-/
namespace SheetSync.Json

/-- A number literal: `-`, digits, a fraction and an exponent (its sign and digits). -/
structure Literal where
  negative : Bool
  whole : List Char
  fraction : Option (List Char)
  power : Option (Bool × List Char)

/-- Splits off the leading decimal digits. -/
def digits (cs : List Char) : List Char × List Char := cs.span Char.isDigit

def natOfDigits (cs : List Char) : Nat :=
  cs.foldl (fun n c => 10 * n + (c.toNat - 48)) 0

namespace Literal

def scanFraction : List Char → Option (Option (List Char) × List Char)
  | '.' :: cs =>
    match digits cs with
    | ([], _) => none
    | (ds, rest) => some (some ds, rest)
  | cs => some (none, cs)

def scanPower (cs : List Char) : Option (Option (Bool × List Char) × List Char) :=
  let signed (below : Bool) (cs : List Char) :=
    match digits cs with
    | ([], _) => none
    | (ds, rest) => some (some (below, ds), rest)
  match cs with
  | [] => some (none, [])
  | c :: rest =>
    if c = 'e' ∨ c = 'E' then
      match rest with
      | '+' :: rest => signed false rest
      | '-' :: rest => signed true rest
      | rest => signed false rest
    else some (none, c :: rest)

/-- The whole part is `0` or starts with another digit. -/
def scanWhole (cs : List Char) : Option (List Char × List Char) :=
  match digits cs with
  | ([], _) => none
  | ('0' :: _ :: _, _) => none
  | (ds, rest) => some (ds, rest)

/-- The literal at the head of a text, and the rest. -/
def scan? (cs : List Char) : Option (Literal × List Char) := do
  let (negative, cs) := match cs with
    | '-' :: rest => (true, rest)
    | cs => (false, cs)
  let (whole, cs) ← scanWhole cs
  let (fraction, cs) ← scanFraction cs
  let (power, cs) ← scanPower cs
  return (⟨negative, whole, fraction, power⟩, cs)

/-- Reads digits into a significand as long as it stays below `2 ^ 64`; gives the number of digits
taken. -/
def significand : Nat → List Char → Nat × Nat
  | n, [] => (n, 0)
  | n, c :: cs =>
    let next := 10 * n + (c.toNat - 48)
    if next < Nat.pow 2 64 then
      let (m, taken) := significand next cs
      (m, taken + 1)
    else (n, 0)

/-- The significand and the power of ten of the digits before and after the point; digits that do
not fit are dropped. -/
def mantissa (x : Literal) : Nat × Int :=
  let (n, taken) := significand 0 x.whole
  let dropped := x.whole.length - taken
  let (m, after) := significand n (x.fraction.getD [])
  (m, (dropped : Int) - after)

def tenTo (k : Nat) : Float := Float.ofScientific 1 false k

/-- Multiplies by a power of ten, in steps of `1e308` downwards; none where the result would be
infinite. -/
def scale (x : Float) (k : Int) : Nat → Option Float
  | 0 => some 0.0
  | steps + 1 =>
    if 0 ≤ k then
      if k ≤ 308 then
        let y := x * tenTo k.toNat
        if y.isInf then none else some y
      else if x == 0.0 then some x
      else none
    else if -308 ≤ k then some (x / tenTo (-k).toNat)
    else if x == 0.0 then some x
    else scale (x / tenTo 308) (k + 308) steps

/-- The value as a binary number, if it is in range. Four steps downwards bring every 64-bit
significand to zero, and an exponent past 32 bits decides alone. -/
def float? (x : Literal) : Option Float :=
  let (m, k) := x.mantissa
  let shift := match x.power with
    | none => 0
    | some (below, ds) => if below then -(natOfDigits ds : Int) else natOfDigits ds
  let magnitude :=
    if shift.natAbs < Nat.pow 2 31 then
      scale m.toUInt64.toFloat (max (-Int.pow 2 31) (min (Int.pow 2 31 - 1) (k + shift))) 4
    else if m = 0 ∨ shift < 0 then some 0.0
    else none
  magnitude.map fun y => if x.negative then -y else y

def isInteger (x : Literal) : Bool := x.fraction.isNone && x.power.isNone

/-- The value of a literal; a negative zero and integers past 64 bits are binary numbers. -/
def value (x : Literal) : Json :=
  let n := natOfDigits x.whole
  if x.isInteger && !x.negative && n < Nat.pow 2 64 then .int n
  else if x.isInteger && x.negative && 0 < n && n ≤ Nat.pow 2 63 then .int (-n)
  else match x.float? with
    | some y => .float (.ofFloat y)
    | none => .faulty

end Literal

end SheetSync.Json
