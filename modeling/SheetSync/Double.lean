/-!
Binary floating-point numbers of 64 bits, kept as their bit pattern, so that two of them are equal
exactly when they are the same number written the same way. The text of a number has the fewest
digits that read back as it, the nearest of those where several do.
-/
namespace SheetSync

/-- A binary number of 64 bits: a sign bit, 11 bits of exponent and 52 bits of fraction. -/
structure Double where
  bits : UInt64
deriving DecidableEq, Inhabited

namespace Double

def ofFloat (x : Float) : Double := ⟨x.toBits⟩

def isNegative (x : Double) : Bool := Nat.pow 2 63 ≤ x.bits.toNat

def exponentField (x : Double) : Nat := x.bits.toNat / Nat.pow 2 52 % Nat.pow 2 11

def fraction (x : Double) : Nat := x.bits.toNat % Nat.pow 2 52

/-- The magnitude of a finite number is `mantissa * 2 ^ exponent`. -/
def mantissa (x : Double) : Nat :=
  if x.exponentField = 0 then x.fraction else x.fraction + Nat.pow 2 52

def exponent (x : Double) : Int := (max x.exponentField 1 : Nat) - 1075

/-- A positive rational number as a quotient. -/
structure Quotient where
  num : Nat
  den : Nat

/-- The quotient `n * 2 ^ binary / 10 ^ decimal`. -/
def Quotient.scaled (n : Nat) (binary decimal : Int) : Quotient where
  num := n * Nat.pow 2 binary.toNat * Nat.pow 10 (-decimal).toNat
  den := Nat.pow 2 (-binary).toNat * Nat.pow 10 decimal.toNat

/-- The reals that round to a number, in quarters of its last place: `low` and `high` are the
middles between it and its neighbours, which belong to it when its mantissa is even. -/
structure Interval where
  low : Nat
  high : Nat
  closed : Bool

def interval (x : Double) : Interval where
  low := 4 * x.mantissa - (if x.fraction = 0 ∧ 1 < x.exponentField then 1 else 2)
  high := 4 * x.mantissa + 2
  closed := x.mantissa % 2 == 0

/-- Whether `n * 10 ^ k` rounds to `x`. -/
def readsBack (x : Double) (k : Int) (n : Nat) : Bool :=
  let low := Quotient.scaled x.interval.low (x.exponent - 2) k
  let high := Quotient.scaled x.interval.high (x.exponent - 2) k
  if x.interval.closed then low.num ≤ n * low.den && n * high.den ≤ high.num
  else low.num < n * low.den && n * high.den < high.num

/-- The point of the grid of multiples of `10 ^ k` that rounds to `x`: the nearer one of the two
next to `x` where both do, the even one where they are equally near. -/
def onGrid? (x : Double) (k : Int) : Option Nat :=
  let v := Quotient.scaled (4 * x.mantissa) (x.exponent - 2) k
  let below := v.num / v.den
  let above := below + 1
  let past := 2 * (v.num % v.den)
  match x.readsBack k below, x.readsBack k above with
  | true, true =>
    if past < v.den then some below
    else if v.den < past then some above
    else if below % 2 = 0 then some below else some above
  | true, false => some below
  | false, true => some above
  | false, false => none

/-- The power of ten of the leading digit: `10 ^ magnitude ≤ x < 10 ^ (magnitude + 1)`. -/
def magnitude (x : Double) : Int :=
  let v := Quotient.scaled x.mantissa x.exponent (-400)
  (toString (v.num / v.den)).length - 401

/-- Takes the zeros off the end of a decimal number. -/
def trimZeros : Nat → Nat → Int → Nat × Int
  | 0, n, k => (n, k)
  | fuel + 1, n, k => if n % 10 = 0 then trimZeros fuel (n / 10) (k + 1) else (n, k)

/-- The shortest decimal number `n * 10 ^ k` that rounds to a positive `x`, searched on the grids of
one digit, of two, and so on; seventeen digits always suffice. -/
def shortest (x : Double) : Nat × Int :=
  let grids := (List.range 17).map fun (i : Nat) => x.magnitude - i
  match grids.findSome? fun k => (x.onGrid? k).map (·, k) with
  | some (n, k) => trimZeros 17 n k
  | none => (0, 0)

/-- Digits around the decimal point: positional from `1e-5` up to below `1e16`, and with an
exponent outside of that; a whole number keeps `.0`. -/
def layout (digits : List Char) (k : Int) : List Char :=
  let point := digits.length + k
  if 0 ≤ k ∧ point ≤ 16 then
    digits ++ List.replicate k.toNat '0' ++ ['.', '0']
  else if 0 < point ∧ point ≤ 16 then
    digits.take point.toNat ++ '.' :: digits.drop point.toNat
  else if -5 < point ∧ point ≤ 0 then
    ['0', '.'] ++ List.replicate (-point).toNat '0' ++ digits
  else
    let power := point - 1
    let body := match digits with
      | d :: e :: rest => d :: '.' :: e :: rest
      | short => short
    body ++ ['e', if power < 0 then '-' else '+'] ++ (toString power.natAbs).toList

/-- The written form of a finite number. -/
def text (x : Double) : List Char :=
  let sign := if x.isNegative then ['-'] else []
  if x.mantissa = 0 then sign ++ ['0', '.', '0']
  else
    let (n, k) := x.shortest
    sign ++ layout (toString n).toList k

end Double

end SheetSync
