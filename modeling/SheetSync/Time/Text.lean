import SheetSync.Json.Number
import SheetSync.Text.Space
import SheetSync.Time.Instant
/-!
The written form of instants: a date, `T`, the time of day with its fraction and an offset. It is
written in universal time with as many groups of three fraction digits as are needed, and read with
white space between the parts and with numbers of fewer digits.
-/
namespace SheetSync.Instant

open Text (skipSpace)

/-- Digits of a number, padded with zeros. -/
def padded (width n : Nat) : String :=
  let ds := toString n
  String.ofList (List.replicate (width - ds.length) '0') ++ ds

/-- Years of four digits stand alone, and others have a sign. -/
def yearText (year : Int) : String :=
  if 0 ≤ year ∧ year ≤ 9999 then padded 4 year.toNat
  else (if year < 0 then "-" else "+") ++ padded 4 year.natAbs

def fractionText (nanos : Nat) : String :=
  if nanos = 0 then ""
  else if nanos % Nat.pow 10 6 = 0 then "." ++ padded 3 (nanos / Nat.pow 10 6)
  else if nanos % Nat.pow 10 3 = 0 then "." ++ padded 6 (nanos / Nat.pow 10 3)
  else "." ++ padded 9 nanos

def text (t : Instant) : String :=
  let d := Date.ofDays (Int.fdiv t.seconds 86400)
  let s := (Int.fmod t.seconds 86400).toNat
  let leap := t.nanos / Nat.pow 10 9
  s!"{yearText d.year}-{padded 2 d.month}-{padded 2 d.day}T" ++
    s!"{padded 2 (s / 3600)}:{padded 2 (s / 60 % 60)}:{padded 2 (s % 60 + leap)}" ++
    fractionText (t.nanos % Nat.pow 10 9) ++ "Z"

/-- A number of one up to `width` digits after white space, and the rest. -/
def number? (width : Nat) (cs : List Char) : Option (Nat × List Char) :=
  let cs := skipSpace cs
  let ds := (cs.take width).takeWhile Char.isDigit
  if ds = [] then none else some (Json.natOfDigits ds, cs.drop ds.length)

/-- A year of up to four digits, or of any number of them after a sign. -/
def year? (cs : List Char) : Option (Int × List Char) :=
  match skipSpace cs with
  | '-' :: rest => do
    if (rest.head?.map Char.isDigit) ≠ some true then none
    let (n, rest) ← number? rest.length rest
    return (-n, rest)
  | '+' :: rest => do
    if (rest.head?.map Char.isDigit) ≠ some true then none
    let (n, rest) ← number? rest.length rest
    return (n, rest)
  | cs => do
    let (n, rest) ← number? 4 cs
    return (n, rest)

/-- A separator, white space before it. -/
def expect (c : Char) (cs : List Char) : Option (List Char) :=
  match skipSpace cs with
  | d :: rest => if c = d then some rest else none
  | [] => none

/-- The fraction of a second to nine digits; more digits are dropped. -/
def fraction? : List Char → Option (Nat × List Char)
  | '.' :: rest =>
    let ds := rest.takeWhile Char.isDigit
    if ds = [] then none
    else
      let kept := ds.take 9
      some (Json.natOfDigits kept * Nat.pow 10 (9 - kept.length), rest.drop ds.length)
  | cs => some (0, cs)

/-- Two digits. -/
def twoDigits? : List Char → Option (Nat × List Char)
  | a :: b :: rest =>
    if a.isDigit ∧ b.isDigit then some (Json.natOfDigits [a, b], rest) else none
  | _ => none

/-- The seconds that a local time is ahead of universal time: `Z`, `UTC`, or a sign, hours and
minutes. -/
def offset? (cs : List Char) : Option (Int × List Char) :=
  let signed (sign : Int) (cs : List Char) : Option (Int × List Char) := do
    let (hours, rest) ← twoDigits? cs
    let (minutes, rest) ← twoDigits? (rest.dropWhile fun c => c = ':' || Text.isSpace c)
    if 60 ≤ minutes ∨ 24 ≤ hours then none
    return (sign * (hours * 3600 + minutes * 60), rest)
  match cs with
  | u :: t :: c :: rest =>
    if [u, t, c].map Char.toUpper = ['U', 'T', 'C'] then some (0, rest)
    else if u = 'Z' ∨ u = 'z' then some (0, t :: c :: rest)
    else if u = '+' then signed 1 (t :: c :: rest)
    else if u = '-' ∨ u = '−' then signed (-1) (t :: c :: rest)
    else none
  | 'Z' :: rest | 'z' :: rest => some (0, rest)
  | _ => none

/-- Reads the written form of an instant. -/
def ofText? (s : String) : Option Instant := do
  let (year, cs) ← year? s.toList
  let (month, cs) ← number? 2 (← expect '-' cs)
  let (day, cs) ← number? 2 (← expect '-' cs)
  let cs ← match cs with
    | 'T' :: rest | 't' :: rest | ' ' :: rest => some rest
    | _ => none
  let (hour, cs) ← number? 2 cs
  let (minute, cs) ← number? 2 (← expect ':' cs)
  let (second, cs) ← number? 2 (← expect ':' cs)
  let (nanos, cs) ← fraction? cs
  let (offset, cs) ← offset? (skipSpace cs)
  let date : Date := { year, month, day }
  if skipSpace cs ≠ [] ∨ date.isValid = false ∨ 24 ≤ hour ∨ 60 ≤ minute ∨ 61 ≤ second then none
  let seconds := date.days * 86400 + hour * 3600 + minute * 60 + (min second 59 : Nat) - offset
  if inRange seconds then
    return ⟨seconds, if second = 60 then nanos + Nat.pow 10 9 else nanos⟩
  else none

end SheetSync.Instant
