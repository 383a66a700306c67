/-!
Instants of universal time to the nanosecond, and the dates that they fall on. Days are counted in
the calendar whose every fourth year is a leap year, but for the centuries that 400 does not divide.
A minute may end in a leap second, which is written into the second before it.
-/
namespace SheetSync

/-- The days from the start of 1970 to the first of March of a year. -/
def daysToMarch (year : Int) : Int :=
  365 * year + Int.fdiv year 4 - Int.fdiv year 100 + Int.fdiv year 400 - 719468

/-- The days from the first of March to the first of a month of the year that starts there. -/
def daysFromMarch (month : Nat) : Nat := (153 * ((month + 9) % 12) + 2) / 5

/-- A day of the calendar. -/
structure Date where
  year : Int
  month : Nat
  day : Nat
deriving DecidableEq, Inhabited

namespace Date

def isLeapYear (year : Int) : Bool :=
  Int.fmod year 4 = 0 && (Int.fmod year 100 ≠ 0 || Int.fmod year 400 = 0)

def daysIn (year : Int) (month : Nat) : Nat :=
  if month = 2 then if isLeapYear year then 29 else 28
  else if month = 4 ∨ month = 6 ∨ month = 9 ∨ month = 11 then 30
  else 31

/-- Whether the calendar has the day, in the years that can be told. -/
def isValid (d : Date) : Bool :=
  -262143 ≤ d.year && d.year ≤ 262142 && 1 ≤ d.month && d.month ≤ 12 && 1 ≤ d.day &&
    d.day ≤ daysIn d.year d.month

/-- The days from the start of 1970. -/
def days (d : Date) : Int :=
  daysToMarch (if d.month ≤ 2 then d.year - 1 else d.year) + daysFromMarch d.month + d.day - 1

/-- The date so many days after the start of 1970. Years are counted from March in eras of 400. -/
def ofDays (days : Int) : Date :=
  let shifted := days + 719468
  let era := Int.fdiv shifted 146097
  let dayOfEra := (Int.fmod shifted 146097).toNat
  let yearOfEra := (dayOfEra - dayOfEra / 1460 + dayOfEra / 36524 - dayOfEra / 146096) / 365
  let dayOfYear := dayOfEra - (365 * yearOfEra + yearOfEra / 4 - yearOfEra / 100)
  let part := (5 * dayOfYear + 2) / 153
  let month := if part < 10 then part + 3 else part - 9
  { year := era * 400 + yearOfEra + (if month ≤ 2 then 1 else 0)
    month
    day := dayOfYear - (153 * part + 2) / 5 + 1 }

end Date

/-- Seconds since the start of 1970, and nanoseconds within the second: a thousand million of them
or more within a leap second. -/
structure Instant where
  seconds : Int
  nanos : Nat
deriving DecidableEq, Inhabited

namespace Instant

instance : LE Instant where
  le a b := a.seconds < b.seconds ∨ (a.seconds = b.seconds ∧ a.nanos ≤ b.nanos)

instance (a b : Instant) : Decidable (a ≤ b) :=
  inferInstanceAs (Decidable (_ ∨ _))

/-- The seconds at the ends of the years that can be told. -/
def firstSecond : Int := (Date.mk (-262143) 1 1).days * 86400

def lastSecond : Int := (Date.mk 262142 12 31).days * 86400 + 86399

def inRange (seconds : Int) : Bool := firstSecond ≤ seconds && seconds ≤ lastSecond

/-- The instant so many seconds later, if it can be told; any time at all leads out of a leap
second. -/
def after? (t : Instant) (secs : Nat) : Option Instant :=
  if secs = 0 then some t
  else if inRange (t.seconds + secs) then
    some ⟨t.seconds + secs, if Nat.pow 10 9 ≤ t.nanos then t.nanos - Nat.pow 10 9 else t.nanos⟩
  else none

end Instant

end SheetSync
