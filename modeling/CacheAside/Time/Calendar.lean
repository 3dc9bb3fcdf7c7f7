/-!
# The Gregorian calendar

Days are counted from 1970-01-01 and years may be negative; the rules of leap years are extended in
both directions without end.  `dayNumber` and `Date.ofDay` go from a date to its day and back.
-/

namespace CacheAside

namespace Calendar

def isLeap (year : Int) : Bool :=
  year % 4 = 0 ∧ (year % 100 ≠ 0 ∨ year % 400 = 0)

/-- The lengths of the twelve months. -/
def monthLengths (leap : Bool) : List Nat :=
  [31, if leap then 29 else 28, 31, 30, 31, 30, 31, 31, 30, 31, 30, 31]

/-- Days from 0001-01-01 to the first day of a year. -/
def daysBefore (year : Int) : Int :=
  365 * (year - 1) + (year - 1) / 4 - (year - 1) / 100 + (year - 1) / 400

/-- Days from 0001-01-01 to 1970-01-01. -/
def epoch : Int := 719162

/-- The day on which a year starts. -/
def newYear (year : Int) : Int :=
  daysBefore year - epoch

/-- The year that holds a day: an estimate from the mean length of a year, corrected by one. -/
def yearOf (day : Int) : Int :=
  let guess := (day + epoch) * 400 / 146097 + 1
  if day < newYear guess then guess - 1
  else if newYear (guess + 1) ≤ day then guess + 1
  else guess

/-- Month and day of the month, both from one, of a day of the year counted from zero. -/
def splitMonth : (lengths : List Nat) → (month dayOfYear : Nat) → Nat × Nat
  | [], month, rest => (month, rest + 1)
  | length :: lengths, month, rest =>
    if rest < length then (month, rest + 1) else splitMonth lengths (month + 1) (rest - length)

end Calendar

/-- A calendar date. -/
structure Date where
  year : Int
  month : Nat
  day : Nat
  deriving DecidableEq, Repr

namespace Date

open Calendar

/-- The lengths of the months of the date's year. -/
def months (d : Date) : List Nat :=
  monthLengths (isLeap d.year)

/-- Whether the month exists and has that day. -/
def exists? (d : Date) : Bool :=
  1 ≤ d.month && d.month ≤ 12 && 1 ≤ d.day && d.day ≤ d.months.getD (d.month - 1) 0

/-- The number of the day, from 1970-01-01. -/
def dayNumber (d : Date) : Int :=
  newYear d.year + ((d.months.take (d.month - 1)).foldl Nat.add 0 : Nat) + d.day - 1

/-- The date of a day. -/
def ofDay (day : Int) : Date :=
  let year := yearOf day
  let (month, dayOfMonth) := splitMonth (monthLengths (isLeap year)) 1 (day - newYear year).toNat
  ⟨year, month, dayOfMonth⟩

end Date

end CacheAside
