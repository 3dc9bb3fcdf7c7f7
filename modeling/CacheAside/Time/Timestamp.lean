import CacheAside.Time.Calendar

/-!
# Points in time

A point in time is a day, a second of that day and a count of nanoseconds, in UTC.  A leap second
is the last second of a minute with more than a thousand million nanoseconds.  Only the years
-262143 to 262142 can be represented; moving a point beyond them has no result.
-/

namespace CacheAside

/-- Nanoseconds in a second. -/
abbrev nanosPerSecond : Nat := 1000000000

/-- Seconds in a day. -/
abbrev secondsPerDay : Nat := 86400

/-- The first day that can be represented, -262143-01-01. -/
def firstDay : Int := -96465292

/-- The last day that can be represented, 262142-12-31. -/
def lastDay : Int := 95026236

/-- A point in time. -/
structure Timestamp where
  /-- Days from 1970-01-01. -/
  day : Int
  /-- Seconds of the day; a leap second counts as the second before it. -/
  second : Nat
  /-- Nanoseconds of the second; from a thousand million on within a leap second. -/
  nano : Nat
  firstDay_le : firstDay ≤ day
  le_lastDay : day ≤ lastDay
  second_lt : second < secondsPerDay
  nano_lt : nano < 2 * nanosPerSecond
  /-- A leap second ends a minute. -/
  leap : nanosPerSecond ≤ nano → second % 60 = 59
  deriving DecidableEq, Repr

namespace Timestamp

/-- The parts of a point in time, most significant first. -/
def key (t : Timestamp) : Int × Nat × Nat :=
  (t.day, t.second, t.nano)

/-- Earlier: on an earlier day, or in an earlier second, or at an earlier nanosecond. -/
def before (s t : Timestamp) : Bool :=
  s.day < t.day || (s.day == t.day && (s.second < t.second ||
    (s.second == t.second && s.nano < t.nano)))

instance : LT Timestamp := ⟨fun s t => s.before t = true⟩

instance (s t : Timestamp) : Decidable (s < t) :=
  inferInstanceAs (Decidable (s.before t = true))

/-- The later of two points in time. -/
def latest (s t : Timestamp) : Timestamp :=
  if s < t then t else s

/-- The point in time of a day and a second, if the parts are in range. -/
def ofParts? (day : Int) (second nano : Nat) : Option Timestamp :=
  if h : firstDay ≤ day ∧ day ≤ lastDay ∧ second < secondsPerDay ∧ nano < 2 * nanosPerSecond ∧
      (nanosPerSecond ≤ nano → second % 60 = 59) then
    some ⟨day, second, nano, h.1, h.2.1, h.2.2.1, h.2.2.2.1, h.2.2.2.2⟩
  else none

/-- Milliseconds since 1970-01-01, rounded down.  The nanoseconds of a leap second count beyond
its second. -/
def unixMillis (t : Timestamp) : Int :=
  (t.day * secondsPerDay + t.second) * 1000 + (t.nano / 1000000 : Nat)

/-- The point that lies `nanos` nanoseconds after the start of a day, in either direction, with no
regard to leap seconds. -/
def ofDayNanos? (day nanos : Int) : Option Timestamp :=
  let perDay : Int := secondsPerDay * nanosPerSecond
  let rest := (nanos % perDay).toNat
  ofParts? (day + nanos / perDay) (rest / nanosPerSecond) (rest % nanosPerSecond)

/-- Moves a point in time by a span of nanoseconds; `none` when the result cannot be represented.

Within a leap second, a span of less than a second that does not leave it only moves the
nanoseconds.  A span that leaves it forwards counts from the second before it, one that leaves it
backwards from the second after it. -/
def shift? (t : Timestamp) (span : Int) : Option Timestamp :=
  let seconds := span.tdiv nanosPerSecond
  let part := span.tmod nanosPerSecond
  let from' (second : Int) (nano : Int) :=
    ofDayNanos? t.day ((second + seconds) * nanosPerSecond + nano + part)
  if t.nano < nanosPerSecond then from' t.second t.nano
  else if 0 < seconds ∨ 2 * nanosPerSecond ≤ t.nano + part then
    from' t.second (t.nano - nanosPerSecond)
  else if seconds < 0 then from' (t.second + 1) (t.nano - nanosPerSecond)
  else ofParts? t.day t.second (t.nano + part).toNat

end Timestamp

end CacheAside
