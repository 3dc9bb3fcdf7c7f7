import CacheAside.Decimal.Notation
import CacheAside.Text.Blank
import CacheAside.Time.Timestamp

/-!
# The text of a point in time

Written in UTC as `2024-01-01T12:00:00.500Z`: a fraction of 3, 6 or 9 digits, the shortest that is
exact, or none; a year outside 0 to 9999 has a sign; a leap second shows as second 60.

Reading is more liberal: any offset, any number of digits of a fraction (all after the ninth are
cut off), a year of up to four digits or of any length after a sign, single digits for the other
numbers, blanks before each number and before the separators, and a blank or a `t` for the `T`.
-/

namespace CacheAside

/-- Why a text is no point in time. -/
inductive TimeError where
  /-- A number is out of its range, or the day does not exist. -/
  | outOfRange
  /-- The text ends early. -/
  | tooShort
  /-- A character stands where it may not. -/
  | invalid
  /-- Something follows a complete time. -/
  | trailing
  /-- The offset leads out of the days that can be represented. -/
  | impossible
  deriving DecidableEq, Repr

def TimeError.message : TimeError → String
  | .outOfRange => "input is out of range"
  | .tooShort => "premature end of input"
  | .invalid => "input contains invalid characters"
  | .trailing => "trailing input"
  | .impossible => "no possible date and time matching input"

namespace Timestamp

open Text

/-! ## Writing -/

/-- The last `width` decimal digits of `n`, leading zeros included. -/
def fixedDigits : (width n : Nat) → List Char
  | 0, _ => []
  | width + 1, n => fixedDigits width (n / 10) ++ [Nat.digitChar (n % 10)]

/-- A year: four digits from 0 to 9999, else a sign and at least four digits. -/
def yearChars (year : Int) : List Char :=
  if 0 ≤ year ∧ year ≤ 9999 then fixedDigits 4 year.toNat
  else
    let digits := digitsOf year.natAbs
    (if year < 0 then '-' else '+') :: (List.replicate (4 - digits.length) '0' ++ digits)

/-- The fraction of a second with its point; nothing when it is zero. -/
def fractionChars (nano : Nat) : List Char :=
  if nano = 0 then []
  else if nano % 1000000 = 0 then '.' :: fixedDigits 3 (nano / 1000000)
  else if nano % 1000 = 0 then '.' :: fixedDigits 6 (nano / 1000)
  else '.' :: fixedDigits 9 nano

/-- The written form as characters. -/
def toChars (t : Timestamp) : List Char :=
  let date := Date.ofDay t.day
  let leap := t.nano / nanosPerSecond
  yearChars date.year ++ '-' :: fixedDigits 2 date.month ++ '-' :: fixedDigits 2 date.day ++
    'T' :: fixedDigits 2 (t.second / 3600) ++ ':' :: fixedDigits 2 (t.second / 60 % 60) ++
    ':' :: fixedDigits 2 (t.second % 60 + leap) ++ fractionChars (t.nano % nanosPerSecond) ++ ['Z']

def toText (t : Timestamp) : String :=
  String.ofList t.toChars

/-! ## Reading -/

/-- The value of an ASCII digit. -/
def digit? (c : Char) : Option Nat :=
  if c.isDigit then some (c.toNat - '0'.toNat) else none

/-- A number of at least one and at most `most` digits, if a limit is given. -/
def number (most : Option Nat) (cs : List Char) : Except TimeError (Nat × List Char) :=
  let run := cs.takeWhile Char.isDigit
  let digits := match most with
    | some n => run.take n
    | none => run
  match cs, digits with
  | [], _ => .error .tooShort
  | _, [] => .error .invalid
  | _, _ =>
    let value := digits.foldl (fun n c => 10 * n + (c.toNat - '0'.toNat)) 0
    if value < Nat.pow 2 63 then .ok (value, cs.drop digits.length) else .error .outOfRange

/-- A number of one or two digits after blanks, within bounds. -/
def field (least greatest : Nat) (cs : List Char) : Except TimeError (Nat × List Char) := do
  let (n, rest) ← number (some 2) (trimStart cs)
  if least ≤ n ∧ n ≤ greatest then .ok (n, rest) else .error .outOfRange

/-- A year after blanks: up to four digits, or a sign and any number of digits. -/
def year (cs : List Char) : Except TimeError (Int × List Char) := do
  let (value, rest) ← match trimStart cs with
    | '-' :: digits => (fun p => (-(p.1 : Int), p.2)) <$> number none digits
    | '+' :: digits => (fun p => ((p.1 : Int), p.2)) <$> number none digits
    | digits => (fun p => ((p.1 : Int), p.2)) <$> number (some 4) digits
  if -Int.pow 2 31 ≤ value ∧ value < Int.pow 2 31 then .ok (value, rest)
  else .error .outOfRange

/-- One character that has to stand next, after blanks. -/
def separator (c : Char) (cs : List Char) : Except TimeError (List Char) :=
  match trimStart cs with
  | [] => .error .tooShort
  | d :: rest => if c = d then .ok rest else .error .invalid

/-- A fraction after its point, as nanoseconds: nine digits count, the rest is skipped. -/
def fraction (cs : List Char) : Except TimeError (Nat × List Char) := do
  -- at least one digit has to follow the point
  let (_, _) ← number (some 9) cs
  let run := cs.takeWhile Char.isDigit
  let nine := (run ++ List.replicate 9 '0').take 9
  .ok (nine.foldl (fun n c => 10 * n + (c.toNat - '0'.toNat)) 0, cs.drop run.length)

/-- Two digits of an offset.  A single character is too short a text if it is ASCII. -/
def pair (cs : List Char) : Except TimeError (Nat × Nat × List Char) :=
  match cs with
  | a :: b :: rest =>
    match digit? a, digit? b with
    | some m, some n => .ok (m, n, rest)
    | _, _ => .error .invalid
  | [c] => .error (if c.utf8Size = 1 then .tooShort else .invalid)
  | [] => .error .tooShort

/-- The sign of an offset; the typographic minus is one too. -/
def sign (cs : List Char) : Except TimeError (Bool × List Char) :=
  match cs with
  | '+' :: rest => .ok (false, rest)
  | '-' :: rest => .ok (true, rest)
  | '−' :: rest => .ok (true, rest)
  | _ :: _ => .error .invalid
  | [] => .error .tooShort

/-- An offset from UTC in minutes: `Z`, or a sign, two digits of hours, colons or blanks, and two
digits of minutes. -/
def offset (cs : List Char) : Except TimeError (Int × List Char) :=
  match cs with
  | 'Z' :: rest => .ok (0, rest)
  | 'z' :: rest => .ok (0, rest)
  | _ => do
    let (negative, cs) ← sign cs
    let (h, hours, cs) ← pair cs
    let (m, minutes, cs) ← pair (cs.dropWhile fun c => c == ':' || isBlank c)
    if 6 ≤ m then .error .outOfRange
    else
      let total : Int := (10 * h + hours) * 60 + (10 * m + minutes)
      .ok (if negative then -total else total, cs)

/-- The zone: the letters `UTC` in any case, or an offset. -/
def zone (cs : List Char) : Except TimeError (Int × List Char) :=
  match cs with
  | u :: t :: c :: rest =>
    if u.toUpper = 'U' ∧ t.toUpper = 'T' ∧ c.toUpper = 'C' then .ok (0, rest) else offset cs
  | _ => offset cs

/-- The character between date and time. -/
def dateEnd (cs : List Char) : Except TimeError (List Char) :=
  match cs with
  | [] => .error .tooShort
  | c :: rest => if c = 't' ∨ c = 'T' ∨ c = ' ' then .ok rest else .error .invalid

/-- The point in time of a local date and time with its offset.  Second 60 is a leap second. -/
def ofLocal (date : Date) (second nano : Nat) (offset : Int) : Except TimeError Timestamp :=
  if ¬(date.exists? = true) ∨ date.dayNumber < firstDay ∨ lastDay < date.dayNumber ∨
      1440 ≤ offset.natAbs then .error .outOfRange
  else
    -- offsets are whole minutes, so a leap second still ends one
    let moved : Int := second - offset * 60
    match ofParts? (date.dayNumber + moved / secondsPerDay) (moved % secondsPerDay).toNat nano with
    | some t => .ok t
    | none => .error .impossible

/-- Reads a point in time. -/
def parseChars (cs : List Char) : Except TimeError Timestamp := do
  let (year, cs) ← year cs
  let (month, cs) ← field 1 12 (← separator '-' cs)
  let (day, cs) ← field 1 31 (← separator '-' cs)
  let (hour, cs) ← field 0 23 (← dateEnd cs)
  let (minute, cs) ← field 0 59 (← separator ':' cs)
  let (second, cs) ← field 0 60 (← separator ':' cs)
  let (nano, cs) ← match cs with
    | '.' :: digits => fraction digits
    | _ => .ok (0, cs)
  let (offset, cs) ← zone (trimStart cs)
  if trimStart cs ≠ [] then .error .trailing
  else
    let leap := if second = 60 then 1 else 0
    ofLocal ⟨year, month, day⟩ (hour * 3600 + minute * 60 + (second - leap))
      (nano + leap * nanosPerSecond) offset

def parse (s : String) : Except TimeError Timestamp :=
  parseChars s.toList

end Timestamp

end CacheAside
