import CacheAside.Json.Basic
import CacheAside.Text.Hex

/-!
# From text to JSON values

The reader goes through the characters once.  Each function returns what it has read and the
characters that are left; there are none left when the text has broken a rule, and then what was
read ends in `broken`.

Every value takes at least one character, so the length of the text is enough fuel for the nested
functions; `read` supplies it.
-/

namespace CacheAside.Json

open Text

/-- The blanks of JSON. -/
def isSpace (c : Char) : Bool :=
  c == ' ' || c == '\n' || c == '\t' || c == '\r'

def skipSpace (cs : List Char) : List Char :=
  cs.dropWhile isSpace

/-! ## Numbers -/

/-- Splits off the digits at the front, of which there has to be at least one. -/
def digitRun? (cs : List Char) : Option (List Char × List Char) :=
  match cs.takeWhile Char.isDigit with
  | [] => none
  | run => some (run, cs.dropWhile Char.isDigit)

/-- The number that decimal digits write. -/
def natOfDigits (ds : List Char) : Nat :=
  ds.foldl (fun n c => 10 * n + (c.toNat - '0'.toNat)) 0

/-- The digits in front of the point: a zero stands alone. -/
def whole? (cs : List Char) : Option (List Char × List Char) :=
  match digitRun? cs with
  | some ('0' :: _ :: _, _) => none
  | run => run

/-- The digits behind the point, if there is a point. -/
def fraction? (cs : List Char) : Option (Option (List Char) × List Char) :=
  match cs with
  | '.' :: rest => (digitRun? rest).map fun (ds, rest) => (some ds, rest)
  | _ => some (none, cs)

/-- The exponent behind its letter and sign. -/
def exponentDigits? (cs : List Char) : Option (Option Int × List Char) :=
  match cs with
  | '-' :: rest => (digitRun? rest).map fun (ds, rest) => (some (-(natOfDigits ds : Int)), rest)
  | '+' :: rest => (digitRun? rest).map fun (ds, rest) => (some (natOfDigits ds : Int), rest)
  | _ => (digitRun? cs).map fun (ds, rest) => (some (natOfDigits ds : Int), rest)

/-- The exponent, if there is one. -/
def exponent? (cs : List Char) : Option (Option Int × List Char) :=
  match cs with
  | 'e' :: rest => exponentDigits? rest
  | 'E' :: rest => exponentDigits? rest
  | _ => some (none, cs)

/-- The number of a sign, digits, and perhaps a fraction and an exponent.  Without the last two it
is an integer, if a word holds it; minus zero is no integer. -/
def Number.ofParts (negative : Bool) (whole : List Char) (fraction : Option (List Char))
    (exponent : Option Int) : Number :=
  let digits := natOfDigits (whole ++ fraction.getD [])
  let value : Int := if negative then -(digits : Int) else digits
  if fraction.isNone && exponent.isNone && !(negative && digits == 0) &&
      decide (-halfLimit ≤ value ∧ value < wordLimit) then .integer value
  else .real (.ofDecimal negative digits (exponent.getD 0 - (fraction.getD []).length))

/-- A number without its sign. -/
def unsigned? (negative : Bool) (cs : List Char) : Option (Number × List Char) := do
  let (whole, cs) ← whole? cs
  let (fraction, cs) ← fraction? cs
  let (exponent, cs) ← exponent? cs
  return (.ofParts negative whole fraction exponent, cs)

/-- A number. -/
def number? (cs : List Char) : Option (Number × List Char) :=
  match cs with
  | '-' :: rest => unsigned? true rest
  | _ => unsigned? false cs

/-! ## Texts -/

/-- The character of a two-character escape. -/
def escape? (c : Char) : Option Char :=
  match c with
  | '"' => some '"'
  | '\\' => some '\\'
  | '/' => some '/'
  | 'b' => some '\x08'
  | 'f' => some '\x0c'
  | 'n' => some '\n'
  | 'r' => some '\r'
  | 't' => some '\t'
  | _ => none

def isHighSurrogate (n : Nat) : Bool := 0xD800 ≤ n && n < 0xDC00

def isLowSurrogate (n : Nat) : Bool := 0xDC00 ≤ n && n < 0xE000

/-- The character that two surrogates stand for. -/
def joinSurrogates (high low : Nat) : Char :=
  Char.ofNat (0x10000 + (high - 0xD800) * 0x400 + (low - 0xDC00))

/-- What is read of a text up to its closing quote: its characters, if no surrogate spoils them,
and what follows the quote. -/
abbrev TextRead := Option (Option (List Char) × List Char)

/-- Puts a character in front of a text that has been read. -/
def TextRead.push (c : Char) (tail : TextRead) : TextRead :=
  tail.map fun (s, rest) => (s.map (c :: ·), rest)

/-- An unpaired surrogate in front of a text that has been read spoils it. -/
def TextRead.spoil (tail : TextRead) : TextRead :=
  tail.map fun (_, rest) => (none, rest)

/-- A high surrogate that is still waiting for its partner spoils what follows. -/
def TextRead.after (waiting : Option Nat) (tail : TextRead) : TextRead :=
  if waiting.isSome then tail.spoil else tail

/-- The characters up to the closing quote, after a high surrogate that may be waiting for its
partner.  There is no text where a control character, an unknown escape or the end comes first. -/
def quoted? : (waiting : Option Nat) → List Char → TextRead
  | _, [] => none
  | waiting, '"' :: rest => TextRead.after waiting (some (some [], rest))
  | waiting, '\\' :: 'u' :: a :: b :: c :: d :: rest =>
    match readHex? [a, b, c, d] with
    | none => none
    | some n =>
      -- two halves make one character; a half without the other spoils the text
      if isHighSurrogate n then (quoted? (some n) rest).after waiting
      else if isLowSurrogate n then
        match waiting with
        | some high => (quoted? none rest).push (joinSurrogates high n)
        | none => (quoted? none rest).spoil
      else ((quoted? none rest).push (Char.ofNat n)).after waiting
  | waiting, '\\' :: c :: rest =>
    match escape? c with
    | some e => ((quoted? none rest).push e).after waiting
    | none => none
  | waiting, c :: rest =>
    if c.toNat < 0x20 then none else ((quoted? none rest).push c).after waiting

/-! ## Values -/

/-- A word such as `null`, of which the first letter has been seen. -/
def word (letters : List Char) (value : Json) (cs : List Char) : Json × Option (List Char) :=
  if letters.isPrefixOf cs then (value, some (cs.drop letters.length)) else (.broken, none)

mutual

/-- A value, after blanks. -/
def value : (fuel : Nat) → List Char → Json × Option (List Char)
  | 0, _ => (.broken, none)
  | fuel + 1, cs =>
    match skipSpace cs with
    | 'n' :: rest => word "ull".toList .null rest
    | 't' :: rest => word "rue".toList (.boolean true) rest
    | 'f' :: rest => word "alse".toList (.boolean false) rest
    | '"' :: rest =>
      match quoted? none rest with
      | some (s, rest) => (.string (s.map String.ofList), some rest)
      | none => (.broken, none)
    | '[' :: rest =>
      match skipSpace rest with
      | ']' :: rest => (.array [], some rest)
      | _ =>
        let (items, rest) := items fuel rest
        (.array items, rest)
    | '{' :: rest =>
      match skipSpace rest with
      | '}' :: rest => (.object [], some rest)
      | _ =>
        let (members, rest) := members fuel rest
        (.object members, rest)
    | rest =>
      match number? rest with
      | some (n, rest) => (.number n, some rest)
      | none => (.broken, none)

/-- The items of an array from one item on. -/
def items : (fuel : Nat) → List Char → List Json × Option (List Char)
  | 0, _ => ([.broken], none)
  | fuel + 1, cs =>
    match value fuel cs with
    | (item, none) => ([item], none)
    | (item, some rest) =>
      match skipSpace rest with
      | ']' :: rest => ([item], some rest)
      | ',' :: rest =>
        let (tail, rest) := items fuel rest
        (item :: tail, rest)
      | _ => ([item, .broken], none)

/-- The members of an object from one member on.  Where a name is missing, a nameless member is
broken. -/
def members : (fuel : Nat) → List Char → List (Text × Json) × Option (List Char)
  | 0, _ => ([(none, .broken)], none)
  | fuel + 1, cs =>
    match skipSpace cs with
    | '"' :: rest =>
      match quoted? none rest with
      | none => ([(none, .broken)], none)
      | some (name, rest) =>
        let name := name.map String.ofList
        match skipSpace rest with
        | ':' :: rest =>
          match value fuel rest with
          | (v, none) => ([(name, v)], none)
          | (v, some rest) =>
            match skipSpace rest with
            | '}' :: rest => ([(name, v)], some rest)
            | ',' :: rest =>
              let (tail, rest) := members fuel rest
              ((name, v) :: tail, rest)
            | _ => ([(name, v), (none, .broken)], none)
        | _ => ([(name, .broken)], none)
    | _ => ([(none, .broken)], none)

end

/-- A whole text: one value, and whether anything but blanks follows it. -/
structure Document where
  root : Json
  trailing : Bool

/-- Reads a text. -/
def Document.read (s : String) : Document :=
  let cs := s.toList
  -- each character opens at most one value, with one more level for its items or members
  match value (2 * cs.length + 2) cs with
  | (root, some rest) => ⟨root, !(skipSpace rest).isEmpty⟩
  | (root, none) => ⟨root, false⟩

end CacheAside.Json
