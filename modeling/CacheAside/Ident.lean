import CacheAside.Ident.Base32

/-!
# Identifiers

An identifier is a number of 128 bits: 48 bits of milliseconds, then 80 random bits.  It is written
as a tag that names its kind, followed by 26 digits of base 32.  Identifiers are ordered by their
number, so by time first.
-/

namespace CacheAside

/-- What an identifier names. -/
inductive IdentKind where
  | record
  | event
  deriving DecidableEq, Repr

/-- The letters in front of the digits. -/
def IdentKind.tag : IdentKind → String
  | .record => "rec-"
  | .event => "evt-"

/-- How many identifiers of a kind there are. -/
def Ident.count : Nat := Nat.pow 2 128

theorem Ident.count_pos : 0 < Ident.count := by decide

/-- An identifier of one kind. -/
structure Ident (kind : IdentKind) where
  number : Fin Ident.count
  deriving DecidableEq, Repr

/-- The name of a record, given once when it is created. -/
abbrev RecordId := Ident .record

/-- The name of a published event. -/
abbrev EventId := Ident .event

namespace Ident

variable {kind : IdentKind}

/-- The identifier of the lowest 128 bits of `n`. -/
def ofNat (n : Nat) : Ident kind :=
  ⟨n % count, Nat.mod_lt n count_pos⟩

/-- The identifier of a time and of random bits; of each only the bits that have room count. -/
def ofParts (millis random : Nat) : Ident kind :=
  ofNat (millis % Nat.pow 2 48 * Nat.pow 2 80 + random % Nat.pow 2 80)

/-- The milliseconds in the upper 48 bits. -/
def millis (id : Ident kind) : Nat :=
  id.number.val / Nat.pow 2 80

/-- The lower 80 bits. -/
def random (id : Ident kind) : Nat :=
  id.number.val % Nat.pow 2 80

/-- The identifier zero stands for "no identifier". -/
def isNil (id : Ident kind) : Bool :=
  id.number.val == 0

instance : LT (Ident kind) :=
  ⟨fun a b => a.number < b.number⟩

instance : LE (Ident kind) :=
  ⟨fun a b => a.number ≤ b.number⟩

instance (a b : Ident kind) : Decidable (a < b) :=
  inferInstanceAs (Decidable (a.number < b.number))

instance (a b : Ident kind) : Decidable (a ≤ b) :=
  inferInstanceAs (Decidable (a.number ≤ b.number))

theorem lt_irrefl (a : Ident kind) : ¬ a < a := Nat.lt_irrefl a.number.val

theorem lt_trans {a b c : Ident kind} (hab : a < b) (hbc : b < c) : a < c :=
  Nat.lt_trans (n := a.number.val) hab hbc

/-- Of two identifiers that are neither equal nor in order, the second comes first. -/
theorem lt_of_not_lt_of_ne {a b : Ident kind} (h : ¬ a < b) (hne : a ≠ b) : b < a := by
  have hval : a.number.val ≠ b.number.val := fun e => hne (by
    cases a; cases b; simp_all [Fin.ext_iff])
  exact Nat.lt_of_le_of_ne (Nat.not_lt.mp h) (Ne.symm hval)

/-- The written form as characters: the tag and 26 digits. -/
def toChars (id : Ident kind) : List Char :=
  kind.tag.toList ++ Base32.encode 26 id.number.val

/-- The written form. -/
def toText (id : Ident kind) : String :=
  String.ofList id.toChars

end Ident

/-- What can be wrong with the digits of an identifier. -/
inductive DigitFault where
  | length
  | character
  deriving DecidableEq, Repr

/-- Why a text names no identifier. -/
inductive IdentError where
  /-- The text does not start with the tag. -/
  | missingTag (kind : IdentKind) (input : String)
  /-- What follows the tag is not 26 digits. -/
  | invalidDigits (input : String) (fault : DigitFault)
  deriving DecidableEq, Repr

def DigitFault.message : DigitFault → String
  | .length => "invalid length"
  | .character => "invalid character"

def IdentError.message : IdentError → String
  | .missingTag kind input => s!"expected prefix `{kind.tag}` in `{input}`"
  | .invalidDigits input fault => s!"invalid ULID in `{input}`: {fault.message}"

/-- What is left of `cs` behind `lead`, or nothing if `cs` does not start with it. -/
def stripLead? : (lead cs : List Char) → Option (List Char)
  | [], cs => some cs
  | _ :: _, [] => none
  | l :: lead, c :: cs => if l = c then stripLead? lead cs else none

/-- The number of bytes that the characters take in UTF-8. -/
def byteLength (cs : List Char) : Nat :=
  cs.foldl (fun n c => n + c.utf8Size) 0

/-- Reads an identifier.  The tag is compared exactly; then there have to be 26 bytes, all of them
digits.  Bits beyond 128 are dropped. -/
def Ident.parse {kind : IdentKind} (s : String) : Except IdentError (Ident kind) :=
  match stripLead? kind.tag.toList s.toList with
  | none => .error (.missingTag kind s)
  | some digits =>
    if byteLength digits = 26 then
      match Base32.decode? digits with
      | some n => .ok (.ofNat n)
      | none => .error (.invalidDigits s .character)
    else .error (.invalidDigits s .length)

end CacheAside
