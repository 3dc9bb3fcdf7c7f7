import CacheAside.Decimal.Shortest

/-!
# How weights are written

A finite number is written with the fewest digits that identify it, and always with a point or an
exponent, so that it is never mistaken for an integer.
-/

namespace CacheAside

/-- The decimal digits of a natural number. -/
def digitsOf (n : Nat) : List Char :=
  Nat.toDigits 10 n

/-- The choices of a number format. -/
structure Notation where
  /-- The least exponent of the first digit that is written without an exponent part. -/
  plainFrom : Int
  /-- The first exponent from which on an exponent part is written. -/
  plainBelow : Int

namespace Notation

/-- The sign and the digits of an exponent; the sign is always written. -/
def exponent (e : Int) : List Char :=
  (if e < 0 then '-' else '+') :: digitsOf e.natAbs

/-- Digits with the point after the first `point` of them; zeros fill the gap on either side. -/
def plain (digits : List Char) (point : Int) : List Char :=
  if point ≤ 0 then '0' :: '.' :: (List.replicate (-point).toNat '0' ++ digits)
  else
    let whole := digits.take point.toNat
    let zeros := List.replicate (point.toNat - digits.length) '0'
    let fraction := digits.drop point.toNat
    whole ++ zeros ++ '.' :: (if fraction.isEmpty then ['0'] else fraction)

/-- Digits with the point after the first one, if there are more, and the exponent of the first. -/
def scientific (digits : List Char) (e : Int) : List Char :=
  match digits with
  | [] => []
  | [d] => d :: 'e' :: exponent e
  | d :: rest => d :: '.' :: (rest ++ 'e' :: exponent e)

/-- A positive decimal in this notation. -/
def write (style : Notation) (d : Decimal) : List Char :=
  let digits := digitsOf d.digits
  let first := d.exponent + digits.length - 1
  if style.plainFrom ≤ first ∧ first < style.plainBelow then plain digits (first + 1)
  else scientific digits first

end Notation

namespace Binary64

/-- Numbers from 1e-5 up to 1e16 are written without an exponent. -/
def style : Notation := ⟨-5, 16⟩

/-- The written form of a finite number as characters. -/
def toChars : Binary64 → List Char
  | .finite negative rank =>
    (if negative then ['-'] else []) ++
      (if rank.val = 0 then ['0', '.', '0'] else style.write (Decimal.shortest rank.val))
  | .infinite negative => (if negative then ['-'] else []) ++ "inf".toList
  | .nan => "NaN".toList

def toText (x : Binary64) : String :=
  String.ofList x.toChars

end Binary64

end CacheAside
