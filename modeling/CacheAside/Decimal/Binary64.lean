/-!
# Binary floating-point numbers of 64 bits

The non-negative finite numbers of the format, in increasing order, are numbered from zero: that
number is the *rank*, and it is also the lower 63 bits of the encoding.  The value of a rank is a
natural number of units of 2^-1074, so reading, comparing and writing need exact integers only.

A decimal is read to the nearest number, and of two equally near ones to the one of even rank;
beyond the largest finite number it is infinite.
-/

namespace CacheAside

namespace Binary64

/-- How many non-negative finite numbers there are: 2047 exponents of 2^52 fractions each. -/
def finiteCount : Nat := 2047 * Nat.pow 2 52

/-- The value of a rank in units of 2^-1074. -/
def units (rank : Nat) : Nat :=
  if rank < Nat.pow 2 52 then rank
  else (Nat.pow 2 52 + rank % Nat.pow 2 52) * Nat.pow 2 (rank / Nat.pow 2 52 - 1)

/-- The rank nearest to `num / den`, ties to even.  Ranks from `finiteCount` on stand for values
beyond the finite numbers. -/
def nearestRank (num den : Nat) : Nat :=
  let scaled := num * Nat.pow 2 1074
  let whole := scaled / den
  let shift := if whole < Nat.pow 2 53 then 0 else Nat.log2 whole - 52
  let step := den * Nat.pow 2 shift
  let quotient := scaled / step
  let rest := scaled % step
  let roundsDown := 2 * rest < step ∨ (2 * rest = step ∧ quotient % 2 = 0)
  -- a quotient that is rounded up to 2^53 carries over into the exponent
  shift * Nat.pow 2 52 + (if roundsDown then quotient else quotient + 1)

end Binary64

/-- A floating-point number: finite with a sign and a rank, infinite, or not a number. -/
inductive Binary64 where
  | finite (negative : Bool) (rank : Fin Binary64.finiteCount)
  | infinite (negative : Bool)
  | nan
  deriving DecidableEq, Repr

namespace Binary64

/-- The number of a sign and a rank, infinite when the rank lies beyond the finite numbers. -/
def ofRank (negative : Bool) (rank : Nat) : Binary64 :=
  if h : rank < finiteCount then .finite negative ⟨rank, h⟩ else .infinite negative

/-- The number nearest to `num / den` with the given sign. -/
def ofRatio (negative : Bool) (num den : Nat) : Binary64 :=
  ofRank negative (nearestRank num den)

/-- The number nearest to an integer.  Zero is positive. -/
def ofInt (n : Int) : Binary64 :=
  ofRatio (n < 0) n.natAbs 1

/-- The number nearest to `digits * 10 ^ exponent`.  Exponents far outside the range of the format
are settled without computing the power. -/
def ofDecimal (negative : Bool) (digits : Nat) (exponent : Int) : Binary64 :=
  if digits = 0 then ofRank negative 0
  else if 400 < exponent then .infinite negative
  else if exponent + Nat.log2 digits < -400 then ofRank negative 0
  else ofRatio negative (digits * Nat.pow 10 exponent.toNat) (Nat.pow 10 (-exponent).toNat)

def isFinite : Binary64 → Bool
  | .finite _ _ => true
  | _ => false

/-- Whether the number is less than zero.  Negative zero is not. -/
def isNegative : Binary64 → Bool
  | .finite negative rank => negative && rank.val != 0
  | .infinite negative => negative
  | .nan => false

/-- Numerical equality: the two zeros are equal, and what is not a number equals nothing. -/
def sameValue : Binary64 → Binary64 → Bool
  | .finite n r, .finite m s => r == s && (n == m || r.val == 0)
  | .infinite n, .infinite m => n == m
  | _, _ => false

end Binary64

end CacheAside
