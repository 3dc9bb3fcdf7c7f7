import CacheAside.Decimal.Binary64

/-!
# The fewest digits that read back

Of all decimals that read back to a given floating-point number, the one with the fewest digits is
chosen; of several, the nearest; of two equally near ones, the one with an even last digit.

The search goes through the grids of one digit, two digits and so on.  On each grid the two
neighbours of the value are tried, so the first grid with a hit has the fewest digits.  Seventeen
digits always suffice; should none of them read back, the exact value is the answer, so what is
chosen reads back in any case.
-/

namespace CacheAside

/-- A positive decimal, `digits * 10 ^ exponent`. -/
structure Decimal where
  digits : Nat
  exponent : Int
  deriving DecidableEq, Repr

namespace Decimal

/-- The same decimal without trailing zeros, at most `fuel` of them. -/
def strip : (fuel : Nat) → Decimal → Decimal
  | 0, d => d
  | fuel + 1, d =>
    if d.digits % 10 = 0 then strip fuel ⟨d.digits / 10, d.exponent + 1⟩ else d

/-- The rank that the decimal reads as. -/
def rank (d : Decimal) : Nat :=
  Binary64.nearestRank (d.digits * Nat.pow 10 d.exponent.toNat)
    (Nat.pow 10 (-d.exponent).toNat)

/-- Twice the value of a rank against the sum of two neighbours `n` and `n + 1` on the grid
`10 ^ exponent`: which of the two is nearer. -/
def nearer (rank n : Nat) (exponent : Int) : Ordering :=
  compare (2 * Binary64.units rank * Nat.pow 10 (-exponent).toNat)
    ((2 * n + 1) * Nat.pow 10 exponent.toNat * Nat.pow 2 1074)

/-- The multiple of `10 ^ exponent` just below the value of a rank, as a count. -/
def below (rank : Nat) (exponent : Int) : Nat :=
  Binary64.units rank * Nat.pow 10 (-exponent).toNat /
    (Nat.pow 10 exponent.toNat * Nat.pow 2 1074)

/-- The neighbour on the grid `10 ^ exponent` that reads back to the rank, if one does. -/
def onGrid? (rank : Nat) (exponent : Int) : Option Decimal :=
  let n := below rank exponent
  let low : Decimal := ⟨n, exponent⟩
  let high : Decimal := ⟨n + 1, exponent⟩
  let takesLow := match nearer rank n exponent with
    | .lt => true
    | .gt => false
    | .eq => n % 2 == 0
  if low.rank = rank ∧ high.rank = rank then some (if takesLow then low else high)
  else if low.rank = rank then some low
  else if high.rank = rank then some high
  else none

/-- The exact value of a rank. -/
def exact (rank : Nat) : Decimal :=
  ⟨Binary64.units rank * Nat.pow 5 1074, -1074⟩

/-- The least `k` from the estimate on with `value < 10 ^ k`, within `fuel` steps. -/
def raise (rank : Nat) : (fuel : Nat) → (k : Int) → Int
  | 0, k => k
  | fuel + 1, k =>
    if Binary64.units rank * Nat.pow 10 (-k).toNat < Nat.pow 10 k.toNat * Nat.pow 2 1074 then k
    else raise rank fuel (k + 1)

/-- The position of the first digit: the least `k` with `value < 10 ^ k`.  The estimate from the
binary logarithm is never too high. -/
def scale (rank : Nat) : Int :=
  raise rank 4 ((((Nat.log2 (Binary64.units rank) : Int) - 1074) * 30103).fdiv 100000)

/-- The fewest digits that read back to a rank above zero. -/
def shortest (rank : Nat) : Decimal :=
  let k := scale rank
  -- seventeen digits identify every number, but nothing here depends on that
  let found := (List.range 17).findSome? fun (n : Nat) => onGrid? rank (k - (n + 1 : Nat))
  strip 400 (found.getD (exact rank))

end Decimal

end CacheAside
