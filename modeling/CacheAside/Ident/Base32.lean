/-!
# Crockford base 32

Ten digits and the letters but I, L, O and U.  Writing uses capitals and a fixed width; reading
takes letters of either case and no look-alikes.
-/

namespace CacheAside.Base32

/-- The 32 digits in the order of their values. -/
def alphabet : List Char := "0123456789ABCDEFGHJKMNPQRSTVWXYZ".toList

/-- The digit of a value below 32. -/
def char (n : Nat) : Char :=
  alphabet.getD n '0'

/-- A letter of the ASCII range as a capital; every other character as it is. -/
def capital (c : Char) : Char :=
  if 'a' ≤ c ∧ c ≤ 'z' then Char.ofNat (c.toNat - 32) else c

/-- The value of a digit of either case. -/
def digit? (c : Char) : Option Nat :=
  alphabet.findIdx? (· == capital c)

/-- The last `width` digits of `n`, leading zeros included. -/
def encode : (width n : Nat) → List Char
  | 0, _ => []
  | width + 1, n => encode width (n / 32) ++ [char (n % 32)]

/-- The number that the digits write; `none` for a text with any other character. -/
def decode? (cs : List Char) : Option Nat :=
  cs.foldlM (fun n c => (digit? c).map (32 * n + ·)) 0

end CacheAside.Base32
