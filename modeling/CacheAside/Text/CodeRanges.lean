/-!
# Sets of characters given by ranges of code points

A property of characters that a standard gives as a table is kept here as a list of inclusive
ranges.  Main statement: `contains_iff`, a character is in the set exactly when some range of the
table holds its code point.
-/

namespace CacheAside.Text

/-- A set of characters: inclusive ranges of code points. -/
abbrev CodeRanges := List (Nat × Nat)

/-- Whether one of the ranges holds the code point of `c`. -/
def CodeRanges.contains (ranges : CodeRanges) (c : Char) : Bool :=
  ranges.any fun range => range.1 ≤ c.toNat && c.toNat ≤ range.2

theorem CodeRanges.contains_iff {ranges : CodeRanges} {c : Char} :
    ranges.contains c = true ↔ ∃ range ∈ ranges, range.1 ≤ c.toNat ∧ c.toNat ≤ range.2 := by
  simp [CodeRanges.contains]

end CacheAside.Text
