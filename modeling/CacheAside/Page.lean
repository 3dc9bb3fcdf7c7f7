/-!
# Pages

A list is read in pages: so many records after so many others.  The number of records is bounded;
`Page.make?` is the only way from numbers to a page.
-/

namespace CacheAside

/-- What is wrong with the numbers of a page. -/
inductive PageError where
  | offset (got : Int)
  | limit (got : Int) (least greatest : Nat)
  deriving DecidableEq, Repr

/-- The records to skip and the greatest number of records to return. -/
structure Page where
  offset : Nat
  limit : Nat
  limit_pos : 1 ≤ limit
  limit_le : limit ≤ 50
  deriving DecidableEq, Repr

namespace Page

/-- The greatest limit. -/
def maxLimit : Nat := 50

/-- The page of two numbers, if the offset is not negative and the limit is between 1 and 50. -/
def make? (offset limit : Int) : Except PageError Page :=
  if offset < 0 then .error (.offset offset)
  else if h : 1 ≤ limit ∧ limit ≤ 50 then
    .ok ⟨offset.toNat, limit.toNat, by omega, by omega⟩
  else .error (.limit limit 1 maxLimit)

/-- The first page, as large as it may be. -/
def first : Page :=
  ⟨0, maxLimit, by decide, by decide⟩

/-- The page after this one.  An offset is a word of 64 bits, so a sum that no word holds is the
offset of no page: nothing is to be concluded about it. -/
def next (p : Page) : Page :=
  { p with offset := p.offset + p.limit }

end Page

end CacheAside
