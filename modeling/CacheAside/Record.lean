import CacheAside.Decimal.Binary64
import CacheAside.Ident
import CacheAside.Time.Timestamp

/-!
# Records

What the service keeps.  The identifier and the creation time of a record never change; the other
fields are replaced by updates, and the time of the last update is never before the creation.
-/

namespace CacheAside

/-- What a caller supplies for a new record. -/
structure NewRecord where
  label : String
  value : Int64
  weight : Binary64
  tags : List String
  deriving DecidableEq, Repr

/-- A record. -/
structure Record where
  id : RecordId
  label : String
  value : Int64
  weight : Binary64
  tags : List String
  createdAt : Timestamp
  /-- Absent until the first update. -/
  updatedAt : Option Timestamp
  deriving DecidableEq, Repr

namespace NewRecord

/-- The same input with other tags. -/
def withTags (input : NewRecord) (tags : List String) : NewRecord :=
  { input with tags }

end NewRecord

namespace Record

/-- The record that a caller's input becomes. -/
def ofNew (id : RecordId) (input : NewRecord) (createdAt : Timestamp) : Record where
  id
  label := input.label
  value := input.value
  weight := input.weight
  tags := input.tags
  createdAt
  updatedAt := none

/-- Notes a change at `now`, or at the creation if the clock has gone back behind it. -/
def touch (r : Record) (now : Timestamp) : Record :=
  { r with updatedAt := some (now.latest r.createdAt) }

/-- The time of the last change. -/
def lastModified (r : Record) : Timestamp :=
  r.updatedAt.getD r.createdAt

/-- Equality of contents, with weights compared as numbers: a weight that is not a number differs
from itself. -/
def sameContent (r s : Record) : Bool :=
  r.id == s.id && r.label == s.label && r.value == s.value && r.weight.sameValue s.weight &&
    r.tags == s.tags && r.createdAt == s.createdAt && r.updatedAt == s.updatedAt

end Record

end CacheAside
