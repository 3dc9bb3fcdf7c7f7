import CacheAside.Port
import CacheAside.Table

/-!
# The store in memory

The store is the truth about records.  The tags of a record are kept apart from its other fields,
and a record without tags has no entry among them, so a deletion has to remove both.  The store
stamps the times itself: what a caller wrote into them does not count.
-/

namespace CacheAside

/-- A record without its identifier and its tags. -/
structure Row where
  label : String
  value : Int64
  weight : Binary64
  createdAt : Timestamp
  updatedAt : Option Timestamp
  deriving DecidableEq, Repr

/-- The rows, and the tags of those records that have any. -/
structure Store where
  rows : Table Row := .empty
  tags : Table (List String) := .empty
  deriving DecidableEq

namespace Store

/-- The record that a row and its tags make up. -/
def join (s : Store) (id : RecordId) (row : Row) : Record where
  id
  label := row.label
  value := row.value
  weight := row.weight
  tags := (s.tags.get? id).getD []
  createdAt := row.createdAt
  updatedAt := row.updatedAt

/-- The tags with those of one record replaced. -/
def putTags (tags : Table (List String)) (id : RecordId) (new : List String) :
    Table (List String) :=
  if new.isEmpty then tags.erase id else tags.insert id new

/-- The number of records. -/
def size (s : Store) : Nat :=
  s.rows.size

/-- The number of tags kept for a record. -/
def childRows (s : Store) (id : RecordId) : Nat :=
  ((s.tags.get? id).getD []).length

/-- The record of an identifier. -/
def find (s : Store) (id : RecordId) : Except StoreError Record :=
  match s.rows.get? id with
  | some row => .ok (s.join id row)
  | none => .error (.notFound id)

/-- All records in the order of their identifiers. -/
def records (s : Store) : List Record :=
  s.rows.entries.map fun e => s.join e.1 e.2

/-- The records of a page. -/
def findAll (s : Store) (page : Page) : List Record :=
  (s.records.drop page.offset).take page.limit

/-- The store with a record put under its identifier, and the record as it is stored. -/
def put (s : Store) (id : RecordId) (row : Row) (tags : List String) : Record × Store :=
  let new : Store := ⟨s.rows.insert id row, putTags s.tags id tags⟩
  (new.join id row, new)

/-- Adds a record that is not there, created now. -/
def create (s : Store) (now : Timestamp) (r : Record) : Except StoreError (Record × Store) :=
  if s.rows.contains r.id then .error (.conflict r.id)
  else .ok (s.put r.id ⟨r.label, r.value, r.weight, now, none⟩ r.tags)

/-- Gives a record that is there a new label, value, weight and tags.  It was updated now, or when
it was created if the clock has gone back behind that. -/
def update (s : Store) (now : Timestamp) (r : Record) : Except StoreError (Record × Store) :=
  match s.rows.get? r.id with
  | some row =>
    .ok (s.put r.id
      ⟨r.label, r.value, r.weight, row.createdAt, some (now.latest row.createdAt)⟩ r.tags)
  | none => .error (.notFound r.id)

/-- Removes a record that is there, with its tags. -/
def delete (s : Store) (id : RecordId) : Except StoreError Store :=
  if s.rows.contains id then .ok ⟨s.rows.erase id, s.tags.erase id⟩
  else .error (.notFound id)

end Store

end CacheAside
