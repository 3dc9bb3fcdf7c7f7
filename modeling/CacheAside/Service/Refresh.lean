import CacheAside.Table

/-!
# Refreshes in flight

A read that missed the cache may fill it in the background.  Until such a refresh is over, it is
tracked under the identifier of its record, so that a writer can call off the refreshes that carry
an older record.  A refresh has a number of its own, by which it takes itself off the list.
-/

namespace CacheAside

/-- The number of a refresh. -/
abbrev Ticket := Nat

/-- The refreshes in flight. -/
structure RefreshTracker where
  /-- The number of the next refresh. -/
  next : Ticket := 0
  /-- For each record the numbers of its refreshes, oldest first; no list is empty. -/
  slots : Table (List Ticket) := .empty
  deriving DecidableEq

namespace RefreshTracker

/-- The refreshes of a record. -/
def pending (t : RefreshTracker) (id : RecordId) : List Ticket :=
  (t.slots.get? id).getD []

/-- Tracks a new refresh of a record. -/
def spawn (t : RefreshTracker) (id : RecordId) : Ticket × RefreshTracker :=
  (t.next, ⟨t.next + 1, t.slots.insert id (t.pending id ++ [t.next])⟩)

/-- Takes all refreshes of a record off the list. -/
def take (t : RefreshTracker) (id : RecordId) : List Ticket × RefreshTracker :=
  (t.pending id, { t with slots := t.slots.erase id })

/-- Takes one refresh of a record off the list, if it is still there. -/
def finish (t : RefreshTracker) (id : RecordId) (ticket : Ticket) : RefreshTracker :=
  match t.slots.get? id with
  | none => t
  | some tickets =>
    let left := tickets.filter (· ≠ ticket)
    { t with slots := if left.isEmpty then t.slots.erase id else t.slots.insert id left }

end RefreshTracker

end CacheAside
