import CacheAside.Port
import CacheAside.Table

/-!
# The cache in memory

An entry of the cache counts until its time to live is over.  From the moment of its expiry on it is
as good as absent; a look-up that finds such an entry drops it.
-/

namespace CacheAside

/-- A record that was put into the cache. -/
structure CacheEntry where
  record : Record
  /-- The first moment at which the entry does not count any more. -/
  expiresAt : Timestamp
  deriving DecidableEq, Repr

/-- Why the expiry of an entry cannot be told. -/
inductive ExpiryFault where
  /-- The time to live is longer than any span of time that can be told. -/
  | span
  /-- The expiry lies beyond the last point in time. -/
  | moment
  deriving DecidableEq, Repr

/-- The entries, whether they still count or not. -/
structure Cache where
  entries : Table CacheEntry := .empty
  deriving DecidableEq

/-- Whether an entry counts at a moment. -/
def CacheEntry.isLive (e : CacheEntry) (now : Timestamp) : Bool :=
  now < e.expiresAt

namespace Cache

/-- The longest span of time that can be told, in nanoseconds: as many milliseconds as a signed
word of 64 bits can count. -/
def maxSpan : Nat := (Nat.pow 2 63 - 1) * 1000000

/-- The moment that lies a number of nanoseconds after another. -/
def expiry (now : Timestamp) (ttl : Nat) : Except ExpiryFault Timestamp :=
  if maxSpan < ttl then .error .span
  else match now.shift? ttl with
    | some moment => .ok moment
    | none => .error .moment

/-- The record of an identifier, if its entry counts. -/
def peek (c : Cache) (now : Timestamp) (id : RecordId) : Option Record :=
  match c.entries.get? id with
  | some e => if e.isLive now then some e.record else none
  | none => none

/-- Looks a record up, and drops its entry if it does not count any more. -/
def get (c : Cache) (now : Timestamp) (id : RecordId) : Option Record × Cache :=
  match c.entries.get? id with
  | some e => if e.isLive now then (some e.record, c) else (none, ⟨c.entries.erase id⟩)
  | none => (none, c)

/-- Puts a record in for `ttl` nanoseconds, in place of what was there. -/
def set (c : Cache) (now : Timestamp) (ttl : Nat) (r : Record) : Except ExpiryFault Cache := do
  return ⟨c.entries.insert r.id ⟨r, ← expiry now ttl⟩⟩

/-- Drops the entry of an identifier. -/
def delete (c : Cache) (id : RecordId) : Cache :=
  ⟨c.entries.erase id⟩

/-- The number of entries that count. -/
def size (c : Cache) (now : Timestamp) : Nat :=
  (c.entries.filter (·.isLive now)).size

/-- Drops all entries that do not count any more, and tells how many they were. -/
def purge (c : Cache) (now : Timestamp) : Nat × Cache :=
  let live := c.entries.filter (·.isLive now)
  (c.entries.size - live.size, ⟨live⟩)

end Cache

end CacheAside
