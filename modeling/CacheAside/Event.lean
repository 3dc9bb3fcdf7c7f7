import CacheAside.Record

/-!
# Events

What the service tells others about its records.
-/

namespace CacheAside

/-- What happened to a record. -/
inductive DomainEvent where
  | created (record : Record)
  | updated (record : Record)
  | deleted (id : RecordId)
  deriving DecidableEq, Repr

namespace DomainEvent

def recordId : DomainEvent → RecordId
  | .created record => record.id
  | .updated record => record.id
  | .deleted id => id

/-- The name under which subscribers know the event. -/
def name : DomainEvent → String
  | .created _ => "record.created"
  | .updated _ => "record.updated"
  | .deleted _ => "record.deleted"

end DomainEvent

/-- A published event. -/
structure EventEnvelope where
  eventId : EventId
  occurredAt : Timestamp
  event : DomainEvent
  deriving DecidableEq, Repr

end CacheAside
