import CacheAside.Event
import CacheAside.Wire.Record

/-!
# Events as JSON

An event carries the member `type` in front and then its record or its identifier.
-/

namespace CacheAside

namespace DomainEvent

/-- The three kinds of events. -/
inductive Kind where
  | created
  | updated
  | deleted

def tagged : Tagged Kind where
  title := "internally tagged enum DomainEvent"
  tag := "type"
  variants := [("record_created", .created), ("record_updated", .updated),
    ("record_deleted", .deleted)]

/-- The content of an event that carries a record, by the name of its kind. -/
def recordShape (kind : String) : Shape where
  title := "struct variant DomainEvent::" ++ kind
  fields := [.of "record" Record.decode]

/-- The content of an event that carries an identifier. -/
def deletedShape : Shape where
  title := "struct variant DomainEvent::RecordDeleted"
  fields := [.of "id" Ident.decode (α := RecordId)]

def decode : Decoder DomainEvent := fun source j => do
  match ← tagged.split source j with
  | (.created, content) =>
    let fields ← (recordShape "RecordCreated").fieldsOf .buffered content
    .created <$> fields.required .buffered "record" Record.decode
  | (.updated, content) =>
    let fields ← (recordShape "RecordUpdated").fieldsOf .buffered content
    .updated <$> fields.required .buffered "record" Record.decode
  | (.deleted, content) =>
    let fields ← deletedShape.fieldsOf .buffered content
    .deleted <$> fields.required .buffered "id" Ident.decode

def toJson : DomainEvent → Json
  | .created r => .record [("type", .text "record_created"), ("record", r.toJson)]
  | .updated r => .record [("type", .text "record_updated"), ("record", r.toJson)]
  | .deleted id => .record [("type", .text "record_deleted"), ("id", id.toJson)]

end DomainEvent

namespace EventEnvelope

def shape : Shape where
  title := "struct EventEnvelope"
  fields :=
    [.of "event_id" Ident.decode (α := EventId), .of "occurred_at" (.plain Json.asTime),
      .of "event" DomainEvent.decode]

def decode : Decoder EventEnvelope := fun source j => do
  let fields ← shape.fieldsOf source j
  let eventId ← fields.required source "event_id" Ident.decode
  let occurredAt ← fields.required source "occurred_at" (.plain Json.asTime)
  let event ← fields.required source "event" DomainEvent.decode
  return { eventId, occurredAt, event }

def toJson (e : EventEnvelope) : Json :=
  .record [("event_id", e.eventId.toJson), ("occurred_at", .text e.occurredAt.toText),
    ("event", e.event.toJson)]

end EventEnvelope

end CacheAside
