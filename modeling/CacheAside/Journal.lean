import CacheAside.Event
import CacheAside.Trace

/-!
# The journal of events

Every published event goes to the end of the journal.  Subscribers read it at their own pace, but
only the last 256 events are kept for them: one who has fallen further behind is told how many
events it has missed, and goes on with the oldest that is kept.
-/

namespace CacheAside

/-- How the publication of an event is logged. -/
def EventEnvelope.remark (e : EventEnvelope) : Remark :=
  ⟨.debug, "event published",
    [("event_id", e.eventId.toText), ("event", e.event.name),
      ("record_id", e.event.recordId.toText)]⟩

/-- The published events, oldest first. -/
structure Journal where
  events : List EventEnvelope := []
  deriving DecidableEq, Repr

/-- What a subscriber gets. -/
inductive Delivery where
  | event (envelope : EventEnvelope)
  /-- So many events were missed. -/
  | lagged (missed : Nat)
  /-- There is nothing new. -/
  | empty
  deriving DecidableEq, Repr

namespace Journal

/-- The number of events that are kept for subscribers. -/
def capacity : Nat := 256

/-- The journal with one more event at its end. -/
def append (j : Journal) (e : EventEnvelope) : Journal :=
  ⟨j.events ++ [e]⟩

/-- The number of events. -/
def size (j : Journal) : Nat :=
  j.events.length

/-- The events of a record, oldest first. -/
def eventsFor (j : Journal) (id : RecordId) : List DomainEvent :=
  (j.events.filter (·.event.recordId = id)).map (·.event)

/-- What a subscriber gets who has read `position` events, and how many it has read then. -/
def receive (j : Journal) (position : Nat) : Delivery × Nat :=
  if position + capacity < j.size then
    (.lagged (j.size - capacity - position), j.size - capacity)
  else match j.events[position]? with
    | some e => (.event e, position + 1)
    | none => (.empty, position)

/-- Up to `count` deliveries to a subscriber; the first empty one ends them. -/
def receiveMany (j : Journal) : (count position : Nat) → List Delivery × Nat
  | 0, position => ([], position)
  | count + 1, position =>
    match j.receive position with
    | (.empty, position) => ([.empty], position)
    | (delivery, position) =>
      let (deliveries, position) := receiveMany j count position
      (delivery :: deliveries, position)

end Journal

end CacheAside
