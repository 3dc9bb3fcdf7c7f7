import CacheAside.Clock
import CacheAside.Ident.Generator
import CacheAside.Service.Run
import CacheAside.Text.Quoted

/-!
# Putting a service together

A service needs a store, a cache and an event bus; all that is missing is reported at once.
Everything else has a default: the system's clock, identifiers stamped by the same clock as the
records, the usual limits and the usual configuration.
-/

namespace CacheAside

/-- A part without which there is no service. -/
inductive RequiredPort where
  | store
  | cache
  | events
  deriving DecidableEq, Repr

def RequiredPort.name : RequiredPort → String
  | .store => "store"
  | .cache => "cache"
  | .events => "events"

/-- Where events go. -/
inductive EventBus where
  /-- To a journal that stamps them by a clock. -/
  | journal (clock : Clock)
  | void
  deriving DecidableEq, Repr

/-- The parts that have been given. -/
structure Parts where
  /-- A store in memory that stamps records by a clock. -/
  store : Option Clock := none
  /-- A cache in memory whose entries expire by a clock. -/
  cache : Option Clock := none
  events : Option EventBus := none
  /-- The clock of the service. -/
  clock : Option Clock := none
  /-- The clock that stamps identifiers. -/
  ids : Option Clock := none
  limits : Option Limits := none
  config : Config := {}
  deriving DecidableEq, Repr

/-- A service with all its parts. -/
structure Assembly where
  service : Service
  store : Clock
  cache : Clock
  events : EventBus
  clock : Clock
  ids : Clock
  deriving DecidableEq, Repr

/-- The message about missing parts. -/
def missingMessage (missing : List RequiredPort) : String :=
  let names := ", ".intercalate (missing.map fun port => Text.quoted port.name)
  s!"Missing ports: [{names}]. These ports are required but were not provided."

namespace Parts

/-- The required parts that have not been given. -/
def missing (p : Parts) : List RequiredPort :=
  (if p.store.isNone then [.store] else []) ++ (if p.cache.isNone then [.cache] else []) ++
    (if p.events.isNone then [.events] else [])

/-- The service of the parts, or the parts that it lacks. -/
def assemble (p : Parts) : Except (List RequiredPort) Assembly :=
  match p.store, p.cache, p.events with
  | some store, some cache, some events =>
    let clock := p.clock.getD .system
    .ok {
      service := { config := p.config, limits := p.limits.getD {} }
      store, cache, events, clock
      ids := p.ids.getD clock }
  | _, _, _ => .error p.missing

end Parts

namespace Assembly

/-- The clock that a call is stamped by. -/
def clockOf (a : Assembly) : PortCall → Clock
  | .lookUp _ => a.cache
  | .writeCache _ => a.cache
  | .publish _ => match a.events with
    | .journal clock => clock
    | .void => a.clock
  | _ => a.store

/-- What calls meet while the system's clock shows `systemTime`, with an identifier for an event. -/
def conditions (a : Assembly) (systemTime : Timestamp) (eventId : EventId) : Conditions where
  circumstances call := {
    now := (a.clockOf call).read systemTime
    eventId
    ttl := a.service.config.cacheTtl * nanosPerSecond
    silent := a.events = .void }

/-- Makes a record of a caller's input, with an identifier of its own. -/
def candidate (a : Assembly) (systemTime : Timestamp) (id : RecordId) (input : NewRecord) :
    Record :=
  .ofNew id input (a.clock.read systemTime)

end Assembly

end CacheAside
