import CacheAside.Cache
import CacheAside.Journal
import CacheAside.Store

/-!
# The three ports in memory

A store, a cache and a journal answer the calls of the service.  A call has its whole effect at one
moment, and one that fails has none.
-/

namespace CacheAside

/-- What the service works on. -/
structure Backend where
  store : Store := {}
  cache : Cache := {}
  journal : Journal := {}
  deriving DecidableEq

/-- What a call finds when it takes effect. -/
structure Circumstances where
  /-- The time on the clock of the port. -/
  now : Timestamp
  /-- The identifier of the event, if one is published. -/
  eventId : EventId
  /-- Nanoseconds that a cache entry lives. -/
  ttl : Nat
  /-- Whether events are thrown away instead of going to the journal. -/
  silent : Bool := false

/-- What comes of a call. -/
structure Served (call : PortCall) where
  /-- Missing if the call breaks down and never answers. -/
  reply : Option call.Reply
  backend : Backend
  /-- What was added to the journal. -/
  published : Option EventEnvelope := none

namespace Backend

/-- The reply and the backend of a call that changes the store. -/
def served {call : PortCall} (b : Backend) (value : call.Value) (store : Store) : Served call :=
  ⟨some (.ok value), { b with store }, none⟩

/-- The failed call leaves the backend as it is. -/
def refused {call : PortCall} (b : Backend) (e : call.Failure) : Served call :=
  ⟨some (.error e), b, none⟩

/-- Puts a record into the cache.  A time to live that is no span of time is an error; an expiry
that is no point in time breaks the call down. -/
def keep (b : Backend) (c : Circumstances) (r : Record) : Served (.writeCache (.keep r)) :=
  match b.cache.set c.now c.ttl r with
  | .ok cache => ⟨some (.ok ()), { b with cache }, none⟩
  | .error .span => b.refused (.backend
      "ttl out of range: Source duration value is out of range for the target type")
  | .error .moment => ⟨none, b, none⟩

/-- Carries out a call. -/
def serve (b : Backend) (c : Circumstances) : (call : PortCall) → Served call
  | .findAll page => ⟨some (.ok (b.store.findAll page)), b, none⟩
  | .find id => ⟨some (b.store.find id), b, none⟩
  | .insert r =>
    match b.store.create c.now r with
    | .ok (stored, store) => b.served stored store
    | .error e => b.refused e
  | .replace r =>
    match b.store.update c.now r with
    | .ok (stored, store) => b.served stored store
    | .error e => b.refused e
  | .remove id =>
    match b.store.delete id with
    | .ok store => b.served () store
    | .error e => b.refused e
  | .lookUp id =>
    let (found, cache) := b.cache.get c.now id
    ⟨some (.ok found), { b with cache }, none⟩
  | .writeCache (.keep r) => b.keep c r
  | .writeCache (.evict id) => ⟨some (.ok ()), { b with cache := b.cache.delete id }, none⟩
  | .publish event =>
    if c.silent then ⟨some (.ok ()), b, none⟩
    else
      let envelope : EventEnvelope := ⟨c.eventId, c.now, event⟩
      ⟨some (.ok ()), { b with journal := b.journal.append envelope }, some envelope⟩

end Backend

end CacheAside
