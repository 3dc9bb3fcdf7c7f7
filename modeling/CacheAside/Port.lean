import CacheAside.Context
import CacheAside.Event
import CacheAside.Page
import CacheAside.Update

/-!
# Ports

The service works on a store, a cache and an event bus.  `PortCall` is what it can ask of them and
`PortCall.Reply` what it gets back.  Every call may also be interrupted, and every port has an error
of its own for that.
-/

namespace CacheAside

/-- Why the store failed. -/
inductive StoreError where
  | notFound (id : RecordId)
  | conflict (id : RecordId)
  | backend (message : String)
  | interrupted (cause : Interruption)
  deriving DecidableEq, Repr

/-- Why the cache failed. -/
inductive CacheError where
  | backend (message : String)
  | interrupted (cause : Interruption)
  deriving DecidableEq, Repr

/-- Why publishing failed. -/
inductive EventError where
  | backend (message : String)
  | interrupted (cause : Interruption)
  deriving DecidableEq, Repr

def StoreError.message : StoreError → String
  | .notFound id => s!"record {id.toText} not found"
  | .conflict id => s!"record {id.toText} already exists"
  | .backend message => s!"store backend error: {message}"
  | .interrupted cause => cause.message

def CacheError.message : CacheError → String
  | .backend message => s!"cache backend error: {message}"
  | .interrupted cause => cause.message

def EventError.message : EventError → String
  | .backend message => s!"event bus error: {message}"
  | .interrupted cause => cause.message

/-- One of the calls that the ports understand. -/
inductive Port where
  | storeFindAll
  | storeFindById
  | storeCreate
  | storeUpdate
  | storeDeleteById
  | cacheGetById
  | cacheSet
  | cacheDeleteById
  | publishCreated
  | publishUpdated
  | publishDeleted
  deriving DecidableEq, Repr

namespace Port

def all : List Port :=
  [.storeFindAll, .storeFindById, .storeCreate, .storeUpdate, .storeDeleteById, .cacheGetById,
    .cacheSet, .cacheDeleteById, .publishCreated, .publishUpdated, .publishDeleted]

def name : Port → String
  | .storeFindAll => "store.find_all"
  | .storeFindById => "store.find_by_id"
  | .storeCreate => "store.create"
  | .storeUpdate => "store.update"
  | .storeDeleteById => "store.delete_by_id"
  | .cacheGetById => "cache.get_by_id"
  | .cacheSet => "cache.set"
  | .cacheDeleteById => "cache.delete_by_id"
  | .publishCreated => "events.publish_created"
  | .publishUpdated => "events.publish_updated"
  | .publishDeleted => "events.publish_deleted"

/-- The port of a name. -/
def ofName? (name : String) : Option Port :=
  all.find? fun port => port.name == name

end Port

/-- What is written to the cache. -/
inductive CacheWrite where
  | keep (record : Record)
  | evict (id : RecordId)
  deriving DecidableEq, Repr

/-- What is asked of a port. -/
inductive PortCall where
  | findAll (page : Page)
  | find (id : RecordId)
  | insert (record : Record)
  | replace (record : Record)
  | remove (id : RecordId)
  | lookUp (id : RecordId)
  | writeCache (write : CacheWrite)
  | publish (event : DomainEvent)
  deriving DecidableEq, Repr

namespace PortCall

/-- What the port answers when all is well. -/
abbrev Value : PortCall → Type
  | .findAll _ => List Record
  | .find _ => Record
  | .insert _ => Record
  | .replace _ => Record
  | .remove _ => Unit
  | .lookUp _ => Option Record
  | .writeCache _ => Unit
  | .publish _ => Unit

/-- What the port answers when it fails. -/
abbrev Failure : PortCall → Type
  | .findAll _ => StoreError
  | .find _ => StoreError
  | .insert _ => StoreError
  | .replace _ => StoreError
  | .remove _ => StoreError
  | .lookUp _ => CacheError
  | .writeCache _ => CacheError
  | .publish _ => EventError

/-- What the port answers. -/
abbrev Reply (call : PortCall) : Type :=
  Except call.Failure call.Value

/-- The port that is called. -/
def port : PortCall → Port
  | .findAll _ => .storeFindAll
  | .find _ => .storeFindById
  | .insert _ => .storeCreate
  | .replace _ => .storeUpdate
  | .remove _ => .storeDeleteById
  | .lookUp _ => .cacheGetById
  | .writeCache (.keep _) => .cacheSet
  | .writeCache (.evict _) => .cacheDeleteById
  | .publish (.created _) => .publishCreated
  | .publish (.updated _) => .publishUpdated
  | .publish (.deleted _) => .publishDeleted

/-- The failure of a call that was interrupted. -/
def interrupted (cause : Interruption) : (call : PortCall) → call.Failure
  | .findAll _ => .interrupted cause
  | .find _ => .interrupted cause
  | .insert _ => .interrupted cause
  | .replace _ => .interrupted cause
  | .remove _ => .interrupted cause
  | .lookUp _ => .interrupted cause
  | .writeCache _ => .interrupted cause
  | .publish _ => .interrupted cause

end PortCall

end CacheAside
