import CacheAside.Operation
import CacheAside.Port

/-!
# Errors of the service

An error tells its caller what became of the store: only a failure to notify leaves a change behind.
-/

namespace CacheAside

inductive ServiceError where
  | notFound (id : RecordId)
  | validation (cause : ValidationError)
  | store (op : Operation) (cause : StoreError)
  /-- The record was written, but nobody was told. -/
  | propagation (op : Operation) (id : RecordId) (cause : EventError)
  | cancelled (cause : Interruption)
  deriving DecidableEq, Repr

/-- The coarse kinds of errors that a transport distinguishes. -/
inductive ErrorKind where
  | notFound
  | invalidInput
  | internal
  | cancelled
  deriving DecidableEq, Repr

/-- The status of a web response for the kind. -/
def ErrorKind.status : ErrorKind → Nat
  | .notFound => 404
  | .invalidInput => 400
  | .internal => 500
  | .cancelled => 499

namespace ServiceError

def kind : ServiceError → ErrorKind
  | .notFound _ => .notFound
  | .validation _ => .invalidInput
  | .store _ _ => .internal
  | .propagation _ _ _ => .internal
  | .cancelled _ => .cancelled

/-- Whether the call has changed the store although it failed. -/
def isCommitted : ServiceError → Bool
  | .propagation _ _ _ => true
  | _ => false

/-- The text of the error that is wrapped. -/
def source? : ServiceError → Option String
  | .notFound _ => none
  | .validation cause => some cause.message
  | .store _ cause => some cause.message
  | .propagation _ _ cause => some cause.message
  | .cancelled _ => none

def message : ServiceError → String
  | .notFound id => s!"record {id.toText} not found"
  | .validation cause => s!"validation failed: {cause.message}"
  | .store op cause => s!"store failure during {op.name}: {cause.message}"
  | .propagation op id cause =>
    s!"record {id.toText} was written but {op.name} notification failed: {cause.message}"
  | .cancelled cause => cause.message

/-- An error of the store: a missing record and an interruption are no failures of the store. -/
def ofStore (op : Operation) : StoreError → ServiceError
  | .notFound id => .notFound id
  | .interrupted cause => .cancelled cause
  | cause => .store op cause

/-- An error of publishing after a write. -/
def ofPublish (op : Operation) (id : RecordId) : EventError → ServiceError
  | .interrupted cause => .cancelled cause
  | cause => .propagation op id cause

end ServiceError

end CacheAside
