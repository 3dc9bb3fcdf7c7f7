import CacheAside.Operation
import CacheAside.Port
import CacheAside.Trace

/-!
# Failures that callers do not see

Failures of the cache, and of publishing after a deletion, do not make a call fail.  They are
counted and logged instead.
-/

namespace CacheAside

/-- The calls of the cache. -/
inductive CacheCall where
  | get
  | set
  | delete
  deriving DecidableEq, Repr

def CacheCall.name : CacheCall → String
  | .get => "get"
  | .set => "set"
  | .delete => "delete"

/-- A failure that was swallowed, with the operation and the record that it concerns. -/
inductive Failure where
  | cache (op : Operation) (call : CacheCall) (id : RecordId) (error : CacheError)
  | event (op : Operation) (id : RecordId) (error : EventError)
  deriving DecidableEq, Repr

/-- How a failure is logged. -/
def Failure.remark : Failure → Remark
  | .cache op call id error =>
    ⟨.warn, "cache failure ignored",
      [("op", op.name), ("call", call.name), ("record_id", id.toText), ("error", error.message)]⟩
  | .event op id error =>
    ⟨.warn, "event publish failure ignored",
      [("op", op.name), ("record_id", id.toText), ("error", error.message)]⟩

/-- The counts of the failures that were swallowed. -/
structure FailureCounts where
  cacheGet : Nat := 0
  cacheSet : Nat := 0
  cacheDelete : Nat := 0
  eventPublish : Nat := 0
  deriving DecidableEq, Repr

namespace FailureCounts

/-- Counts one more failure. -/
def note (c : FailureCounts) : Failure → FailureCounts
  | .cache _ .get _ _ => { c with cacheGet := c.cacheGet + 1 }
  | .cache _ .set _ _ => { c with cacheSet := c.cacheSet + 1 }
  | .cache _ .delete _ _ => { c with cacheDelete := c.cacheDelete + 1 }
  | .event _ _ _ => { c with eventPublish := c.eventPublish + 1 }

def total (c : FailureCounts) : Nat :=
  c.cacheGet + c.cacheSet + c.cacheDelete + c.eventPublish

def isClean (c : FailureCounts) : Bool :=
  c.total == 0

end FailureCounts

end CacheAside
