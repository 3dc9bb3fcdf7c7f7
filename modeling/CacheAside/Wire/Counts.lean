import CacheAside.Json.Decode
import CacheAside.Json.Printer
import CacheAside.Observer
import CacheAside.Operation
import CacheAside.Update
import CacheAside.Wire.Update

/-!
# Counts, operations and lone patches as JSON
-/

namespace CacheAside

namespace FailureCounts

def shape : Shape where
  title := "struct FailureCounts"
  fields :=
    [.of "cache_get" (.plain Json.asWord), .of "cache_set" (.plain Json.asWord),
      .of "cache_delete" (.plain Json.asWord), .of "event_publish" (.plain Json.asWord)]

def decode : Decoder FailureCounts := fun source j => do
  let fields ← shape.fieldsOf source j
  let cacheGet ← fields.required source "cache_get" (.plain Json.asWord)
  let cacheSet ← fields.required source "cache_set" (.plain Json.asWord)
  let cacheDelete ← fields.required source "cache_delete" (.plain Json.asWord)
  let eventPublish ← fields.required source "event_publish" (.plain Json.asWord)
  return { cacheGet, cacheSet, cacheDelete, eventPublish }

def toJson (c : FailureCounts) : Json :=
  .record [("cache_get", .int c.cacheGet), ("cache_set", .int c.cacheSet),
    ("cache_delete", .int c.cacheDelete), ("event_publish", .int c.eventPublish)]

end FailureCounts

namespace Operation

/-- The operation that a name in a text stands for. -/
def ofText (j : Json) : Except DecodeError Operation :=
  j.asVariant (all.map fun op => (op.name, op))

/-- An operation is a text, or an object with one member whose value is `null`.  Anything else
breaks the text. -/
def decode : Decoder Operation
  | _, .string s => ofText (.string s)
  | _, .object [(name, value)] => do
    let op ← ofText (.string name)
    match value with
    | .null => return op
    | value => value.mismatch "unit"
  | _, .object ((name, value) :: _) => do
    let _ ← ofText (.string name)
    match value with
    | .null => throw .malformed
    | value => value.mismatch "unit"
  | _, _ => throw .malformed

def toJson (op : Operation) : Json :=
  .text op.name

end Operation

/-- An object whose only field is an integer that may be `null` and may be left out. -/
structure NullablePatch where
  v : Patch (Option Int64) := .absent
  deriving DecidableEq, Repr

namespace NullablePatch

def shape : Shape where
  title := "struct NullablePatch"
  fields := [.of "v" (Patch.decode (Json.asOption Json.asInt64)) true]

def decode : Decoder NullablePatch := fun source j => do
  let fields ← shape.fieldsOf source j
  let v ← fields.optional source "v" .absent (Patch.decode (Json.asOption Json.asInt64))
  return { v }

def toJson (p : NullablePatch) : Json :=
  .record (p.v.toMember "v" fun
    | none => .null
    | some n => .int n.toInt)

end NullablePatch

end CacheAside
