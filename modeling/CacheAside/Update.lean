import CacheAside.Validation

/-!
# Updates

An update names the record it is for and says how to change it: by replacing all fields, by
patching some of them, or by any other rule that fits `Merger`.  An update that is merged into a
record with another identifier is refused.
-/

namespace CacheAside

/-- A rule that changes a stored record. -/
structure Merger where
  /-- The record that the update is for. -/
  target : RecordId
  merge : Record → Except ValidationError Record

/-- Refuses a record that the update is not for. -/
def ensureTarget (target : RecordId) (stored : Record) : Except ValidationError Unit :=
  if target = stored.id then .ok () else .error (.targetMismatch target stored.id)

/-- New values for all fields. -/
structure FullReplace where
  id : RecordId
  label : String
  value : Int64
  weight : Binary64
  tags : List String
  deriving DecidableEq, Repr

/-- A value that may have been left out. -/
inductive Patch (α : Type) where
  | absent
  | present (value : α)
  deriving DecidableEq, Repr

namespace Patch

variable {α : Type}

def isAbsent : Patch α → Bool
  | .absent => true
  | .present _ => false

def toOption : Patch α → Option α
  | .absent => none
  | .present value => some value

def ofOption : Option α → Patch α
  | none => .absent
  | some value => .present value

/-- The value itself, or what was there before. -/
def apply : Patch α → α → α
  | .absent, old => old
  | .present value, _ => value

end Patch

/-- New values for some fields. -/
structure SparsePatch where
  id : RecordId
  label : Patch String := .absent
  value : Patch Int64 := .absent
  weight : Patch Binary64 := .absent
  tags : Patch (List String) := .absent
  deriving DecidableEq, Repr

/-- An update in one of the two forms that can be sent. -/
inductive RecordUpdate where
  | replace (update : FullReplace)
  | patch (update : SparsePatch)
  deriving DecidableEq, Repr

namespace FullReplace

def merge (u : FullReplace) (stored : Record) : Except ValidationError Record := do
  ensureTarget u.id stored
  return { stored with label := u.label, value := u.value, weight := u.weight, tags := u.tags }

def merger (u : FullReplace) : Merger where
  target := u.id
  merge := u.merge

end FullReplace

namespace SparsePatch

/-- Whether the patch leaves out every field. -/
def isEmpty (u : SparsePatch) : Bool :=
  u.label.isAbsent && u.value.isAbsent && u.weight.isAbsent && u.tags.isAbsent

def merge (u : SparsePatch) (stored : Record) : Except ValidationError Record := do
  ensureTarget u.id stored
  return { stored with
    label := u.label.apply stored.label
    value := u.value.apply stored.value
    weight := u.weight.apply stored.weight
    tags := u.tags.apply stored.tags }

def merger (u : SparsePatch) : Merger where
  target := u.id
  merge := u.merge

end SparsePatch

namespace RecordUpdate

def target : RecordUpdate → RecordId
  | .replace u => u.id
  | .patch u => u.id

def merge : RecordUpdate → Record → Except ValidationError Record
  | .replace u => u.merge
  | .patch u => u.merge

def merger (u : RecordUpdate) : Merger where
  target := u.target
  merge := u.merge

end RecordUpdate

end CacheAside
