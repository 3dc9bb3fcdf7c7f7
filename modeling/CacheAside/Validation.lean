import CacheAside.Page
import CacheAside.Record
import CacheAside.Text.Blank

/-!
# Rules for records

A record is checked before it is stored.  The rules have a fixed order and the first one that is
broken is reported; the tags are examined from left to right.
-/

namespace CacheAside

/-- Why a value is refused. -/
inductive ValidationError where
  | page (cause : PageError)
  | field (name reason : String)
  | targetMismatch (target stored : RecordId)
  | nilIdentifier
  deriving DecidableEq, Repr

def ValidationError.message : ValidationError → String
  | .page (.offset got) => s!"page offset must be >= 0, got {got}"
  | .page (.limit got least greatest) =>
    s!"page limit must be within {least}..={greatest}, got {got}"
  | .field name reason => s!"field `{name}` {reason}"
  | .targetMismatch target stored =>
    s!"update targets {target.toText} but the stored record is {stored.toText}"
  | .nilIdentifier => "record identifier must not be nil"

/-- The greatest sizes that the rules allow. -/
structure Limits where
  maxLabelLength : Nat := 255
  maxTags : Nat := 32
  maxTagLength : Nat := 64
  deriving DecidableEq, Repr

namespace Limits

/-- The rules for one tag. -/
def checkTag (limits : Limits) (tag : String) : Except ValidationError Unit :=
  if Text.allBlank tag then .error (.field "tags" "must not contain blank tags")
  else if limits.maxTagLength < tag.length then
    .error (.field "tags" s!"tag `{tag}` exceeds {limits.maxTagLength} chars")
  else .ok ()

/-- The rules for the tags, from left to right. -/
def checkTags (limits : Limits) : List String → Except ValidationError Unit
  | [] => .ok ()
  | tag :: tags =>
    match limits.checkTag tag with
    | .ok () => checkTags limits tags
    | .error e => .error e

/-- The rules for a label. -/
def checkLabel (limits : Limits) (label : String) : Except ValidationError Unit :=
  if Text.allBlank label then .error (.field "label" "must not be blank")
  else if limits.maxLabelLength < label.length then
    .error (.field "label" s!"is {label.length} chars, max {limits.maxLabelLength}")
  else .ok ()

/-- The rules for a weight: a finite number, not below zero. -/
def checkWeight (weight : Binary64) : Except ValidationError Unit :=
  if !weight.isFinite then .error (.field "weight" "must be finite")
  else if weight.isNegative then .error (.field "weight" "must be >= 0")
  else .ok ()

/-- The rule for the times: an update does not precede the creation. -/
def checkTimes (createdAt : Timestamp) (updatedAt : Option Timestamp) :
    Except ValidationError Unit :=
  match updatedAt with
  | none => .ok ()
  | some t =>
    if t < createdAt then .error (.field "updated_at" "must not precede created_at") else .ok ()

/-- The first rule that the record breaks, if any. -/
def check (limits : Limits) (r : Record) : Except ValidationError Unit := do
  if r.id.isNil then throw .nilIdentifier
  limits.checkLabel r.label
  checkWeight r.weight
  if limits.maxTags < r.tags.length then
    throw (.field "tags" s!"has {r.tags.length} entries, max {limits.maxTags}")
  limits.checkTags r.tags
  checkTimes r.createdAt r.updatedAt

end Limits

end CacheAside
