import CacheAside.Update
import CacheAside.Wire.Record

/-!
# Updates as JSON

A patch writes exactly the fields that it has; a field that is missing when reading is absent, and
`null` is no value of a field.  An update of either form carries the member `mode` in front.
-/

namespace CacheAside

namespace Patch

variable {α : Type}

/-- A value that is there. -/
def decode (inner : Json → Except DecodeError α) : Decoder (Patch α) :=
  fun _ j => .present <$> inner j

/-- The member of a patch; none if it is absent. -/
def toMember (name : String) (encode : α → Json) : Patch α → List (String × Json)
  | .absent => []
  | .present value => [(name, encode value)]

/-- The value alone; `null` if it is absent. -/
def toJson (encode : α → Json) : Patch α → Json
  | .absent => .null
  | .present value => encode value

end Patch

namespace FullReplace

def shape : Shape where
  title := "struct FullReplace"
  fields :=
    [.of "id" Ident.decode (α := RecordId), .of "label" (.plain Json.asString),
      .of "value" (.plain Json.asInt64), .of "weight" (.plain Json.asBinary64),
      .of "tags" (.plain Json.asStrings) true]

def decode : Decoder FullReplace := fun source j => do
  let fields ← shape.fieldsOf source j
  let id ← fields.required source "id" Ident.decode
  let label ← fields.required source "label" (.plain Json.asString)
  let value ← fields.required source "value" (.plain Json.asInt64)
  let weight ← fields.required source "weight" (.plain Json.asBinary64)
  let tags ← fields.optional source "tags" [] (.plain Json.asStrings)
  return { id, label, value, weight, tags }

def members (u : FullReplace) : List (String × Json) :=
  [("id", u.id.toJson), ("label", .text u.label), ("value", .int u.value.toInt),
    ("weight", .real u.weight), ("tags", textsToJson u.tags)]

def toJson (u : FullReplace) : Json :=
  .record u.members

end FullReplace

namespace SparsePatch

def shape : Shape where
  title := "struct SparsePatch"
  fields :=
    [.of "id" Ident.decode (α := RecordId), .of "label" (Patch.decode Json.asString) true,
      .of "value" (Patch.decode Json.asInt64) true,
      .of "weight" (Patch.decode Json.asBinary64) true,
      .of "tags" (Patch.decode Json.asStrings) true]

def decode : Decoder SparsePatch := fun source j => do
  let fields ← shape.fieldsOf source j
  let id ← fields.required source "id" Ident.decode
  let label ← fields.optional source "label" .absent (Patch.decode Json.asString)
  let value ← fields.optional source "value" .absent (Patch.decode Json.asInt64)
  let weight ← fields.optional source "weight" .absent (Patch.decode Json.asBinary64)
  let tags ← fields.optional source "tags" .absent (Patch.decode Json.asStrings)
  return { id, label, value, weight, tags }

def members (u : SparsePatch) : List (String × Json) :=
  ("id", u.id.toJson) :: (u.label.toMember "label" .text ++
    u.value.toMember "value" (fun n => .int n.toInt) ++ u.weight.toMember "weight" .real ++
    u.tags.toMember "tags" textsToJson)

def toJson (u : SparsePatch) : Json :=
  .record u.members

end SparsePatch

namespace RecordUpdate

/-- The two forms of an update. -/
inductive Mode where
  | replace
  | patch

def tagged : Tagged Mode where
  title := "internally tagged enum RecordUpdate"
  tag := "mode"
  variants := [("replace", .replace), ("patch", .patch)]

def decode : Decoder RecordUpdate := fun source j => do
  match ← tagged.split source j with
  | (.replace, content) => .replace <$> FullReplace.decode .buffered content
  | (.patch, content) => .patch <$> SparsePatch.decode .buffered content

def toJson : RecordUpdate → Json
  | .replace u => .record (("mode", .text "replace") :: u.members)
  | .patch u => .record (("mode", .text "patch") :: u.members)

end RecordUpdate

end CacheAside
