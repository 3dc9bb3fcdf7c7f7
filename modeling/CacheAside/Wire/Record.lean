import CacheAside.Json.Decode
import CacheAside.Json.Printer
import CacheAside.Record

/-!
# Records as JSON

The fields are written in the order of declaration.  When reading, the tags may be missing, and so
may the time of the last update.
-/

namespace CacheAside

/-- A list of texts. -/
def textsToJson (texts : List String) : Json :=
  .array (texts.map Json.text)

namespace Ident

def toJson {kind : IdentKind} (id : Ident kind) : Json :=
  .text id.toText

def decode {kind : IdentKind} : Decoder (Ident kind) :=
  .plain Json.asIdent

end Ident

namespace NewRecord

def shape : Shape where
  title := "struct NewRecord"
  fields :=
    [.of "label" (.plain Json.asString), .of "value" (.plain Json.asInt64),
      .of "weight" (.plain Json.asBinary64), .of "tags" (.plain Json.asStrings) true]

def decode : Decoder NewRecord := fun source j => do
  let fields ← shape.fieldsOf source j
  let label ← fields.required source "label" (.plain Json.asString)
  let value ← fields.required source "value" (.plain Json.asInt64)
  let weight ← fields.required source "weight" (.plain Json.asBinary64)
  let tags ← fields.optional source "tags" [] (.plain Json.asStrings)
  return { label, value, weight, tags }

def toJson (r : NewRecord) : Json :=
  .record [("label", .text r.label), ("value", .int r.value.toInt), ("weight", .real r.weight),
    ("tags", textsToJson r.tags)]

end NewRecord

namespace Record

def shape : Shape where
  title := "struct Record"
  fields :=
    [.of "id" Ident.decode (α := RecordId), .of "label" (.plain Json.asString),
      .of "value" (.plain Json.asInt64), .of "weight" (.plain Json.asBinary64),
      .of "tags" (.plain Json.asStrings) true, .of "created_at" (.plain Json.asTime),
      .of "updated_at" (.plain (Json.asOption Json.asTime))]

def decode : Decoder Record := fun source j => do
  let fields ← shape.fieldsOf source j
  let id ← fields.required source "id" Ident.decode
  let label ← fields.required source "label" (.plain Json.asString)
  let value ← fields.required source "value" (.plain Json.asInt64)
  let weight ← fields.required source "weight" (.plain Json.asBinary64)
  let tags ← fields.optional source "tags" [] (.plain Json.asStrings)
  let createdAt ← fields.required source "created_at" (.plain Json.asTime)
  let updatedAt ← fields.optional source "updated_at" none (.plain (Json.asOption Json.asTime))
  return { id, label, value, weight, tags, createdAt, updatedAt }

def toJson (r : Record) : Json :=
  .record [("id", r.id.toJson), ("label", .text r.label), ("value", .int r.value.toInt),
    ("weight", .real r.weight), ("tags", textsToJson r.tags),
    ("created_at", .text r.createdAt.toText),
    ("updated_at", match r.updatedAt with
      | none => .null
      | some t => .text t.toText)]

end Record

end CacheAside
