import CacheAside.Json.Decode
import CacheAside.Json.Printer
import CacheAside.Page

/-!
# Pages as JSON

When reading, the offset may be missing and both numbers are checked.
-/

namespace CacheAside.Page

def shape : Shape where
  title := "struct RawPage"
  fields := [.of "offset" (.plain Json.asInt64) true, .of "limit" (.plain Json.asInt64)]

def decode : Decoder Page := fun source j => do
  let fields ← shape.fieldsOf source j
  let offset ← fields.optional source "offset" 0 (.plain Json.asInt64)
  let limit ← fields.required source "limit" (.plain Json.asInt64)
  (Page.make? offset.toInt limit.toInt).mapError .page

def toJson (p : Page) : Json :=
  .record [("offset", .int p.offset), ("limit", .int p.limit)]

end CacheAside.Page
