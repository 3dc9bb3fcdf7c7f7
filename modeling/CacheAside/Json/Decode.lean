import CacheAside.Decimal.Notation
import CacheAside.Json.Reader
import CacheAside.Text.Quoted
import CacheAside.Time.Rfc3339
import CacheAside.Ident
import CacheAside.Validation

/-!
# Decoding

A decoder turns a JSON value into a value of a type, or reports the first problem in the order of
the text.  Objects with named fields are decoded in two passes.  `Shape.survey` goes through the
members in order and reports whatever is wrong with one of them; afterwards the fields are taken by
name, so their order no longer matters.

A value can reach a decoder in three ways, and what is left over at the end of an array is reported
differently in each: while a text is being read it breaks the text; of a value that was set aside
first (because a tag decides how to read it) the items are counted; of a finished value it is only
said that there are too many.
-/

namespace CacheAside

/-- What a decoder has found in place of what it expects. -/
inductive Found where
  | null
  | boolean (b : Bool)
  | integer (n : Int)
  | float (x : Binary64)
  | string (s : String)
  | sequence
  | map
  deriving DecidableEq, Repr

/-- Why a text or a value is refused. -/
inductive DecodeError where
  /-- The text breaks the rules of JSON, or a value in it has no place in memory. -/
  | malformed
  | missingField (name : String)
  | duplicateField (name : String)
  | invalidType (found : Found) (expected : String)
  | outOfRange (n : Int) (expected : String)
  | invalidLength (length : Nat) (expected : String)
  | unknownVariant (name : String) (known : List String)
  | ident (cause : IdentError)
  | time (cause : TimeError)
  | page (cause : PageError)
  deriving DecidableEq, Repr

def Found.message : Found → String
  | .null => "null"
  | .boolean b => s!"boolean `{b}`"
  | .integer n => s!"integer `{n}`"
  | .float x => s!"floating point `{x.toText}`"
  | .string s => s!"string {Text.quoted s}"
  | .sequence => "sequence"
  | .map => "map"

/-- The names that a variant may have: one, either of two, or one of a list. -/
def expectedVariants (known : List String) : String :=
  match known with
  | [a] => s!"`{a}`"
  | [a, b] => s!"`{a}` or `{b}`"
  | names => "one of " ++ ", ".intercalate (names.map fun name => s!"`{name}`")

def DecodeError.message : DecodeError → String
  | .malformed => "the text is not JSON"
  | .missingField name => s!"missing field `{name}`"
  | .duplicateField name => s!"duplicate field `{name}`"
  | .invalidType found expected => s!"invalid type: {found.message}, expected {expected}"
  | .outOfRange n expected => s!"invalid value: integer `{n}`, expected {expected}"
  | .invalidLength length expected => s!"invalid length {length}, expected {expected}"
  | .unknownVariant name known =>
    s!"unknown variant `{name}`, expected {expectedVariants known}"
  | .ident cause => cause.message
  | .time cause => cause.message
  | .page cause => (ValidationError.page cause).message

/-- How a value reaches its decoder. -/
inductive Source where
  /-- While the text is read, inside so many containers. -/
  | streamed (depth : Nat)
  /-- After it was set aside. -/
  | buffered
  /-- As a finished value. -/
  | given
  deriving DecidableEq, Repr

/-- A decoder. -/
abbrev Decoder (α : Type) := Source → Json → Except DecodeError α

/-- How deep containers may be nested in a text that is stored. -/
def maxDepth : Nat := 127

namespace Source

/-- The source of what is inside a container. -/
def inner : Source → Source
  | .streamed depth => .streamed (depth + 1)
  | source => source

/-- Whether the value may be set aside. -/
def accepts (source : Source) (j : Json) : Bool :=
  match source with
  | .streamed depth => j.storable (maxDepth - depth)
  | _ => true

/-- The report on an array of `length` items of which only `used` have a place. -/
def leftover (source : Source) (used length : Nat) : DecodeError :=
  match source with
  | .streamed _ => .malformed
  | .buffered =>
    .invalidLength length (if used = 1 then "1 element in sequence"
      else s!"{used} elements in sequence")
  | .given => .invalidLength length "fewer elements in array"

end Source

namespace Json

/-- What a decoder finds here; a value that must not be looked at breaks the text. -/
def found : Json → Except DecodeError Found
  | .null => .ok .null
  | .boolean b => .ok (.boolean b)
  | .number (.integer n) => .ok (.integer n)
  | .number (.real x) => if x.isFinite then .ok (.float x) else .error .malformed
  | .string (some s) => .ok (.string s)
  | .string none => .error .malformed
  | .array _ => .ok .sequence
  | .object _ => .ok .map
  | .broken => .error .malformed

/-- Reports that something else was expected here. -/
def mismatch {α : Type} (j : Json) (expected : String) : Except DecodeError α := do
  throw (.invalidType (← j.found) expected)

/-! ## Simple values -/

def asString : Json → Except DecodeError String
  | .string (some s) => .ok s
  | j => j.mismatch "a string"

/-- A signed integer of 64 bits. -/
def asInt64 : Json → Except DecodeError Int64
  | .number (.integer n) =>
    if -halfLimit ≤ n ∧ n < halfLimit then .ok (Int64.ofInt n) else .error (.outOfRange n "i64")
  | j => j.mismatch "i64"

/-- An unsigned integer of 64 bits. -/
def asWord : Json → Except DecodeError Nat
  | .number (.integer n) =>
    if 0 ≤ n ∧ n < wordLimit then .ok n.toNat else .error (.outOfRange n "u64")
  | j => j.mismatch "u64"

/-- A floating-point number, which may be written as an integer. -/
def asBinary64 : Json → Except DecodeError Binary64
  | .number (.integer n) => .ok (.ofInt n)
  | .number (.real x) => if x.isFinite then .ok x else .error .malformed
  | j => j.mismatch "f64"

/-- A list of values of one kind. -/
def asList {α : Type} (decode : Json → Except DecodeError α) : Json → Except DecodeError (List α)
  | .array items => items.mapM decode
  | j => j.mismatch "a sequence"

/-- A list of texts. -/
def asStrings : Json → Except DecodeError (List String) :=
  asList asString

/-- A point in time. -/
def asTime : Json → Except DecodeError Timestamp
  | .string (some s) => (Timestamp.parse s).mapError .time
  | j => j.mismatch "an RFC 3339 formatted date and time string"

/-- An identifier. -/
def asIdent {kind : IdentKind} (j : Json) : Except DecodeError (Ident kind) := do
  (Ident.parse (← j.asString)).mapError .ident

/-- A value that may be `null`. -/
def asOption {α : Type} (decode : Json → Except DecodeError α) :
    Json → Except DecodeError (Option α)
  | .null => .ok none
  | j => some <$> decode j

end Json

/-- A decoder that does not ask how its value came. -/
def Decoder.plain {α : Type} (decode : Json → Except DecodeError α) : Decoder α :=
  fun _ j => decode j

/-! ## Objects with named fields -/

/-- A field of an object. -/
structure Field where
  name : String
  /-- Whether it may be missing at the end of an array that stands for the object. -/
  omissible : Bool := false
  /-- Reports what is wrong with a value of the field. -/
  check : Decoder Unit

/-- A field whose values are those of a decoder. -/
def Field.of {α : Type} (name : String) (decode : Decoder α) (omissible : Bool := false) :
    Field where
  name
  omissible
  check source j := (decode source j).map fun _ => ()

/-- An object of named fields, or an array of their values in the order of declaration. -/
structure Shape where
  /-- How messages call it. -/
  title : String
  fields : List Field

/-- The values of the fields that are there. -/
abbrev Fields := List (String × Json)

namespace Shape

/-- How messages call the array form. -/
def arrayTitle (shape : Shape) : String :=
  if shape.fields.length = 1 then s!"{shape.title} with 1 element"
  else s!"{shape.title} with {shape.fields.length} elements"

/-- Goes through the members in order, with the fields seen so far.  A field must not come twice
and its value has to be right; any other member is skipped. -/
def survey (shape : Shape) (source : Source) :
    (seen : Fields) → List (Json.Text × Json) → Except DecodeError Fields
  | seen, [] => .ok seen.reverse
  | _, (none, _) :: _ => .error .malformed
  | seen, (some name, value) :: members =>
    match shape.fields.find? fun field => field.name == name with
    | none => if value.intact then survey shape source seen members else .error .malformed
    | some field =>
      if seen.any fun entry => entry.1 == name then .error (.duplicateField name)
      else
        match field.check source.inner value with
        | .ok () => survey shape source ((name, value) :: seen) members
        | .error e => .error e

/-- Goes through fields and items side by side, `index` of them having been used. -/
def align (shape : Shape) (source : Source) :
    (index : Nat) → List Field → List Json → Except DecodeError Fields
  | index, [], items =>
    if items.isEmpty then .ok [] else .error (source.leftover index (index + items.length))
  | index, field :: fields, [] =>
    if field.omissible then align shape source (index + 1) fields []
    else .error (.invalidLength index shape.arrayTitle)
  | index, field :: fields, item :: items =>
    match field.check source.inner item with
    | .ok () => do return (field.name, item) :: (← align shape source (index + 1) fields items)
    | .error e => .error e

/-- The values of the fields of an object or of an array that stands for it. -/
def fieldsOf (shape : Shape) (source : Source) : Json → Except DecodeError Fields
  | .object members => shape.survey source [] members
  | .array items => shape.align source 0 shape.fields items
  | j => j.mismatch shape.title

end Shape

namespace Fields

/-- The value under a name. -/
def find? (fields : Fields) (name : String) : Option Json :=
  (List.find? (fun entry => entry.1 == name) fields).map Prod.snd

/-- A field that has to be there. -/
def required {α : Type} (fields : Fields) (source : Source) (name : String) (decode : Decoder α) :
    Except DecodeError α :=
  match fields.find? name with
  | some j => decode source.inner j
  | none => .error (.missingField name)

/-- A field with a value for the case that it is missing. -/
def optional {α : Type} (fields : Fields) (source : Source) (name : String) (default : α)
    (decode : Decoder α) : Except DecodeError α :=
  match fields.find? name with
  | some j => decode source.inner j
  | none => .ok default

end Fields

/-! ## Tagged unions -/

/-- The name of a variant. -/
def Json.asVariant {α : Type} (variants : List (String × α)) (j : Json) : Except DecodeError α := do
  match j with
  | .string (some s) =>
    match variants.find? fun variant => variant.1 == s with
    | some variant => return variant.2
    | none => throw (.unknownVariant s (variants.map Prod.fst))
  | j => j.mismatch "variant identifier"

/-- A union of objects in which one member, the tag, says which of them it is.  The tag may stand
anywhere, so the other members are set aside until all have been read.  In the array form the tag
comes first. -/
structure Tagged (α : Type) where
  title : String
  tag : String
  variants : List (String × α)

namespace Tagged

variable {α : Type}

/-- Goes through the members in order: the tag is read where it stands, the others are set aside. -/
def sift (union : Tagged α) (source : Source) :
    (tag : Option α) → (rest : List (Json.Text × Json)) → List (Json.Text × Json) →
      Except DecodeError (α × List (Json.Text × Json))
  | none, _, [] => .error (.missingField union.tag)
  | some tag, rest, [] => .ok (tag, rest.reverse)
  | _, _, (none, _) :: _ => .error .malformed
  | tag, rest, (some name, value) :: members =>
    if name = union.tag then
      match tag with
      | some _ => .error (.duplicateField union.tag)
      | none =>
        match value.asVariant union.variants with
        | .ok tag => sift union source (some tag) rest members
        | .error e => .error e
    else if source.inner.accepts value then
      sift union source tag ((some name, value) :: rest) members
    else .error .malformed

/-- The variant and the content of a tagged value. -/
def split (union : Tagged α) (source : Source) : Json → Except DecodeError (α × Json)
  | .object members => do
    let (tag, rest) ← union.sift source none [] members
    return (tag, .object rest)
  | .array [] => .error (.missingField union.tag)
  | .array (first :: items) => do
    let tag ← first.asVariant union.variants
    if items.all source.inner.accepts then return (tag, .array items) else throw .malformed
  | j => j.mismatch union.title

end Tagged

/-- Decodes a whole text. -/
def decodeText {α : Type} (decode : Decoder α) (text : String) : Except DecodeError α := do
  let document := Json.Document.read text
  let value ← decode (.streamed 0) document.root
  if document.trailing then throw .malformed else return value

end CacheAside
