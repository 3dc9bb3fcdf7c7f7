import CacheAside.Proofs.Fallible
import CacheAside.Proofs.RoundTrip.Time
import CacheAside.Proofs.RoundTrip.Tree
import CacheAside.Wire.Counts
import CacheAside.Wire.Event

/-!
# Values and fields are decoded from what they are encoded to

Each simple value has a tree that its decoder takes back.  An object whose members have different
names, each known to the shape and with a value that the field accepts, is surveyed without a
complaint (`Shape.fieldsOf_record`); the value of a tagged union is split into its variant and its
content (`Tagged.split_record`).
-/

namespace CacheAside

namespace Json

/-! ## Trees that a text can hold and memory too -/

/-- The tree can be read back from its text, and set aside inside `depth` containers. -/
structure Fits (depth : Nat) (j : Json) : Prop where
  writable : j.Writable
  storable : j.storable depth = true

variable {depth : Nat}

theorem fits_null : Json.null.Fits depth :=
  ⟨by simp [Writable], by simp [storable]⟩

theorem fits_text (s : String) : (text s).Fits depth :=
  ⟨by simp [text, Writable], by simp [text, storable]⟩

theorem fits_int {n : Int} (range : -halfLimit ≤ n ∧ n < wordLimit) : (int n).Fits depth :=
  ⟨by simpa [int, Writable, Number.Writable] using range, by simp [int, storable, Number.storable]⟩

theorem fits_int64 (n : Int64) : (int n.toInt).Fits depth := by
  have hle := n.le_toInt
  have hlt := n.toInt_lt
  have hhalf : halfLimit = 2 ^ 63 := rfl
  have hword : wordLimit = 2 ^ 64 := rfl
  exact fits_int (by omega)

theorem fits_word {n : Nat} (lt : n < wordLimit) : (int n).Fits depth := by
  have hhalf : halfLimit = 2 ^ 63 := rfl
  exact fits_int (by omega)

theorem fits_real {x : Binary64} (finite : x.isFinite = true) : (real x).Fits depth :=
  ⟨by simp [real, finite, Writable, Number.Writable],
    by simp [real, finite, storable, Number.storable]⟩

theorem fits_texts (texts : List String) : (textsToJson texts).Fits (depth + 1) := by
  have hitems : WritableItems (texts.map text) ∧ storableItems depth (texts.map text) = true := by
    induction texts with
    | nil => simp [WritableItems, storableItems]
    | cons s texts ih =>
      have htext : (text s).Fits depth := fits_text s
      simpa [WritableItems, storableItems, htext.writable, htext.storable] using ih
  exact ⟨by simpa [textsToJson, Writable] using hitems.1,
    by simpa [textsToJson, storable] using hitems.2⟩

/-- An object fits if its values fit into one container more. -/
theorem fits_record {members : List (String × Json)}
    (h : ∀ member ∈ members, member.2.Fits depth) : (record members).Fits (depth + 1) := by
  have hmembers : WritableMembers (members.map fun member => (some member.1, member.2)) ∧
      storableMembers depth (members.map fun member => (some member.1, member.2)) = true := by
    induction members with
    | nil => simp [WritableMembers, storableMembers]
    | cons member members ih =>
      obtain ⟨hfirst, hrest⟩ := List.forall_mem_cons.mp h
      simpa [WritableMembers, storableMembers, hfirst.writable, hfirst.storable] using ih hrest
  exact ⟨by simpa [record, Writable] using hmembers.1,
    by simpa [record, storable] using hmembers.2⟩

/-! ## Simple values -/

theorem asString_text (s : String) : (text s).asString = .ok s := rfl

theorem asInt64_int (n : Int64) : (int n.toInt).asInt64 = .ok n := by
  have hle := n.le_toInt
  have hlt := n.toInt_lt
  have hhalf : halfLimit = 2 ^ 63 := rfl
  rw [int, asInt64, if_pos (by omega), Int64.ofInt_toInt]

theorem asWord_int {n : Nat} (lt : n < wordLimit) : (int n).asWord = .ok n := by
  rw [int, asWord, if_pos ⟨Int.natCast_nonneg n, lt⟩, Int.toNat_natCast]

theorem asBinary64_real {x : Binary64} (finite : x.isFinite = true) :
    (real x).asBinary64 = .ok x := by
  simp [real, finite, asBinary64]

theorem asStrings_texts (texts : List String) : (textsToJson texts).asStrings = .ok texts := by
  simp only [asStrings, textsToJson, asList]
  induction texts with
  | nil => rfl
  | cons s texts ih =>
    simp [asString_text, ih, pure, Except.pure]

theorem asTime_text (t : Timestamp) : (text t.toText).asTime = .ok t := by
  rw [text, asTime, Timestamp.parse_toText]
  rfl

theorem asIdent_toJson {kind : IdentKind} (id : Ident kind) : id.toJson.asIdent = .ok id := by
  rw [Ident.toJson, asIdent, asString_text, ok_bind, Ident.parse_toText]
  rfl

end Json

open Json

/-! ## Decoding step by step

What a decoder is applied to is rewritten and not computed: a value of 64 bits is compared with the
greatest word, and no proof should have to count that far.
-/

section Plain

variable (source : Source)

theorem Decoder.plain_ok {α : Type} {decode : Json → Except DecodeError α} {j : Json} {a : α}
    (h : decode j = .ok a) : Decoder.plain decode source j = .ok a := h

@[simp]
theorem plain_text (s : String) : Decoder.plain asString source (text s) = .ok s :=
  Decoder.plain_ok source (asString_text s)

@[simp]
theorem plain_int64 (n : Int64) : Decoder.plain asInt64 source (int n.toInt) = .ok n :=
  Decoder.plain_ok source (asInt64_int n)

@[simp]
theorem plain_texts (texts : List String) :
    Decoder.plain asStrings source (textsToJson texts) = .ok texts :=
  Decoder.plain_ok source (asStrings_texts texts)

@[simp]
theorem plain_time (t : Timestamp) : Decoder.plain asTime source (text t.toText) = .ok t :=
  Decoder.plain_ok source (asTime_text t)

theorem plain_word {n : Nat} (lt : n < wordLimit) : Decoder.plain asWord source (int n) = .ok n :=
  Decoder.plain_ok source (asWord_int lt)

theorem plain_real {x : Binary64} (finite : x.isFinite = true) :
    Decoder.plain asBinary64 source (real x) = .ok x :=
  Decoder.plain_ok source (asBinary64_real finite)

@[simp]
theorem Ident.decode_toJson {kind : IdentKind} (id : Ident kind) :
    Ident.decode source id.toJson = .ok id :=
  Decoder.plain_ok source (asIdent_toJson id)

end Plain

/-! ## Objects with named fields -/

namespace Shape

/-- The shape has a field of that name, and the value is right for it. -/
def Takes (shape : Shape) (source : Source) (member : String × Json) : Prop :=
  ∃ field, shape.fields.find? (fun field => field.name == member.1) = some field ∧
    field.check source.inner member.2 = .ok ()

variable {shape : Shape} {source : Source}

/-- Members that the shape takes pass the survey in their order. -/
theorem survey_members {members : List (String × Json)} {seen : Fields}
    (takes : ∀ member ∈ members, shape.Takes source member)
    (distinct : (members.map Prod.fst).Nodup)
    (fresh : ∀ member ∈ members, ∀ entry ∈ seen, entry.1 ≠ member.1) :
    shape.survey source seen (members.map fun member => (some member.1, member.2)) =
      .ok (seen.reverse ++ members) := by
  induction members generalizing seen with
  | nil => simp [survey]
  | cons member members ih =>
    obtain ⟨⟨field, hfield, hcheck⟩, htakes⟩ := List.forall_mem_cons.mp takes
    obtain ⟨hfirst, hfresh⟩ := List.forall_mem_cons.mp fresh
    obtain ⟨hnew, hdistinct⟩ := List.nodup_cons.mp distinct
    have hunseen : (seen.any fun entry => entry.1 == member.1) = false := by
      simpa using hfirst
    have hrest := @ih (member :: seen) htakes hdistinct (by
      intro other hother entry hentry
      rcases List.mem_cons.mp hentry with rfl | hseen
      · exact fun h => hnew (h ▸ List.mem_map_of_mem hother)
      · exact hfresh other hother entry hseen)
    simp only [List.map_cons, survey, hfield, hunseen, hcheck]
    simpa using hrest

/-- The fields of an object are its members. -/
theorem fieldsOf_record {members : List (String × Json)}
    (takes : ∀ member ∈ members, shape.Takes source member)
    (distinct : (members.map Prod.fst).Nodup) :
    shape.fieldsOf source (.record members) = .ok members := by
  have hsurvey := @survey_members shape source members [] takes distinct nofun
  simpa [fieldsOf, record] using hsurvey

end Shape

@[simp]
theorem Field.name_of {α : Type} {name : String} {decode : Decoder α} {omissible : Bool} :
    (Field.of name decode omissible).name = name := rfl

/-- A field is content with what its decoder decodes. -/
@[simp]
theorem Field.check_iff {α : Type} {name : String} {decode : Decoder α} {omissible : Bool}
    {source : Source} {j : Json} :
    (Field.of name decode omissible).check source j = .ok () ↔ ∃ a, decode source j = .ok a := by
  simp only [Field.of]
  cases decode source j <;> simp [Except.map]

namespace Fields

theorem find?_cons (name other : String) (j : Json) (fields : Fields) :
    Fields.find? ((name, j) :: fields) other =
      if name = other then some j else fields.find? other := by
  by_cases h : name = other
  · simp [Fields.find?, h]
  · simp [Fields.find?, h]

theorem find?_append (fields more : Fields) (name : String) :
    Fields.find? (fields ++ more) name = (fields.find? name).or (more.find? name) := by
  simp only [Fields.find?, List.find?_append]
  cases List.find? (fun entry => entry.1 == name) fields <;> rfl

variable {α : Type} (name other : String) (j : Json) (fields : Fields) (source : Source)
  (decode : Decoder α)

/-- A field is taken from the member of its name. -/
@[simp]
theorem required_cons : Fields.required ((name, j) :: fields) source other decode =
    if name = other then decode source.inner j else fields.required source other decode := by
  by_cases h : name = other
  · simp [Fields.required, find?_cons, h]
  · simp [Fields.required, find?_cons, h]

@[simp]
theorem optional_cons (default : α) :
    Fields.optional ((name, j) :: fields) source other default decode =
      if name = other then decode source.inner j
      else fields.optional source other default decode := by
  by_cases h : name = other
  · simp [Fields.optional, find?_cons, h]
  · simp [Fields.optional, find?_cons, h]

end Fields

/-! ## Patches -/

namespace Patch

variable {α : Type}

/-- A patch is written as one member or none. -/
theorem toMember_eq (name : String) (encode : α → Json) (p : Patch α) :
    p.toMember name encode = p.toOption.toList.map fun a => (name, encode a) := by
  cases p <;> rfl

theorem find?_toMember (name other : String) (encode : α → Json) (p : Patch α) :
    Fields.find? (p.toMember name encode) other =
      if name = other then p.toOption.map encode else none := by
  cases p with
  | absent => simp [toMember, toOption, Fields.find?]
  | present a =>
    by_cases h : name = other
    · simp [toMember, toOption, Fields.find?, h]
    · simp [toMember, Fields.find?, h]

theorem names_sublist (name : String) (encode : α → Json) (p : Patch α) :
    ((p.toMember name encode).map Prod.fst).Sublist [name] := by
  cases p <;> simp [toMember]

theorem decode_ok {decode : Json → Except DecodeError α} {j : Json} {a : α}
    (h : decode j = .ok a) (source : Source) :
    Patch.decode decode source j = .ok (.present a) := by
  simp [Patch.decode, h, Functor.map, Except.map]

/-- What is written for a patch is decoded to that patch, left out or there. -/
theorem optional_toMember {fields : Fields} {source : Source} {name : String} {p : Patch α}
    {encode : α → Json} {decode : Json → Except DecodeError α}
    (found : fields.find? name = p.toOption.map encode)
    (back : ∀ a ∈ p.toOption, decode (encode a) = .ok a) :
    fields.optional source name .absent (Patch.decode decode) = .ok p := by
  cases p with
  | absent => simp [Fields.optional, found, toOption]
  | present a =>
    simp [Fields.optional, found, toOption, decode_ok (back a rfl)]

end Patch

/-! ## Tagged unions -/

namespace Source

/-- Whether `count` more containers may be set aside inside those around the value. -/
def HasRoom (source : Source) (count : Nat) : Prop :=
  ∀ depth, source = .streamed depth → depth + count ≤ maxDepth

variable {source : Source} {count : Nat}

theorem HasRoom.inner (room : source.HasRoom (count + 1)) : source.inner.HasRoom count := by
  intro depth h
  cases source with
  | streamed outer =>
    have houter := room outer rfl
    cases h
    omega
  | buffered => cases h
  | given => cases h

/-- Where there is room, a tree that fits is set aside. -/
theorem HasRoom.accepts (room : source.HasRoom count) {j : Json}
    (fits : ∀ depth, j.Fits (depth + count)) : source.accepts j = true := by
  cases source with
  | streamed depth =>
    have hroom := room depth rfl
    have hfits := (fits (maxDepth - depth - count)).storable
    rwa [Nat.sub_add_cancel (by omega)] at hfits
  | buffered => rfl
  | given => rfl

end Source

namespace Tagged

variable {α : Type} {union : Tagged α} {source : Source}

/-- Whatever follows the tag is set aside, if it may be. -/
theorem sift_members {tag : α} {members : List (String × Json)}
    {aside : List (Json.Text × Json)}
    (other : ∀ member ∈ members, member.1 ≠ union.tag)
    (accepted : ∀ member ∈ members, source.inner.accepts member.2 = true) :
    union.sift source (some tag) aside (members.map fun member => (some member.1, member.2)) =
      .ok (tag, aside.reverse ++ members.map fun member => (some member.1, member.2)) := by
  induction members generalizing aside with
  | nil => simp [sift]
  | cons member members ih =>
    obtain ⟨hname, hother⟩ := List.forall_mem_cons.mp other
    obtain ⟨hfirst, haccepted⟩ := List.forall_mem_cons.mp accepted
    rw [List.map_cons, sift, if_neg hname, if_pos hfirst, ih hother haccepted]
    simp

/-- A value with its tag in front is split into its variant and its other members. -/
theorem split_record {tag name : String} {variant : α} {members : List (String × Json)}
    (tagged : union.tag = tag)
    (known : union.variants.find? (fun variant => variant.1 == name) = some (name, variant))
    (other : ∀ member ∈ members, member.1 ≠ tag)
    (accepted : ∀ member ∈ members, source.inner.accepts member.2 = true) :
    union.split source (.record ((tag, .text name) :: members)) =
      .ok (variant, .record members) := by
  have hsift := @sift_members α union source variant members []
    (fun member h => tagged ▸ other member h) accepted
  simp only [split, record, List.map_cons]
  rw [sift, if_pos tagged.symm]
  simp [asVariant, text, known, hsift, pure, Except.pure]

end Tagged

end CacheAside
