import CacheAside.Proofs.RoundTrip.Tags

/-!
# A patch has the fields that its object has

A field of a patch is there exactly if the object has a member of its name, and then with the value
of that member (`SparsePatch.decode_object`).  No decoder takes `null` for such a value, so nobody
can leave out a field by giving it no value; a field that may itself be `null` tells the two apart
(`NullablePatch.decode_object`).
-/

namespace CacheAside

open Json

/-! ## One field -/

namespace Json

variable {α : Type} {name : String} {members : List (Text × Json)}

/-- What the members set a field to: what it was if none of them has its name, or else their
value. -/
def Sets (name : String) (decode : Json → Except DecodeError α) (members : List (Text × Json))
    (old new : α) : Prop :=
  (valuesOf name members = [] → new = old) ∧ ∀ j ∈ valuesOf name members, decode j = .ok new

end Json

namespace Patch

variable {α : Type} {name : String} {decode : Json → Except DecodeError α} {p : Patch α}
  {members : List (Json.Text × Json)}

/-- The field is absent if no member has its name, and there with the value of the one that has. -/
def Shown (name : String) (decode : Json → Except DecodeError α)
    (members : List (Json.Text × Json)) : Patch α → Prop
  | .absent => valuesOf name members = []
  | .present a => ∃ j, valuesOf name members = [j] ∧ decode j = .ok a

theorem Shown.length_le (shown : p.Shown name decode members) :
    (valuesOf name members).length ≤ 1 := by
  cases p with
  | absent =>
    have hnone : valuesOf name members = [] := shown
    rw [hnone]
    exact Nat.zero_le 1
  | present a =>
    obtain ⟨j, hvalues, -⟩ := shown
    rw [hvalues]
    exact Nat.le_refl 1

/-- The decoder takes whatever stands under the name. -/
theorem Shown.decode_ok (shown : p.Shown name decode members) {source : Source} {j : Json}
    (given : j ∈ valuesOf name members) : ∃ p, Patch.decode decode source j = .ok p := by
  cases p with
  | absent =>
    rw [show valuesOf name members = [] from shown] at given
    cases given
  | present a =>
    obtain ⟨j', hvalues, hdecode⟩ := shown
    rw [hvalues] at given
    obtain rfl := List.mem_singleton.mp given
    exact ⟨_, Patch.decode_ok hdecode source⟩

/-- A field that is there replaces what was there before. -/
theorem Shown.sets (shown : p.Shown name decode members) (old : α) :
    Sets name decode members old (p.apply old) := by
  cases p with
  | absent =>
    have hnone : valuesOf name members = [] := shown
    rw [Sets, hnone]
    exact ⟨fun _ => rfl, nofun⟩
  | present a =>
    obtain ⟨j, hvalues, hdecode⟩ := shown
    rw [Sets, hvalues]
    refine ⟨nofun, fun j' hj' => ?_⟩
    rw [List.mem_singleton.mp hj']
    exact hdecode

/-- A field is written under its name if it is there. -/
theorem Shown.names_toMember (shown : p.Shown name decode members) (encode : α → Json) :
    (p.toMember name encode).map Prod.fst =
      [name].filter fun name => !(valuesOf name members).isEmpty := by
  cases p with
  | absent =>
    have hnone : valuesOf name members = [] := shown
    simp [toMember, hnone]
  | present a =>
    obtain ⟨j, hvalues, -⟩ := shown
    simp [toMember, hvalues]

/-- What is taken from an object for a field that may be missing. -/
theorem optional_kept_iff {shape : Shape} {source : Source}
    (known : (shape.field? name).isSome = true) (single : (valuesOf name members).length ≤ 1) :
    (shape.kept members).optional source name .absent (Patch.decode decode) = .ok p ↔
      p.Shown name decode members := by
  rw [Shape.optional_kept_eq_ok known single]
  cases p with
  | absent => simp [Shown, Patch.decode, map_eq_ok]
  | present a => simp [Shown, Patch.decode, map_eq_ok]

end Patch

/-! ## Sparse patches -/

namespace SparsePatch

variable {source : Source} {members : List (Json.Text × Json)} {p : SparsePatch}

/-- The fields that a patch may leave out. -/
def fieldNames : List String :=
  ["label", "value", "weight", "tags"]

/-- The patch has the fields that the members have. -/
structure Shows (p : SparsePatch) (members : List (Json.Text × Json)) : Prop where
  id : ∃ j, valuesOf "id" members = [j] ∧ j.asIdent = .ok p.id
  label : p.label.Shown "label" asString members
  value : p.value.Shown "value" asInt64 members
  weight : p.weight.Shown "weight" asBinary64 members
  tags : p.tags.Shown "tags" asStrings members

theorem name_of_field? {name : String} (known : (shape.field? name).isSome = true) :
    name = "id" ∨ name ∈ fieldNames := by
  obtain ⟨field, hfield⟩ := Option.isSome_iff_exists.mp known
  have hname : field.name = name := by simpa using List.find?_some hfield
  have hmem := List.mem_of_find?_eq_some hfield
  rw [← hname]
  simp only [shape, List.mem_cons, List.not_mem_nil, or_false] at hmem
  rcases hmem with rfl | rfl | rfl | rfl | rfl <;> simp [fieldNames]

theorem Shows.length_le (h : p.Shows members) {name : String}
    (known : (shape.field? name).isSome = true) : (valuesOf name members).length ≤ 1 := by
  rcases name_of_field? known with rfl | hname
  · obtain ⟨j, hvalues, -⟩ := h.id
    rw [hvalues]
    exact Nat.le_refl 1
  · simp only [fieldNames, List.mem_cons, List.not_mem_nil, or_false] at hname
    rcases hname with rfl | rfl | rfl | rfl
    · exact h.label.length_le
    · exact h.value.length_le
    · exact h.weight.length_le
    · exact h.tags.length_le

/-- A patch is decoded from an object that has its fields, with no others than the shape admits. -/
theorem decode_object : decode source (.object members) = .ok p ↔
    (∀ member ∈ members, shape.Admits source member) ∧ p.Shows members := by
  have hid : (shape.field? "id").isSome = true := rfl
  have hlabel : (shape.field? "label").isSome = true := rfl
  have hvalue : (shape.field? "value").isSome = true := rfl
  have hweight : (shape.field? "weight").isSome = true := rfl
  have htags : (shape.field? "tags").isSome = true := rfl
  simp only [decode, bind_eq_ok, Shape.fieldsOf_object]
  constructor
  · rintro ⟨fields, ⟨hadmits, hsingle, rfl⟩, id, hgivesId, label, hgivesLabel, value, hgivesValue,
      weight, hgivesWeight, tags, hgivesTags, heq⟩
    obtain rfl := Except.ok.inj heq
    exact ⟨hadmits, (Shape.required_kept_eq_ok hid (hsingle _ hid)).mp hgivesId,
      (Patch.optional_kept_iff hlabel (hsingle _ hlabel)).mp hgivesLabel,
      (Patch.optional_kept_iff hvalue (hsingle _ hvalue)).mp hgivesValue,
      (Patch.optional_kept_iff hweight (hsingle _ hweight)).mp hgivesWeight,
      (Patch.optional_kept_iff htags (hsingle _ htags)).mp hgivesTags⟩
  · rintro ⟨hadmits, hshows⟩
    have hsingle (name : String) (known : (shape.field? name).isSome = true) :=
      hshows.length_le known
    exact ⟨_, ⟨hadmits, hsingle, rfl⟩,
      _, (Shape.required_kept_eq_ok hid (hsingle _ hid)).mpr hshows.id,
      _, (Patch.optional_kept_iff hlabel (hsingle _ hlabel)).mpr hshows.label,
      _, (Patch.optional_kept_iff hvalue (hsingle _ hvalue)).mpr hshows.value,
      _, (Patch.optional_kept_iff hweight (hsingle _ hweight)).mpr hshows.weight,
      _, (Patch.optional_kept_iff htags (hsingle _ htags)).mpr hshows.tags, rfl⟩

/-- No member is `null` that has the name of such a field. -/
theorem decode_ne_ok_of_null {name : String} (field : name ∈ fieldNames)
    (null : (some name, .null) ∈ members) : decode source (.object members) ≠ .ok p := by
  intro h
  obtain ⟨hadmits, -⟩ := decode_object.mp h
  obtain ⟨_, hname, hvalue⟩ := hadmits _ null
  obtain rfl := Option.some.inj hname
  simp only [fieldNames, List.mem_cons, List.not_mem_nil, or_false] at field
  rcases field with rfl | rfl | rfl | rfl <;> cases hvalue

/-! ### What is written for a patch -/

/-- The members that are written for a patch that was decoded from others: the identifier and the
fields that were given, each with its value. -/
structure Rewrites (p : SparsePatch) (given written : List (Json.Text × Json)) : Prop where
  names : written.map Prod.fst =
    ("id" :: fieldNames.filter fun name => !(valuesOf name given).isEmpty).map some
  id : (some "id", .text p.id.toText) ∈ written
  label : ∀ label ∈ p.label.toOption, (some "label", .text label) ∈ written
  value : ∀ value ∈ p.value.toOption, (some "value", .int value.toInt) ∈ written
  weight : ∀ weight ∈ p.weight.toOption, (some "weight", .real weight) ∈ written
  tags : ∀ tags ∈ p.tags.toOption, (some "tags", textsToJson tags) ∈ written

theorem Shows.rewrites (h : p.Shows members) :
    p.Rewrites members (p.members.map fun member => (some member.1, member.2)) := by
  have hwritten : ∀ member ∈ p.members, (some member.1, member.2) ∈
      p.members.map fun member => (some member.1, member.2) :=
    fun member hmember => List.mem_map_of_mem hmember
  obtain ⟨hid, hlabel, hvalue, hweight, htags⟩ := forall_members.mp hwritten
  refine ⟨?_, hid, hlabel, hvalue, hweight, htags⟩
  have hnames : p.members.map Prod.fst =
      "id" :: fieldNames.filter fun name => !(valuesOf name members).isEmpty := by
    rw [show fieldNames = ["label"] ++ ["value"] ++ ["weight"] ++ ["tags"] from rfl]
    simp only [SparsePatch.members, List.map_cons, List.map_append, List.filter_append,
      h.label.names_toMember, h.value.names_toMember, h.weight.names_toMember,
      h.tags.names_toMember]
  rw [← hnames, List.map_map, List.map_map]
  rfl

/-- A weight that has no number in JSON is written as `null`, so every patch has a text. -/
theorem writable_members (p : SparsePatch) : ∀ member ∈ p.members, member.2.Fits 1 := by
  have hreal (x : Binary64) : (real x).Fits 1 := by
    cases hfinite : x.isFinite with
    | true => exact fits_real hfinite
    | false =>
      rw [real, hfinite]
      exact fits_null
  exact forall_members.mpr ⟨Ident.fits_toJson _, fun _ _ => fits_text _, fun _ _ => fits_int64 _,
    fun _ _ => hreal _, fun _ _ => fits_texts _⟩

theorem read_toJson (p : SparsePatch) :
    Document.read p.toJson.compress = ⟨.record p.members, false⟩ :=
  Document.read_compress (fits_record p.writable_members).writable

theorem read_toJson_patch (p : SparsePatch) :
    Document.read (RecordUpdate.patch p).toJson.compress =
      ⟨.record (("mode", .text "patch") :: p.members), false⟩ :=
  Document.read_compress (fits_record
    (List.forall_mem_cons.mpr ⟨fits_text _, p.writable_members⟩)).writable

/-! ### What a patch changes -/

/-- The second record is the first with the fields that the members give. -/
structure Changes (members : List (Json.Text × Json)) (old new : Record) : Prop where
  label : Sets "label" asString members old.label new.label
  value : Sets "value" asInt64 members old.value new.value
  weight : Sets "weight" asBinary64 members old.weight new.weight
  tags : Sets "tags" asStrings members old.tags new.tags
  id : new.id = old.id
  createdAt : new.createdAt = old.createdAt
  updatedAt : new.updatedAt = old.updatedAt

theorem Shows.changes (h : p.Shows members) {r : Record} (same : r.id = p.id) :
    ∃ new, p.merge r = .ok new ∧ Changes members r new := by
  refine ⟨{ r with
    label := p.label.apply r.label
    value := p.value.apply r.value
    weight := p.weight.apply r.weight
    tags := p.tags.apply r.tags }, ?_, h.label.sets _, h.value.sets _, h.weight.sets _,
    h.tags.sets _, rfl, rfl, rfl⟩
  rw [merge, ensureTarget, if_pos same.symm]
  rfl

end SparsePatch

theorem FullReplace.decode_ne_ok_of_null {source : Source} {members : List (Json.Text × Json)}
    {r : FullReplace} {name : String} (field : name ∈ SparsePatch.fieldNames)
    (null : (some name, .null) ∈ members) : decode source (.object members) ≠ .ok r := by
  intro h
  obtain ⟨fields, hfields, -⟩ := bind_eq_ok.mp h
  obtain ⟨hadmits, -, -⟩ := Shape.fieldsOf_object.mp hfields
  obtain ⟨_, hname, hvalue⟩ := hadmits _ null
  obtain rfl := Option.some.inj hname
  simp only [SparsePatch.fieldNames, List.mem_cons, List.not_mem_nil, or_false] at field
  rcases field with rfl | rfl | rfl | rfl <;> cases hvalue

/-- Neither form of an update takes `null` for a field. -/
theorem RecordUpdate.decode_ne_ok_of_null {source : Source} {members : List (Json.Text × Json)}
    {u : RecordUpdate} {name : String} (field : name ∈ SparsePatch.fieldNames)
    (null : (some name, .null) ∈ members) : decode source (.object members) ≠ .ok u := by
  intro h
  obtain ⟨-, ⟨-, r, -, hr⟩ | ⟨-, p, -, hp⟩⟩ := decode_object.mp h
  · exact FullReplace.decode_ne_ok_of_null field null hr
  · exact SparsePatch.decode_ne_ok_of_null field null hp

/-! ## A field that may be `null` -/

namespace NullablePatch

variable {source : Source} {members : List (Json.Text × Json)} {p : NullablePatch}

theorem field?_shape (name : String) : shape.field? name =
    if name = "v" then some (.of "v" (Patch.decode (asOption asInt64)) true) else none := by
  by_cases h : name = "v"
  · simp [Shape.field?, shape, h]
  · simp [Shape.field?, shape, h, Ne.symm h]

theorem asOption_asInt64_eq_ok {j : Json} {v : Option Int64} : j.asOption asInt64 = .ok v ↔
    j = .null ∧ v = none ∨ ∃ n : Int64, j = .int n.toInt ∧ v = some n := by
  cases j with
  | null => simp [asOption, int, eq_comm]
  | _ =>
    simp only [asOption, map_eq_ok, asInt64_eq_ok]
    simp [int, eq_comm]

/-- What the members give for the field: nothing, `null` or an integer. -/
theorem shown_iff : p.v.Shown "v" (asOption asInt64) members ↔
    valuesOf "v" members = [] ∧ p.v = .absent ∨
      valuesOf "v" members = [.null] ∧ p.v = .present none ∨
      ∃ n : Int64, valuesOf "v" members = [.int n.toInt] ∧ p.v = .present (some n) := by
  cases p.v with
  | absent => simp [Patch.Shown]
  | present v =>
    simp only [Patch.Shown, asOption_asInt64_eq_ok]
    constructor
    · rintro ⟨j, hvalues, ⟨rfl, rfl⟩ | ⟨n, rfl, rfl⟩⟩
      · exact .inr (.inl ⟨hvalues, rfl⟩)
      · exact .inr (.inr ⟨n, hvalues, rfl⟩)
    · rintro (⟨-, h⟩ | ⟨hvalues, h⟩ | ⟨n, hvalues, h⟩)
      · cases h
      · cases h
        exact ⟨_, hvalues, .inl ⟨rfl, rfl⟩⟩
      · cases h
        exact ⟨_, hvalues, .inr ⟨n, rfl, rfl⟩⟩

/-- Other members only have to keep the rules of JSON. -/
theorem decode_object : decode source (.object members) = .ok p ↔
    (∀ member ∈ members, ∃ name, member.1 = some name ∧
      (name ≠ "v" → member.2.intact = true)) ∧
      p.v.Shown "v" (asOption asInt64) members := by
  have hknown {name : String} (known : (shape.field? name).isSome = true) : name = "v" := by
    by_contra hname
    rw [field?_shape, if_neg hname] at known
    cases known
  have hv : (shape.field? "v").isSome = true := by
    rw [field?_shape, if_pos rfl]
    rfl
  simp only [decode, bind_eq_ok, Shape.fieldsOf_object]
  constructor
  · rintro ⟨fields, ⟨hadmits, hsingle, rfl⟩, v, hgives, heq⟩
    obtain rfl := Except.ok.inj heq
    refine ⟨fun member hmember => ?_, (Patch.optional_kept_iff hv (hsingle _ hv)).mp hgives⟩
    obtain ⟨name, hname, hvalue⟩ := hadmits member hmember
    refine ⟨name, hname, fun hother => ?_⟩
    rwa [field?_shape, if_neg hother] at hvalue
  · rintro ⟨others, hshown⟩
    have hadmits : ∀ member ∈ members, shape.Admits source member := by
      intro member hmember
      obtain ⟨name, hname, hother⟩ := others member hmember
      refine ⟨name, hname, ?_⟩
      rw [field?_shape]
      by_cases heq : name = "v"
      · subst heq
        rw [if_pos rfl]
        exact Field.check_iff.mpr (hshown.decode_ok (mem_valuesOf.mpr (hname ▸ hmember)))
      · rw [if_neg heq]
        exact hother heq
    refine ⟨_, ⟨hadmits, fun name known => ?_, rfl⟩, _,
      (Patch.optional_kept_iff hv hshown.length_le).mpr hshown, rfl⟩
    rw [hknown known]
    exact hshown.length_le

/-- Nothing, `null` and an integer are written apart, and so they are read apart. -/
theorem decodeText_toJson (p : NullablePatch) : decodeText decode p.toJson.compress = .ok p := by
  obtain ⟨written, heq, hfits, hnames, hshown⟩ : ∃ written, p.toJson = .record written ∧
      (∀ member ∈ written, member.2.Fits 1) ∧ (∀ member ∈ written, member.1 = "v") ∧
      p.v.Shown "v" (asOption asInt64) (written.map fun member => (some member.1, member.2)) := by
    rcases p with ⟨_ | _ | n⟩
    · exact ⟨[], rfl, List.forall_mem_nil _, List.forall_mem_nil _,
        shown_iff.mpr (.inl ⟨rfl, rfl⟩)⟩
    · exact ⟨[("v", .null)], rfl, List.forall_mem_singleton.mpr fits_null,
        List.forall_mem_singleton.mpr rfl, shown_iff.mpr (.inr (.inl ⟨rfl, rfl⟩))⟩
    · exact ⟨[("v", .int n.toInt)], rfl, List.forall_mem_singleton.mpr (fits_int64 n),
        List.forall_mem_singleton.mpr rfl, shown_iff.mpr (.inr (.inr ⟨n, rfl, rfl⟩))⟩
  rw [heq]
  refine decodeText_compress (fits_record hfits).writable (decode_object.mpr ⟨?_, hshown⟩)
  refine List.forall_mem_map.mpr fun member hmember => ⟨member.1, rfl, fun ne => ?_⟩
  exact absurd (hnames member hmember) ne

end NullablePatch

/-! ## Presence in texts -/

namespace SparsePatch

/-- A patch that is decoded from a text, by itself or as an update, has exactly the fields that the
object has, each with the value of its member; what is written for it has these again; and when it
is merged, the fields that the object does not have stay as they were.  Where one of the fields is
`null`, neither decoder gives anything.

A field that may itself be `null` is read as one of three, and written so that it is read back. -/
theorem present_iff_member :
    (∀ (text : String) (members : List (Json.Text × Json)) (p : SparsePatch),
      (Document.read text).root = .object members →
      (decodeText decode text = .ok p ∨ decodeText RecordUpdate.decode text = .ok (.patch p)) →
      p.Shows members ∧
      (∃ written, Document.read p.toJson.compress = ⟨.object written, false⟩ ∧
        Document.read (RecordUpdate.patch p).toJson.compress =
          ⟨.object ((some "mode", .text "patch") :: written), false⟩ ∧
        p.Rewrites members written) ∧
      ∀ r : Record, r.id = p.id → ∃ new, p.merge r = .ok new ∧
        (RecordUpdate.patch p).merge r = .ok new ∧ Changes members r new) ∧
    (∀ (text : String) (members : List (Json.Text × Json)) (name : String),
      (Document.read text).root = .object members → name ∈ fieldNames →
      (some name, .null) ∈ members →
      (∀ p, decodeText decode text ≠ .ok p) ∧ ∀ u, decodeText RecordUpdate.decode text ≠ .ok u) ∧
    (∀ (text : String) (members : List (Json.Text × Json)) (p : NullablePatch),
      (Document.read text).root = .object members →
      (decodeText NullablePatch.decode text = .ok p ↔
        (Document.read text).trailing = false ∧
          (∀ member ∈ members, ∃ name, member.1 = some name ∧
            (name ≠ "v" → member.2.intact = true)) ∧
          (valuesOf "v" members = [] ∧ p.v = .absent ∨
            valuesOf "v" members = [.null] ∧ p.v = .present none ∨
            ∃ n : Int64, valuesOf "v" members = [.int n.toInt] ∧ p.v = .present (some n)))) ∧
    ∀ p : NullablePatch, decodeText NullablePatch.decode p.toJson.compress = .ok p := by
  refine ⟨fun text members p root decoded => ?_, fun text members name root field null => ?_,
    fun text members p root => ?_, NullablePatch.decodeText_toJson⟩
  · have hshows : p.Shows members := by
      rcases decoded with hdirect | htagged
      · obtain ⟨-, hdecode⟩ := decodeText_eq_ok.mp hdirect
        rw [root] at hdecode
        exact (decode_object.mp hdecode).2
      · obtain ⟨-, hdecode⟩ := decodeText_eq_ok.mp htagged
        rw [root] at hdecode
        obtain ⟨-, ⟨-, r, heq, -⟩ | ⟨-, p', heq, hdecode'⟩⟩ := RecordUpdate.decode_object.mp hdecode
        · cases heq
        · cases heq
          exact (decode_object.mp hdecode').2
    refine ⟨hshows, ⟨_, p.read_toJson, p.read_toJson_patch, hshows.rewrites⟩, fun r same => ?_⟩
    obtain ⟨new, hmerge, hchanges⟩ := hshows.changes same
    exact ⟨new, hmerge, hmerge, hchanges⟩
  · simp only [ne_eq, decodeText_eq_ok, root, not_and]
    exact ⟨fun p _ => decode_ne_ok_of_null field null,
      fun u _ => RecordUpdate.decode_ne_ok_of_null field null⟩
  · rw [decodeText_eq_ok, root, NullablePatch.decode_object, NullablePatch.shown_iff]

/-- A text with one of the fields, one in which a field is `null`, and the three texts of a field
that may be. -/
theorem one_field_present :
    let p : SparsePatch := { id := .ofNat 3, value := .present 4 }
    (∀ r : Record, r.id = p.id → ∃ new, p.merge r = .ok new ∧ new.value = 4 ∧ new.label = r.label) ∧
      (∀ u, decodeText RecordUpdate.decode "\x7b\"label\":null\x7d" ≠ .ok u) ∧
      decodeText NullablePatch.decode "\x7b\x7d" = .ok ⟨.absent⟩ ∧
      decodeText NullablePatch.decode "\x7b\"v\":null\x7d" = .ok ⟨.present none⟩ ∧
      decodeText NullablePatch.decode "\x7b\"v\":7\x7d" = .ok ⟨.present (some 7)⟩ := by
  intro p
  obtain ⟨hpatch, hnull, -, hback⟩ := present_iff_member
  have hroot : (Document.read p.toJson.compress).root = .record p.members := by rw [read_toJson]
  have hdecode : decodeText decode p.toJson.compress = .ok p :=
    decodeText_compress (fits_record p.writable_members).writable (decode_toJson nofun)
  obtain ⟨hshows, -, hmerge⟩ := hpatch _ _ p hroot (.inl hdecode)
  have hlabel : (record [("label", .null)]).Fits 2 := fits_record (by simpa using fits_null)
  have hread := Document.read_compress hlabel.writable
  refine ⟨fun r same => ?_, ?_, hback ⟨.absent⟩, hback ⟨.present none⟩, hback ⟨.present (some 7)⟩⟩
  · obtain ⟨new, hnew, -, hchanges⟩ := hmerge r same
    refine ⟨new, hnew, ?_, hchanges.label.1 rfl⟩
    exact (Except.ok.inj ((hchanges.value.2 _ List.mem_cons_self).symm.trans (asInt64_int 4)))
  · exact (hnull _ _ "label" (congrArg Document.root hread) (by simp [fieldNames])
      List.mem_cons_self).2

end SparsePatch

end CacheAside
