import CacheAside.Proofs.RoundTrip.Survey
import CacheAside.Proofs.RoundTrip.Values

/-!
# Tagged and direct decoding agree

An update comes with the member `mode`, wherever in the object it stands: the other members are set
aside until the mode is known, and only then decoded.  What is set aside is the object without its
tag (`Tagged.split_object`).  A shape without a field of that name skips the tag anyway
(`Shape.survey_without`), and none of the fields of an update minds being set aside first, so the
direct decoder of the same object gives the same.
-/

namespace CacheAside

open Json

namespace Json

variable {name other : String} {members : List (Text × Json)}

/-- The members under other names. -/
def without (name : String) (members : List (Text × Json)) : List (Text × Json) :=
  members.filter fun member => member.1 != some name

theorem without_cons_self (value : Json) :
    without name ((some name, value) :: members) = without name members := by
  simp [without]

theorem without_cons_of_ne {text : Text} (ne : text ≠ some name) (value : Json) :
    without name ((text, value) :: members) = (text, value) :: without name members := by
  simp [without, ne]

theorem valuesOf_cons_self (value : Json) :
    valuesOf name ((some name, value) :: members) = value :: valuesOf name members := by
  simp [valuesOf]

theorem valuesOf_cons_of_ne {text : Text} (ne : text ≠ some name) (value : Json) :
    valuesOf name ((text, value) :: members) = valuesOf name members := by
  simp [valuesOf, ne]

/-- To leave out a name does not matter to the others. -/
theorem valuesOf_without (ne : other ≠ name) :
    valuesOf other (without name members) = valuesOf other members := by
  induction members with
  | nil => rfl
  | cons member members ih =>
    obtain ⟨text, value⟩ := member
    by_cases hname : text = some name
    · have hother : text ≠ some other := fun h => ne (Option.some.inj (h.symm.trans hname))
      subst hname
      rw [without_cons_self, valuesOf_cons_of_ne hother, ih]
    · rw [without_cons_of_ne hname]
      by_cases hother : text = some other
      · subst hother
        rw [valuesOf_cons_self, valuesOf_cons_self, ih]
      · rw [valuesOf_cons_of_ne hother, valuesOf_cons_of_ne hother, ih]

/-- A variant is given by nothing but its name. -/
theorem asVariant_eq_ok {α : Type} {variants : List (String × α)} {j : Json} {a : α} :
    j.asVariant variants = .ok a ↔
      ∃ name, j = .text name ∧
        variants.find? (fun variant => variant.1 == name) = some (name, a) := by
  constructor
  · intro h
    unfold asVariant at h
    split at h
    · rename_i name
      split at h
      · rename_i variant hfind
        obtain rfl : variant.2 = a := Except.ok.inj h
        have hname : variant.1 = name := by simpa using List.find?_some hfind
        exact ⟨name, rfl, by rw [hfind, ← hname]⟩
      · cases h
    · exact absurd h mismatch_ne_ok
  · rintro ⟨name, rfl, hfind⟩
    simp only [asVariant, text, hfind]
    rfl

end Json

/-! ## What is set aside -/

namespace Tagged

variable {α : Type} {union : Tagged α} {source : Source} {members : List (Json.Text × Json)}

/-- A member may stand in an object of the union: its name is a text, and it is the tag or may be
set aside. -/
def Admits (union : Tagged α) (source : Source) (member : Json.Text × Json) : Prop :=
  ∃ name, member.1 = some name ∧ (name ≠ union.tag → source.inner.accepts member.2 = true)

/-- The tag that the members give, when one may have been seen before them. -/
def Gives (union : Tagged α) (seen : Option α) (members : List (Json.Text × Json))
    (variant : α) : Prop :=
  match seen with
  | some tag => valuesOf union.tag members = [] ∧ variant = tag
  | none => ∃ j, valuesOf union.tag members = [j] ∧ j.asVariant union.variants = .ok variant

/-- A member that is not the tag is set aside, whether the tag has been seen or not. -/
theorem sift_other {seen : Option α} {aside : List (Json.Text × Json)} {name : String}
    (ne : name ≠ union.tag) (value : Json) :
    union.sift source seen aside ((some name, value) :: members) =
      if source.inner.accepts value then
        union.sift source seen ((some name, value) :: aside) members
      else .error .malformed := by
  cases seen <;> rw [sift, if_neg ne]

/-- The members are gone through when the union admits each of them and there is one tag. -/
theorem sift_eq_ok {seen : Option α} {aside content : List (Json.Text × Json)} {variant : α} :
    union.sift source seen aside members = .ok (variant, content) ↔
      (∀ member ∈ members, union.Admits source member) ∧ union.Gives seen members variant ∧
        content = aside.reverse ++ without union.tag members := by
  induction members generalizing seen aside with
  | nil => cases seen <;> simp [sift, Gives, valuesOf, without, eq_comm]
  | cons member members ih =>
    obtain ⟨text, value⟩ := member
    rw [List.forall_mem_cons]
    cases text with
    | none => simp [sift, Admits]
    | some name =>
      by_cases htag : name = union.tag
      · subst htag
        have hadmits : union.Admits source (some union.tag, value) :=
          ⟨_, rfl, fun ne => absurd rfl ne⟩
        rw [without_cons_self]
        cases seen with
        | some tag => simp [sift, Gives, valuesOf_cons_self]
        | none =>
          rw [sift, if_pos rfl]
          cases hvariant : value.asVariant union.variants with
          | error e => simp [Gives, valuesOf_cons_self, hvariant]
          | ok tag =>
            simp only [ih, hadmits, true_and, Gives, valuesOf_cons_self, List.cons.injEq]
            constructor
            · rintro ⟨hall, ⟨hnone, rfl⟩, hcontent⟩
              exact ⟨hall, ⟨value, ⟨rfl, hnone⟩, hvariant⟩, hcontent⟩
            · rintro ⟨hall, ⟨j, ⟨rfl, hnone⟩, hj⟩, hcontent⟩
              exact ⟨hall, ⟨hnone, Except.ok.inj (hj.symm.trans hvariant)⟩, hcontent⟩
      · have hne : some name ≠ some union.tag := fun h => htag (Option.some.inj h)
        have hadmits : union.Admits source (some name, value) ↔
            source.inner.accepts value = true := by
          simp [Admits, htag]
        have hgives : union.Gives seen ((some name, value) :: members) variant ↔
            union.Gives seen members variant := by
          simp only [Gives, valuesOf_cons_of_ne hne]
        rw [sift_other htag, without_cons_of_ne hne, hadmits, hgives]
        by_cases haccepts : source.inner.accepts value = true
        · simp [haccepts, ih]
        · simp [haccepts]

/-- An object is split into the variant of its one tag and its other members. -/
theorem split_object {variant : α} {content : Json} :
    union.split source (.object members) = .ok (variant, content) ↔
      (∀ member ∈ members, union.Admits source member) ∧
        (∃ j, valuesOf union.tag members = [j] ∧ j.asVariant union.variants = .ok variant) ∧
        content = .object (without union.tag members) := by
  simp only [split, bind_eq_ok]
  constructor
  · rintro ⟨⟨tag, rest⟩, hsift, hcontent⟩
    cases hcontent
    obtain ⟨hall, hgives, hrest⟩ := sift_eq_ok.mp hsift
    exact ⟨hall, hgives, congrArg Json.object hrest⟩
  · rintro ⟨hall, hgives, rfl⟩
    exact ⟨_, sift_eq_ok.mpr ⟨hall, hgives, rfl⟩, rfl⟩

end Tagged

/-! ## Members that a shape does not mind -/

namespace Shape

variable {shape : Shape} {source : Source} {members : List (Json.Text × Json)} {name : String}

/-- Members under a name that is no field may as well be left out. -/
theorem survey_without (unknown : shape.field? name = none)
    (intact : ∀ j ∈ valuesOf name members, j.intact = true) (seen : Fields) :
    shape.survey source seen (without name members) = shape.survey source seen members := by
  induction members generalizing seen with
  | nil => rfl
  | cons member members ih =>
    obtain ⟨text, value⟩ := member
    by_cases hname : text = some name
    · subst hname
      rw [valuesOf_cons_self, List.forall_mem_cons] at intact
      rw [without_cons_self, ih intact.2, survey, show shape.fields.find? _ = none from unknown]
      simp only [intact.1, if_true]
    · rw [valuesOf_cons_of_ne hname] at intact
      rw [without_cons_of_ne hname]
      cases text with
      | none => simp only [survey]
      | some other => simp only [survey, ih intact]

/-- The fields do not ask how their values come. -/
def Unasking (shape : Shape) : Prop :=
  ∀ field ∈ shape.fields, ∀ (source source' : Source) (j : Json),
    field.check source j = field.check source' j

theorem survey_unasking (unasking : shape.Unasking) (source source' : Source) (seen : Fields) :
    shape.survey source seen members = shape.survey source' seen members := by
  induction members generalizing seen with
  | nil => simp only [survey]
  | cons member members ih =>
    obtain ⟨text, value⟩ := member
    cases text with
    | none => simp only [survey]
    | some name =>
      cases hfield : shape.fields.find? fun field => field.name == name with
      | none => simp only [survey, hfield, ih]
      | some field =>
        have hmem : field ∈ shape.fields := List.mem_of_find?_eq_some hfield
        simp only [survey, hfield, ih, unasking field hmem source.inner source'.inner]

/-- All members of an object that has its fields have names. -/
theorem named_of_fieldsOf {fields : Fields}
    (has : shape.fieldsOf source (.object members) = .ok fields) :
    ∀ member ∈ members, ∃ name, member.1 = some name := by
  obtain ⟨hadmits, -, -⟩ := fieldsOf_object.mp has
  intro member hmember
  obtain ⟨name, hname, -⟩ := hadmits member hmember
  exact ⟨name, hname⟩

/-- The fields of an object are the same with its tag, as it comes, and without, set aside. -/
theorem fieldsOf_without (unasking : shape.Unasking) (unknown : shape.field? name = none)
    (intact : ∀ j ∈ valuesOf name members, j.intact = true) :
    shape.fieldsOf .buffered (.object (without name members)) =
      shape.fieldsOf source (.object members) := by
  simp only [fieldsOf]
  rw [survey_without unknown intact]
  exact survey_unasking unasking .buffered source []

end Shape

/-! ## Updates -/

variable {source : Source} {members : List (Json.Text × Json)}

namespace FullReplace

theorem unasking_shape : shape.Unasking := by
  simp only [Shape.Unasking, shape, List.forall_mem_cons]
  exact ⟨fun _ _ _ => rfl, fun _ _ _ => rfl, fun _ _ _ => rfl, fun _ _ _ => rfl, fun _ _ _ => rfl,
    List.forall_mem_nil _⟩

/-- The direct decoder takes no notice of the mode. -/
theorem decode_without_mode (intact : ∀ j ∈ valuesOf "mode" members, j.intact = true) :
    decode .buffered (.object (without "mode" members)) = decode source (.object members) := by
  have hfields := @Shape.fieldsOf_without shape source members "mode" unasking_shape (by rfl) intact
  rw [decode, decode, hfields]
  rfl

theorem named_of_decode {r : FullReplace} (decoded : decode source (.object members) = .ok r) :
    ∀ member ∈ members, ∃ name, member.1 = some name := by
  obtain ⟨fields, hfields, -⟩ := bind_eq_ok.mp decoded
  exact Shape.named_of_fieldsOf hfields

end FullReplace

namespace SparsePatch

theorem unasking_shape : shape.Unasking := by
  simp only [Shape.Unasking, shape, List.forall_mem_cons]
  exact ⟨fun _ _ _ => rfl, fun _ _ _ => rfl, fun _ _ _ => rfl, fun _ _ _ => rfl, fun _ _ _ => rfl,
    List.forall_mem_nil _⟩

/-- The direct decoder takes no notice of the mode. -/
theorem decode_without_mode (intact : ∀ j ∈ valuesOf "mode" members, j.intact = true) :
    decode .buffered (.object (without "mode" members)) = decode source (.object members) := by
  have hfields := @Shape.fieldsOf_without shape source members "mode" unasking_shape (by rfl) intact
  rw [decode, decode, hfields]
  rfl

theorem named_of_decode {p : SparsePatch} (decoded : decode source (.object members) = .ok p) :
    ∀ member ∈ members, ∃ name, member.1 = some name := by
  obtain ⟨fields, hfields, -⟩ := bind_eq_ok.mp decoded
  exact Shape.named_of_fieldsOf hfields

end SparsePatch

namespace RecordUpdate

variable {u : RecordUpdate}

/-- The two names of a mode. -/
theorem asVariant_eq_ok {j : Json} {mode : Mode} : j.asVariant tagged.variants = .ok mode ↔
    j = .text "replace" ∧ mode = .replace ∨ j = .text "patch" ∧ mode = .patch := by
  rw [Json.asVariant_eq_ok]
  constructor
  · rintro ⟨name, rfl, hfind⟩
    obtain ⟨rfl, rfl⟩ | ⟨rfl, rfl⟩ : name = "replace" ∧ mode = .replace ∨
        name = "patch" ∧ mode = .patch := by
      simpa [tagged] using List.mem_of_find?_eq_some hfind
    · exact .inl ⟨rfl, rfl⟩
    · exact .inr ⟨rfl, rfl⟩
  · rintro (⟨rfl, rfl⟩ | ⟨rfl, rfl⟩)
    · exact ⟨"replace", rfl, rfl⟩
    · exact ⟨"patch", rfl, rfl⟩

/-- An update is decoded from an object with one mode exactly as its form is decoded from the same
object, provided that the other members may be set aside. -/
theorem decode_object : decode source (.object members) = .ok u ↔
    (∀ member ∈ members, tagged.Admits source member) ∧
      ((valuesOf "mode" members = [.text "replace"] ∧
          ∃ r, u = .replace r ∧ FullReplace.decode source (.object members) = .ok r) ∨
        (valuesOf "mode" members = [.text "patch"] ∧
          ∃ p, u = .patch p ∧ SparsePatch.decode source (.object members) = .ok p)) := by
  have hintact {name : String} (h : valuesOf "mode" members = [.text name]) :
      ∀ j ∈ valuesOf "mode" members, j.intact = true := by
    intro j hj
    rw [h, List.mem_singleton] at hj
    simp [hj, text, intact]
  rw [decode, bind_eq_ok]
  constructor
  · rintro ⟨⟨mode, content⟩, hsplit, hdecode⟩
    obtain ⟨hadmits, ⟨j, hvalues, hvariant⟩, rfl⟩ := Tagged.split_object.mp hsplit
    refine ⟨hadmits, ?_⟩
    rcases asVariant_eq_ok.mp hvariant with ⟨rfl, rfl⟩ | ⟨rfl, rfl⟩
    · obtain ⟨r, hr, rfl⟩ := map_eq_ok.mp hdecode
      refine .inl ⟨hvalues, r, rfl, ?_⟩
      exact (FullReplace.decode_without_mode (hintact hvalues)).symm.trans hr
    · obtain ⟨p, hp, rfl⟩ := map_eq_ok.mp hdecode
      refine .inr ⟨hvalues, p, rfl, ?_⟩
      exact (SparsePatch.decode_without_mode (hintact hvalues)).symm.trans hp
  · rintro ⟨hadmits, ⟨hvalues, r, rfl, hr⟩ | ⟨hvalues, p, rfl, hp⟩⟩
    · have hsplit := Tagged.split_object.mpr
        ⟨hadmits, ⟨_, hvalues, asVariant_eq_ok.mpr (.inl ⟨rfl, rfl⟩)⟩, rfl⟩
      refine ⟨_, hsplit, map_eq_ok.mpr ⟨r, ?_, rfl⟩⟩
      exact (FullReplace.decode_without_mode (hintact hvalues)).trans hr
    · have hsplit := Tagged.split_object.mpr
        ⟨hadmits, ⟨_, hvalues, asVariant_eq_ok.mpr (.inr ⟨rfl, rfl⟩)⟩, rfl⟩
      refine ⟨_, hsplit, map_eq_ok.mpr ⟨p, ?_, rfl⟩⟩
      exact (SparsePatch.decode_without_mode (hintact hvalues)).trans hp

/-- A text in which one mode stands is decoded as an update exactly if it is decoded as the form
that the mode says, provided that the values may be stored. -/
theorem decodeText_of_mode {text : String}
    (root : (Document.read text).root = .object members)
    (storable : ∀ member ∈ members, member.2.storable (maxDepth - 1) = true) :
    (valuesOf "mode" members = [.text "replace"] → ∀ u, decodeText decode text = .ok u ↔
      ∃ r, u = .replace r ∧ decodeText FullReplace.decode text = .ok r) ∧
    (valuesOf "mode" members = [.text "patch"] → ∀ u, decodeText decode text = .ok u ↔
      ∃ p, u = .patch p ∧ decodeText SparsePatch.decode text = .ok p) := by
  have hadmits (named : ∀ member ∈ members, ∃ name, member.1 = some name) :
      ∀ member ∈ members, tagged.Admits (.streamed 0) member := by
    intro member hmember
    obtain ⟨name, hname⟩ := named member hmember
    exact ⟨name, hname, fun _ => storable member hmember⟩
  simp only [decodeText_eq_ok, root, decode_object]
  constructor
  · intro mode u
    constructor
    · rintro ⟨htrailing, -, ⟨-, r, rfl, hr⟩ | ⟨hother, -⟩⟩
      · exact ⟨r, rfl, htrailing, hr⟩
      · exact absurd (mode.symm.trans hother) (by simp [Json.text])
    · rintro ⟨r, rfl, htrailing, hr⟩
      exact ⟨htrailing, hadmits (FullReplace.named_of_decode hr), .inl ⟨mode, r, rfl, hr⟩⟩
  · intro mode u
    constructor
    · rintro ⟨htrailing, -, ⟨hother, -⟩ | ⟨-, p, rfl, hp⟩⟩
      · exact absurd (mode.symm.trans hother) (by simp [Json.text])
      · exact ⟨p, rfl, htrailing, hp⟩
    · rintro ⟨p, rfl, htrailing, hp⟩
      exact ⟨htrailing, hadmits (SparsePatch.named_of_decode hp), .inr ⟨mode, p, rfl, hp⟩⟩

/-- The text of an object with a member more in front. -/
theorem compress_record_cons (name value : String) (members : List (String × Json))
    (ne : members ≠ []) : ∃ rest, (record members).compress = "\x7b" ++ rest ∧
      (record ((name, .text value) :: members)).compress =
        "\x7b" ++ String.ofList (quote name) ++ ":" ++ String.ofList (quote value) ++ "," ++
          rest := by
  obtain ⟨member, members, rfl⟩ := List.exists_cons_of_ne_nil ne
  refine ⟨String.ofList (memberChars
    ((member :: members).map fun member => (some member.1, member.2))), ?_, ?_⟩
  · rw [compress, record, toChars, ← String.toList_inj]
    simp
  · rw [compress, record, toChars, List.map_cons, List.map_cons, memberChars_more, text, toChars,
      ← String.toList_inj]
    simp [textChars]

/-- The tagged and the direct decoder agree: a text of an object with one mode is decoded as an
update exactly if it is decoded as the form that the mode says, wherever in the object the mode
stands, provided that the values may be stored.  An update is written as its form is, with the mode
in front. -/
theorem tagged_iff_direct :
    (∀ (text : String) (members : List (Json.Text × Json)),
      (Document.read text).root = .object members →
      (∀ member ∈ members, member.2.storable (maxDepth - 1) = true) →
      (valuesOf "mode" members = [.text "replace"] → ∀ u, decodeText decode text = .ok u ↔
        ∃ r, u = .replace r ∧ decodeText FullReplace.decode text = .ok r) ∧
      (valuesOf "mode" members = [.text "patch"] → ∀ u, decodeText decode text = .ok u ↔
        ∃ p, u = .patch p ∧ decodeText SparsePatch.decode text = .ok p)) ∧
    (∀ r : FullReplace, ∃ members rest, r.toJson = .object members ∧
      (RecordUpdate.replace r).toJson = .object ((some "mode", .text "replace") :: members) ∧
      r.toJson.compress = "\x7b" ++ rest ∧
      (RecordUpdate.replace r).toJson.compress = "\x7b\"mode\":\"replace\"," ++ rest) ∧
    ∀ p : SparsePatch, ∃ members rest, p.toJson = .object members ∧
      (RecordUpdate.patch p).toJson = .object ((some "mode", .text "patch") :: members) ∧
      p.toJson.compress = "\x7b" ++ rest ∧
      (RecordUpdate.patch p).toJson.compress = "\x7b\"mode\":\"patch\"," ++ rest := by
  refine ⟨fun text members root storable => decodeText_of_mode root storable, fun r => ?_,
    fun p => ?_⟩
  · obtain ⟨rest, hdirect, htagged⟩ :=
      compress_record_cons "mode" "replace" r.members (by simp [FullReplace.members])
    exact ⟨_, rest, rfl, rfl, hdirect, htagged⟩
  · obtain ⟨rest, hdirect, htagged⟩ :=
      compress_record_cons "mode" "patch" p.members (by simp [SparsePatch.members])
    exact ⟨_, rest, rfl, rfl, hdirect, htagged⟩

/-- A replacement in whose object the mode comes third. -/
def modeThird (r : FullReplace) : List (String × Json) :=
  [("id", r.id.toJson), ("label", .text r.label), ("mode", .text "replace"),
    ("value", .int r.value.toInt), ("weight", .real r.weight), ("tags", textsToJson r.tags)]

/-- A patch in whose object the mode comes last. -/
def modeLast (p : SparsePatch) : List (String × Json) :=
  p.members ++ [("mode", .text "patch")]

/-- The mode in the third place and in the last place. -/
theorem modeThird_and_modeLast :
    let r : FullReplace := ⟨.ofNat 1, "a", 2, .ofRank false 0, ["b"]⟩
    let p : SparsePatch := { id := .ofNat 3, value := .present 4 }
    decodeText decode (record (modeThird r)).compress = .ok (.replace r) ∧
      decodeText decode (record (modeLast p)).compress = .ok (.patch p) := by
  intro r p
  obtain ⟨hdecode, -, -⟩ := tagged_iff_direct
  have hread {members : List (String × Json)} (fits : ∀ member ∈ members, member.2.Fits 126) :
      (Document.read (record members).compress).root = record members ∧
        ∀ member ∈ members.map fun member => (some member.1, member.2),
          member.2.storable (maxDepth - 1) = true := by
    rw [Document.read_compress (fits_record fits).writable]
    exact ⟨rfl, List.forall_mem_map.mpr fun member hmember => (fits member hmember).storable⟩
  constructor
  · have hfits : ∀ member ∈ modeThird r, member.2.Fits 126 := by
      simp only [modeThird, List.forall_mem_cons]
      exact ⟨Ident.fits_toJson _, fits_text _, fits_text _, fits_int64 _, fits_real rfl,
        fits_texts _, List.forall_mem_nil _⟩
    have hdirect : FullReplace.decode (.streamed 0) (record (modeThird r)) = .ok r := by
      rw [modeThird, record, ← FullReplace.decode_without_mode (by simp [valuesOf, text, intact])]
      exact FullReplace.decode_toJson rfl
    obtain ⟨hroot, hstorable⟩ := hread hfits
    exact ((hdecode _ _ hroot hstorable).1 rfl _).mpr
      ⟨r, rfl, decodeText_compress (fits_record hfits).writable hdirect⟩
  · have hfinite : ∀ weight ∈ p.weight.toOption, weight.isFinite = true := by
      simp [p, Patch.toOption]
    have hfits : ∀ member ∈ modeLast p, member.2.Fits 126 := by
      rw [modeLast, List.forall_mem_append, List.forall_mem_singleton]
      exact ⟨SparsePatch.fits_members hfinite, fits_text _⟩
    have hdirect : SparsePatch.decode (.streamed 0) (record (modeLast p)) = .ok p := by
      rw [modeLast, record, ← SparsePatch.decode_without_mode (by simp [valuesOf, text, intact, p,
        SparsePatch.members, Patch.toMember])]
      exact SparsePatch.decode_toJson hfinite
    obtain ⟨hroot, hstorable⟩ := hread hfits
    exact ((hdecode _ _ hroot hstorable).2 rfl _).mpr
      ⟨p, rfl, decodeText_compress (fits_record hfits).writable hdirect⟩

end RecordUpdate

end CacheAside
