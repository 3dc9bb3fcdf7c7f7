import CacheAside.Proofs.RoundTrip.Fields
import Mathlib.Data.List.Nodup

/-!
# What a decoder accepts

The other way round from reading back: which trees a decoder of named fields accepts, and with what
result.  An object passes the survey of a shape exactly when each of its members is one that the
shape admits and no field comes twice (`Shape.fieldsOf_object`); what is decoded then depends only
on the values under the names of the fields (`Shape.find?_kept`).
-/

namespace CacheAside

namespace Json

/-- The values under a name, in the order of the members. -/
def valuesOf (name : String) (members : List (Text × Json)) : List Json :=
  members.filterMap fun member => if member.1 = some name then some member.2 else none

theorem mem_valuesOf {name : String} {members : List (Text × Json)} {value : Json} :
    value ∈ valuesOf name members ↔ (some name, value) ∈ members := by
  simp only [valuesOf, List.mem_filterMap, Option.ite_none_right_eq_some, Option.some.injEq]
  constructor
  · rintro ⟨⟨_, _⟩, hmem, rfl, rfl⟩
    exact hmem
  · exact fun hmem => ⟨_, hmem, rfl, rfl⟩

/-- What is found in place of the value that was expected is an error in any case. -/
theorem mismatch_ne_ok {α : Type} {j : Json} {expected : String} {a : α} :
    j.mismatch expected ≠ .ok a := by
  cases h : j.found <;> simp [mismatch, h, bind, Except.bind, throw, throwThe, MonadExceptOf.throw]

/-- An integer out of range is refused as such. -/
theorem asInt64_of_far {n : Int} (far : ¬ (-halfLimit ≤ n ∧ n < halfLimit)) :
    (int n).asInt64 = .error (.outOfRange n "i64") := by
  rw [int, asInt64, if_neg far]

/-- A signed integer of 64 bits is decoded from nothing but itself. -/
theorem asInt64_eq_ok {j : Json} {n : Int64} : j.asInt64 = .ok n ↔ j = int n.toInt := by
  refine ⟨fun h => ?_, fun h => h ▸ asInt64_int n⟩
  unfold asInt64 at h
  split at h
  · rename_i m
    split at h
    · rename_i hrange
      obtain rfl := Except.ok.inj h
      have hhalf : halfLimit = 2 ^ 63 := rfl
      rw [int, Int64.toInt_ofInt_of_le (by omega) (by omega)]
    · cases h
  · exact absurd h mismatch_ne_ok

end Json

open Json

theorem Decoder.plain_iff {α : Type} {decode : Json → Except DecodeError α} {source : Source}
    {j : Json} {a : α} : Decoder.plain decode source j = .ok a ↔ decode j = .ok a :=
  Iff.rfl

/-- A text is decoded to what its tree is decoded to, if nothing follows the tree. -/
theorem decodeText_eq_ok {α : Type} {decode : Decoder α} {text : String} {a : α} :
    decodeText decode text = .ok a ↔
      (Document.read text).trailing = false ∧
        decode (.streamed 0) (Document.read text).root = .ok a := by
  simp only [decodeText, bind_eq_ok]
  cases (Document.read text).trailing with
  | true => simp [throw, throwThe, MonadExceptOf.throw]
  | false => simp [pure, Except.pure]

/-- A field reports what its decoder reports. -/
theorem Field.check_error {α : Type} {name : String} {decode : Decoder α} {omissible : Bool}
    {source : Source} {j : Json} {e : DecodeError} (h : decode source j = .error e) :
    (Field.of name decode omissible).check source j = .error e := by
  simp only [Field.of, h, Except.map]

namespace Shape

variable {shape : Shape} {source : Source} {members : List (Json.Text × Json)}

/-- The field of a name. -/
def field? (shape : Shape) (name : String) : Option Field :=
  shape.fields.find? fun field => field.name == name

/-- A member may stand in an object of the shape: its name is a text, and its value is right for the
field of that name, or there is no such field and the value keeps the rules of JSON. -/
def Admits (shape : Shape) (source : Source) (member : Json.Text × Json) : Prop :=
  ∃ name, member.1 = some name ∧
    match shape.field? name with
    | none => member.2.intact = true
    | some field => field.check source.inner member.2 = .ok ()

/-- The members that are fields of the shape. -/
def kept (shape : Shape) (members : List (Json.Text × Json)) : Fields :=
  members.filterMap fun member => member.1.bind fun name =>
    (shape.field? name).map fun _ => (name, member.2)

theorem mem_kept {entry : String × Json} : entry ∈ shape.kept members ↔
    (some entry.1, entry.2) ∈ members ∧ (shape.field? entry.1).isSome = true := by
  simp only [kept, List.mem_filterMap, Option.bind_eq_some_iff, Option.map_eq_some_iff,
    Option.isSome_iff_exists]
  constructor
  · rintro ⟨⟨_, value⟩, hmem, name, rfl, field, hfield, rfl⟩
    exact ⟨hmem, field, hfield⟩
  · rintro ⟨hmem, field, hfield⟩
    exact ⟨_, hmem, _, rfl, field, hfield, rfl⟩

/-- Members pass the survey exactly when the shape admits each of them and no field comes twice,
counting those that were seen before. -/
theorem survey_eq_ok {seen fields : Fields} : shape.survey source seen members = .ok fields ↔
    (∀ member ∈ members, shape.Admits source member) ∧
      ((shape.kept members).map Prod.fst).Nodup ∧
      (∀ entry ∈ shape.kept members, ∀ old ∈ seen, old.1 ≠ entry.1) ∧
      fields = seen.reverse ++ shape.kept members := by
  induction members generalizing seen with
  | nil => simp [survey, kept, eq_comm]
  | cons member members ih =>
    obtain ⟨text, value⟩ := member
    rw [List.forall_mem_cons]
    cases text with
    | none => simp [survey, Admits]
    | some name =>
      cases hfield : shape.field? name with
      | none =>
        have hkept : shape.kept ((some name, value) :: members) = shape.kept members := by
          simp [kept, hfield]
        have hadmits : shape.Admits source (some name, value) ↔ value.intact = true := by
          simp [Admits, hfield]
        rw [hkept, hadmits, survey, show shape.fields.find? _ = none from hfield]
        by_cases hintact : value.intact = true
        · simp only [hintact, if_true, ih, true_and]
        · simp [hintact]
      | some field =>
        have hkept : shape.kept ((some name, value) :: members) =
            (name, value) :: shape.kept members := by
          simp [kept, hfield]
        have hadmits : shape.Admits source (some name, value) ↔
            field.check source.inner value = .ok () := by
          simp [Admits, hfield]
        rw [hkept, hadmits, survey, show shape.fields.find? _ = some field from hfield]
        simp only [List.map_cons, List.nodup_cons, List.forall_mem_cons]
        by_cases hseen : seen.any (fun entry => entry.1 == name) = true
        · -- the field was seen before
          obtain ⟨old, hold, hname⟩ := List.any_eq_true.mp hseen
          simp only [hseen, if_true]
          exact iff_of_false (by simp) fun h => h.2.2.1.1 old hold (eq_of_beq hname)
        · have hnew : ∀ old ∈ seen, old.1 ≠ name := fun old hold heq =>
            hseen (List.any_eq_true.mpr ⟨old, hold, beq_iff_eq.mpr heq⟩)
          simp only [if_neg hseen]
          cases hcheck : field.check source.inner value with
          | error e => simp
          | ok u =>
            simp only [ih, List.forall_mem_cons, List.reverse_cons, List.append_assoc,
              List.singleton_append, true_and]
            rw [List.mem_map, not_exists]
            simp only [not_and]
            constructor
            · rintro ⟨hall, hnodup, hapart, heq⟩
              exact ⟨hall, ⟨fun entry h heq => (hapart entry h).1 heq.symm, hnodup⟩,
                ⟨hnew, fun entry h => (hapart entry h).2⟩, heq⟩
            · rintro ⟨hall, ⟨hother, hnodup⟩, ⟨-, hapart⟩, heq⟩
              exact ⟨hall, hnodup, fun entry h => ⟨fun heq => hother entry h heq.symm,
                hapart entry h⟩, heq⟩

/-- What is wrong with the first member is reported. -/
theorem fieldsOf_error {name : String} {field : Field} {value : Json} {e : DecodeError}
    (known : shape.field? name = some field) (wrong : field.check source.inner value = .error e) :
    shape.fieldsOf source (.object ((some name, value) :: members)) = .error e := by
  simp only [fieldsOf, survey, show shape.fields.find? _ = some field from known, List.any_nil,
    Bool.false_eq_true, if_false, wrong]

/-- The values of a field, as they are among the members. -/
theorem map_snd_filter_kept {name : String} (known : (shape.field? name).isSome = true) :
    ((shape.kept members).filter fun entry => entry.1 == name).map Prod.snd =
      valuesOf name members := by
  obtain ⟨field, hfield⟩ := Option.isSome_iff_exists.mp known
  induction members with
  | nil => rfl
  | cons member members ih =>
    obtain ⟨text, value⟩ := member
    cases text with
    | none => simpa [kept, valuesOf] using ih
    | some other =>
      by_cases hname : other = name
      · subst hname
        simpa [kept, valuesOf, hfield] using ih
      · cases hother : shape.field? other with
        | none => simpa [kept, valuesOf, hother, hname] using ih
        | some _ => simpa [kept, valuesOf, hother, hname] using ih

/-- A field is taken from the first value under its name. -/
theorem find?_kept {name : String} (known : (shape.field? name).isSome = true) :
    (shape.kept members).find? name = (valuesOf name members).head? := by
  rw [← map_snd_filter_kept known, Fields.find?, List.head?_map, List.head?_filter]

/-- No field comes twice exactly when each has at most one value. -/
theorem nodup_kept : ((shape.kept members).map Prod.fst).Nodup ↔
    ∀ name, (shape.field? name).isSome = true → (valuesOf name members).length ≤ 1 := by
  have hcount (name : String) : ((shape.kept members).map Prod.fst).count name =
      ((shape.kept members).filter fun entry => entry.1 == name).length := by
    rw [List.count, List.countP_map, List.countP_eq_length_filter]
    rfl
  rw [List.nodup_iff_count_le_one]
  refine forall_congr' fun name => ?_
  rw [hcount]
  constructor
  · intro h known
    rwa [← map_snd_filter_kept known, List.length_map]
  · intro h
    by_cases known : (shape.field? name).isSome = true
    · have hle := h known
      rwa [← map_snd_filter_kept known, List.length_map] at hle
    · -- a name that is no field is not among those that are kept
      have hnone : ((shape.kept members).filter fun entry => entry.1 == name) = [] := by
        refine List.filter_eq_nil_iff.mpr fun entry hentry heq => known ?_
        rw [← eq_of_beq heq]
        exact (mem_kept.mp hentry).2
      simp [hnone]

/-- An object has its fields exactly when the shape admits each member and no field comes twice. -/
theorem fieldsOf_object {fields : Fields} : shape.fieldsOf source (.object members) = .ok fields ↔
    (∀ member ∈ members, shape.Admits source member) ∧
      (∀ name, (shape.field? name).isSome = true → (valuesOf name members).length ≤ 1) ∧
      fields = shape.kept members := by
  rw [fieldsOf, survey_eq_ok, nodup_kept]
  simp

section Taking

variable {α : Type} {decode : Decoder α} {a : α} {name : String}

/-- A field that has to be there is taken from the one value under its name. -/
theorem required_kept_eq_ok (known : (shape.field? name).isSome = true)
    (single : (valuesOf name members).length ≤ 1) :
    (shape.kept members).required source name decode = .ok a ↔
      ∃ j, valuesOf name members = [j] ∧ decode source.inner j = .ok a := by
  rw [Fields.required, find?_kept known]
  rcases hvalues : valuesOf name members with _ | ⟨j, _ | ⟨_, _⟩⟩
  · simp
  · simp
  · rw [hvalues] at single
    simp at single

/-- A field that may be missing is taken from the one value under its name, if there is one. -/
theorem optional_kept_eq_ok (known : (shape.field? name).isSome = true)
    (single : (valuesOf name members).length ≤ 1) (default : α) :
    (shape.kept members).optional source name default decode = .ok a ↔
      (∃ j, valuesOf name members = [j] ∧ decode source.inner j = .ok a) ∨
        valuesOf name members = [] ∧ a = default := by
  rw [Fields.optional, find?_kept known]
  rcases hvalues : valuesOf name members with _ | ⟨j, _ | ⟨_, _⟩⟩
  · simp [eq_comm]
  · simp
  · rw [hvalues] at single
    simp at single

end Taking

/-- An array stands for an object when each item is right for the field in its place, and the fields
without an item may be missing. -/
theorem align_eq_ok {index : Nat} {fields : List Field} {items : List Json} {found : Fields} :
    shape.align source index fields items = .ok found ↔
      items.length ≤ fields.length ∧
        (∀ place ∈ fields.zip items, place.1.check source.inner place.2 = .ok ()) ∧
        (∀ field ∈ fields.drop items.length, field.omissible = true) ∧
        found = (fields.zip items).map fun place => (place.1.name, place.2) := by
  induction fields generalizing index items found with
  | nil =>
    rw [align]
    cases items with
    | nil => simp
    | cons item items => simp
  | cons field fields ih =>
    cases items with
    | nil =>
      cases homissible : field.omissible with
      | false => simp [align, homissible]
      | true => simp [align, homissible, ih]
    | cons item items =>
      rw [align, List.zip_cons_cons, List.forall_mem_cons]
      cases hcheck : field.check source.inner item with
      | error e => simp
      | ok _ =>
        simp only [List.length_cons, Nat.add_le_add_iff_right, List.drop_succ_cons, true_and,
          List.map_cons]
        simp only [bind_eq_ok, ih]
        constructor
        · rintro ⟨rest, ⟨hlength, hchecks, homissible, rfl⟩, hfound⟩
          exact ⟨hlength, hchecks, homissible, (Except.ok.inj hfound).symm⟩
        · rintro ⟨hlength, hchecks, homissible, rfl⟩
          exact ⟨_, ⟨hlength, hchecks, homissible, rfl⟩, rfl⟩

end Shape

end CacheAside
