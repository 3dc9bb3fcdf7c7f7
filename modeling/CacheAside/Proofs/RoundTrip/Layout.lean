import CacheAside.Proofs.RoundTrip.Tags
import Mathlib.Data.List.Forall2
import Mathlib.Data.List.Perm.Basic
import Mathlib.Logic.Relation

/-!
# Objects that are written anyhow

A layout says which names the members of an object have, and which of the members are such objects
themselves.  An object may be rearranged in many ways (`Layout.Step`): its members in another order,
with others added whose names nobody knows, and the same inside.  A decoder that goes through the
fields of a shape, or through a tagged union of such objects, gives what it gave
(`Shape.indifferent`, `Tagged.indifferent`); and it gives nothing if a known name comes twice
(`Layout.Repeats`).
-/

namespace CacheAside

open Json

/-- How the objects of a type are laid out: the names of the members, each with the layout of its
value if that is such an object too. -/
inductive Layout where
  | fields (names : List (String × Option Layout))
  /-- A union in which the value of the tag says which other members there are. -/
  | tagged (tag : String) (variants : List (String × List (String × Option Layout)))

namespace Layout

/-- Members of which none is such an object. -/
def plain (names : List String) : List (String × Option Layout) :=
  names.map fun name => (name, none)

/-- The members that go with a tag. -/
def variant (variants : List (String × List (String × Option Layout))) (tag : Json) :
    List (String × Option Layout) :=
  match tag with
  | .string (some name) =>
    ((variants.find? fun variant => variant.1 == name).map Prod.snd).getD []
  | _ => []

/-- The names that are known in an object with these members. -/
def known (layout : Layout) (members : List (Json.Text × Json)) : List (String × Option Layout) :=
  match layout with
  | .fields names => names
  | .tagged tag variants =>
    (tag, none) :: ((valuesOf tag members).head?.map (variant variants)).getD []

/-- What the places of an array are for that stands for an object. -/
def places (layout : Layout) (items : List Json) : List (Option Layout) :=
  match layout with
  | .fields names => names.map Prod.snd
  | .tagged _ variants => none :: ((items.head?.map (variant variants)).getD []).map Prod.snd

/-- One change to how a value is written, inside so many containers. -/
inductive Step : Layout → Nat → Json → Json → Prop where
  /-- The members stand in another order. -/
  | order {layout : Layout} {depth : Nat} {members members' : List (Json.Text × Json)}
      (perm : members.Perm members') : Step layout depth (.object members) (.object members')
  /-- A member is added whose name is not known, and whose value may be stored. -/
  | more {layout : Layout} {depth : Nat} {members : List (Json.Text × Json)} {name : String}
      {value : Json} (unknown : ∀ inner, (name, inner) ∉ layout.known members)
      (storable : value.storable (maxDepth - (depth + 1)) = true) :
      Step layout depth (.object members) (.object ((some name, value) :: members))
  /-- The value of a member is written in another way. -/
  | member {layout inner : Layout} {depth : Nat} {members : List (Json.Text × Json)} {name : String}
      {value value' : Json}
      (known : (name, some inner) ∈ layout.known ((some name, value) :: members))
      (step : Step inner (depth + 1) value value') :
      Step layout depth (.object ((some name, value) :: members))
        (.object ((some name, value') :: members))
  /-- So is an item of an array that stands for an object. -/
  | item {layout inner : Layout} {depth : Nat} {items : List Json} {i : Nat} {value value' : Json}
      (place : (layout.places items)[i]? = some (some inner)) (given : items[i]? = some value)
      (step : Step inner (depth + 1) value value') :
      Step layout depth (.array items) (.array (items.set i value'))

/-- A known name comes twice in an object, here or further inside. -/
inductive Repeats : Layout → Json → Prop where
  | here {layout : Layout} {members : List (Json.Text × Json)} {name : String}
      {inner : Option Layout} (known : (name, inner) ∈ layout.known members)
      (twice : 2 ≤ (valuesOf name members).length) : Repeats layout (.object members)
  | member {layout inner : Layout} {members : List (Json.Text × Json)} {name : String}
      {value : Json} (known : (name, some inner) ∈ layout.known members)
      (given : (some name, value) ∈ members) (inside : Repeats inner value) :
      Repeats layout (.object members)
  | item {layout inner : Layout} {items : List Json} {i : Nat} {value : Json}
      (place : (layout.places items)[i]? = some (some inner)) (given : items[i]? = some value)
      (inside : Repeats inner value) : Repeats layout (.array items)

/-- The decoder gives what it gave after one change, and nothing if a known name comes twice. -/
structure Indifferent {α : Type} (layout : Layout) (depth : Nat)
    (read : Json → Except DecodeError α) : Prop where
  keeps : ∀ {j j' : Json} {a : α}, layout.Step depth j j' → read j = .ok a → read j' = .ok a
  once : ∀ {j : Json} {a : α}, layout.Repeats j → read j ≠ .ok a

variable {α β : Type} {layout : Layout} {depth : Nat} {read : Json → Except DecodeError α}

theorem Indifferent.map (h : layout.Indifferent depth read) (f : α → β) :
    layout.Indifferent depth fun j => f <$> read j := by
  refine ⟨fun step decoded => ?_, fun repeats decoded => ?_⟩
  · obtain ⟨a, ha, rfl⟩ := map_eq_ok.mp decoded
    exact map_eq_ok.mpr ⟨a, h.keeps step ha, rfl⟩
  · obtain ⟨a, ha, rfl⟩ := map_eq_ok.mp decoded
    exact h.once repeats ha

/-- Many changes are no different from one. -/
theorem Indifferent.keeps_all (h : layout.Indifferent depth read) {j j' : Json} {a : α}
    (steps : Relation.ReflTransGen (layout.Step depth) j j') (decoded : read j = .ok a) :
    read j' = .ok a := by
  induction steps with
  | refl => exact decoded
  | tail _ step ih => exact h.keeps step ih

/-! ## What is rearranged may still be stored -/

theorem storableMembers_iff {members : List (Json.Text × Json)} :
    storableMembers depth members = true ↔
      ∀ member ∈ members, member.1.isSome = true ∧ member.2.storable depth = true := by
  induction members with
  | nil => simp [storableMembers]
  | cons member members ih =>
    obtain ⟨name, value⟩ := member
    simp [storableMembers, ih, and_assoc]

theorem storableItems_iff {items : List Json} :
    storableItems depth items = true ↔ ∀ item ∈ items, item.storable depth = true := by
  induction items with
  | nil => simp [storableItems]
  | cons item items ih => simp [storableItems, ih]

theorem Step.storable {j j' : Json} (step : layout.Step depth j j')
    (h : j.storable (maxDepth - depth) = true) : j'.storable (maxDepth - depth) = true := by
  induction step with
  | order perm =>
    simp only [Json.storable, Bool.and_eq_true, storableMembers_iff] at h ⊢
    exact ⟨h.1, fun member hmember => h.2 member (perm.mem_iff.mpr hmember)⟩
  | @more _ depth members name value _ storable =>
    simp only [Json.storable, Bool.and_eq_true, storableMembers_iff, Nat.sub_sub] at h ⊢
    refine ⟨h.1, List.forall_mem_cons.mpr ⟨⟨rfl, storable⟩, h.2⟩⟩
  | @member _ _ depth members name value value' _ _ ih =>
    simp only [Json.storable, Bool.and_eq_true, storableMembers_iff, Nat.sub_sub,
      List.forall_mem_cons] at h ⊢
    exact ⟨h.1, ⟨rfl, ih h.2.1.2⟩, h.2.2⟩
  | @item _ _ depth items i value value' _ given _ ih =>
    simp only [Json.storable, Bool.and_eq_true, storableItems_iff, Nat.sub_sub] at h ⊢
    refine ⟨h.1, fun other hother => ?_⟩
    rcases List.mem_or_eq_of_mem_set hother with hold | rfl
    · exact h.2 other hold
    · exact ih (h.2 value (List.mem_of_getElem? given))

mutual

/-- What may be stored keeps the rules of JSON. -/
theorem intact_of_storable : (j : Json) → (depth : Nat) → j.storable depth = true →
    j.intact = true
  | .null, _, _ => by simp [intact]
  | .boolean _, _, _ => by simp [intact]
  | .number _, _, _ => by simp [intact]
  | .string _, _, _ => by simp [intact]
  | .array items, depth, h => by
    simp only [Json.storable, Bool.and_eq_true] at h
    simpa [intact] using intactItems_of_storable items _ h.2
  | .object members, depth, h => by
    simp only [Json.storable, Bool.and_eq_true] at h
    simpa [intact] using intactMembers_of_storable members _ h.2
  | .broken, _, h => by simp [Json.storable] at h

theorem intactItems_of_storable : (items : List Json) → (depth : Nat) →
    storableItems depth items = true → intactItems items = true
  | [], _, _ => by simp [intactItems]
  | item :: items, depth, h => by
    simp only [storableItems, Bool.and_eq_true] at h
    simp [intactItems, intact_of_storable item depth h.1, intactItems_of_storable items depth h.2]

theorem intactMembers_of_storable : (members : List (Json.Text × Json)) → (depth : Nat) →
    storableMembers depth members = true → intactMembers members = true
  | [], _, _ => by simp [intactMembers]
  | (name, value) :: members, depth, h => by
    simp only [storableMembers, Bool.and_eq_true] at h
    simp [intactMembers, intact_of_storable value depth h.1.2,
      intactMembers_of_storable members depth h.2]

end

/-! ## Objects with named fields -/

/-- Under each name stands the same value, or one that is written in another way. -/
def Agrees (names : List (String × Option Layout)) (depth : Nat) (fields fields' : Fields) : Prop :=
  ∀ name, fields.find? name = fields'.find? name ∨
    ∃ inner value value', (name, some inner) ∈ names ∧ Step inner depth value value' ∧
      fields.find? name = some value ∧ fields'.find? name = some value'

section Taking

variable {names : List (String × Option Layout)} {fields fields' : Fields} {source : Source}
  {name : String} {decode : Decoder α} {a : α}

theorem Agrees.required (agrees : Agrees names depth fields fields')
    (nested : ∀ inner, (name, some inner) ∈ names →
      inner.Indifferent depth (decode source.inner))
    (given : fields.required source name decode = .ok a) :
    fields'.required source name decode = .ok a := by
  rcases agrees name with same | ⟨inner, value, value', hmem, step, hfind, hfind'⟩
  · rwa [Fields.required, ← same]
  · rw [Fields.required, hfind] at given
    rw [Fields.required, hfind']
    exact (nested inner hmem).keeps step given

theorem Agrees.optional {default : α} (agrees : Agrees names depth fields fields')
    (nested : ∀ inner, (name, some inner) ∈ names →
      inner.Indifferent depth (decode source.inner))
    (given : fields.optional source name default decode = .ok a) :
    fields'.optional source name default decode = .ok a := by
  rcases agrees name with same | ⟨inner, value, value', hmem, step, hfind, hfind'⟩
  · rwa [Fields.optional, ← same]
  · rw [Fields.optional, hfind] at given
    rw [Fields.optional, hfind']
    exact (nested inner hmem).keeps step given

end Taking

end Layout

namespace Shape

variable {α : Type} {shape : Shape} {names : List (String × Option Layout)} {source : Source}
  {depth : Nat} {members : List (Json.Text × Json)} {name : String}

theorem field?_isSome_iff (same : shape.fields.map Field.name = names.map Prod.fst) :
    (shape.field? name).isSome = true ↔ ∃ inner, (name, inner) ∈ names := by
  have hmem : name ∈ names.map Prod.fst ↔ ∃ inner, (name, inner) ∈ names := by simp
  rw [← hmem, ← same, field?, List.find?_isSome, List.mem_map]
  simp only [beq_iff_eq]

/-- The field in whose place an item stands. -/
theorem field_of_place (same : shape.fields.map Field.name = names.map Prod.fst) {i : Nat}
    {inner : Layout} (place : (names.map Prod.snd)[i]? = some (some inner)) :
    ∃ field, shape.fields[i]? = some field ∧ (field.name, some inner) ∈ names := by
  rw [List.getElem?_map] at place
  obtain ⟨⟨name, _⟩, hname, rfl⟩ := Option.map_eq_some_iff.mp place
  have hfields := congrArg (·[i]?) same
  simp only [List.getElem?_map, hname, Option.map_some] at hfields
  obtain ⟨field, hfield, rfl⟩ := Option.map_eq_some_iff.mp hfields
  exact ⟨field, hfield, List.mem_of_getElem? hname⟩

theorem kept_cons_unknown (unknown : shape.field? name = none) (value : Json) :
    shape.kept ((some name, value) :: members) = shape.kept members := by
  simp [kept, unknown]

theorem find?_kept_unknown (unknown : shape.field? name = none) :
    (shape.kept members).find? name = none := by
  rw [Fields.find?, Option.map_eq_none_iff, List.find?_eq_none]
  intro entry hentry heq
  have hknown := (mem_kept.mp hentry).2
  rw [eq_of_beq heq, unknown] at hknown
  cases hknown

/-- What an array gives under a name changes with one item at most. -/
theorem find?_zip_set (fields : List Field) (items : List Json) (i : Nat) (value' : Json) :
    Fields.find? ((fields.zip (items.set i value')).map fun place => (place.1.name, place.2)) name =
      Fields.find? ((fields.zip items).map fun place => (place.1.name, place.2)) name ∨
    ∃ field value, fields[i]? = some field ∧ items[i]? = some value ∧ field.name = name ∧
      Fields.find? ((fields.zip items).map fun place => (place.1.name, place.2)) name =
        some value ∧
      Fields.find? ((fields.zip (items.set i value')).map fun place => (place.1.name, place.2))
        name = some value' := by
  induction fields generalizing items i with
  | nil => exact .inl rfl
  | cons field fields ih =>
    cases items with
    | nil => exact .inl rfl
    | cons item items =>
      cases i with
      | zero =>
        simp only [List.set_cons_zero, List.zip_cons_cons, List.map_cons, Fields.find?_cons]
        by_cases hname : field.name = name
        · exact .inr ⟨field, item, rfl, rfl, hname, if_pos hname, if_pos hname⟩
        · exact .inl (by rw [if_neg hname, if_neg hname])
      | succ i =>
        simp only [List.set_cons_succ, List.zip_cons_cons, List.map_cons, Fields.find?_cons]
        by_cases hname : field.name = name
        · exact .inl (by rw [if_pos hname, if_pos hname])
        · rw [if_neg hname, if_neg hname]
          exact ih items i

section Steps

variable (same : shape.fields.map Field.name = names.map Prod.fst)
  (nested : ∀ field ∈ shape.fields, ∀ inner, (field.name, some inner) ∈ names →
    inner.Indifferent (depth + 1) (field.check source.inner))

/-- The order of the members makes no difference, since a field has one value at most. -/
theorem fieldsOf_perm {members' : List (Json.Text × Json)} {fields : Fields}
    (perm : members.Perm members') (has : shape.fieldsOf source (.object members) = .ok fields) :
    ∃ fields', shape.fieldsOf source (.object members') = .ok fields' ∧
      ∀ name, fields.find? name = fields'.find? name := by
  obtain ⟨hadmits, hsingle, rfl⟩ := fieldsOf_object.mp has
  have hvalues (name : String) : (valuesOf name members).Perm (valuesOf name members') :=
    perm.filterMap _
  have hsame (name : String) (known : (shape.field? name).isSome = true) :
      valuesOf name members' = valuesOf name members := by
    have hle := hsingle name known
    have hperm := hvalues name
    rcases hlist : valuesOf name members with _ | ⟨value, _ | ⟨_, _⟩⟩
    · rw [hlist] at hperm
      exact List.nil_perm.mp hperm
    · rw [hlist] at hperm
      exact (List.singleton_perm.mp hperm).symm
    · rw [hlist] at hle
      simp at hle
  refine ⟨_, fieldsOf_object.mpr ⟨fun member hmember => hadmits member (perm.mem_iff.mpr hmember),
    fun name known => ?_, rfl⟩, fun name => ?_⟩
  · rw [hsame name known]
    exact hsingle name known
  · cases hfield : shape.field? name with
    | none => rw [find?_kept_unknown hfield, find?_kept_unknown hfield]
    | some field =>
      have known : (shape.field? name).isSome = true := by
        rw [hfield]
        rfl
      rw [find?_kept known, find?_kept known, hsame name known]

/-- A member that nobody knows is skipped. -/
theorem fieldsOf_cons_unknown {fields : Fields} {value : Json} (unknown : shape.field? name = none)
    (intact : value.intact = true) (has : shape.fieldsOf source (.object members) = .ok fields) :
    shape.fieldsOf source (.object ((some name, value) :: members)) = .ok fields := by
  obtain ⟨hadmits, hsingle, rfl⟩ := fieldsOf_object.mp has
  refine fieldsOf_object.mpr ⟨List.forall_mem_cons.mpr ⟨⟨name, rfl, ?_⟩, hadmits⟩,
    fun other known => ?_, (kept_cons_unknown unknown value).symm⟩
  · rw [unknown]
    exact intact
  · have hne : some name ≠ some other := by
      rintro ⟨⟩
      rw [unknown] at known
      cases known
    rw [valuesOf_cons_of_ne hne]
    exact hsingle other known

/-- A value may be written in any way that its field takes as well. -/
theorem fieldsOf_cons_known {fields : Fields} {field : Field} {value value' : Json}
    (known : shape.field? name = some field)
    (takes : field.check source.inner value = .ok () → field.check source.inner value' = .ok ())
    (has : shape.fieldsOf source (.object ((some name, value) :: members)) = .ok fields) :
    ∃ fields', shape.fieldsOf source (.object ((some name, value') :: members)) = .ok fields' ∧
      fields.find? name = some value ∧ fields'.find? name = some value' ∧
      ∀ other, other ≠ name → fields.find? other = fields'.find? other := by
  obtain ⟨hadmits, hsingle, rfl⟩ := fieldsOf_object.mp has
  obtain ⟨hfirst, hrest⟩ := List.forall_mem_cons.mp hadmits
  have hkept (value : Json) :
      shape.kept ((some name, value) :: members) = (name, value) :: shape.kept members := by
    simp [kept, known]
  refine ⟨_, fieldsOf_object.mpr ⟨List.forall_mem_cons.mpr ⟨⟨name, rfl, ?_⟩, hrest⟩,
    fun other hother => ?_, rfl⟩, ?_, ?_, fun other ne => ?_⟩
  · obtain ⟨_, hname, hcheck⟩ := hfirst
    obtain rfl := Option.some.inj hname
    rw [known] at hcheck ⊢
    exact takes hcheck
  · have hle := hsingle other hother
    by_cases hname : some name = some other
    · obtain rfl := Option.some.inj hname
      rw [valuesOf_cons_self, List.length_cons] at hle ⊢
      exact hle
    · rw [valuesOf_cons_of_ne hname] at hle ⊢
      exact hle
  · rw [hkept, Fields.find?_cons, if_pos rfl]
  · rw [hkept, Fields.find?_cons, if_pos rfl]
  · rw [hkept, hkept, Fields.find?_cons, Fields.find?_cons, if_neg ne.symm, if_neg ne.symm]

/-- So may an item of an array. -/
theorem align_set {fields : Fields} {field : Field} {items : List Json} {i : Nat}
    {value value' : Json} (place : shape.fields[i]? = some field) (given : items[i]? = some value)
    (takes : field.check source.inner value = .ok () → field.check source.inner value' = .ok ())
    (has : shape.fieldsOf source (.array items) = .ok fields) :
    ∃ fields', shape.fieldsOf source (.array (items.set i value')) = .ok fields' ∧
      ∀ name, fields.find? name = fields'.find? name ∨
        field.name = name ∧ fields.find? name = some value ∧ fields'.find? name = some value' := by
  obtain ⟨hlength, hchecks, homissible, rfl⟩ := align_eq_ok.mp has
  refine ⟨_, align_eq_ok.mpr ⟨?_, fun entry hentry => ?_, ?_, rfl⟩, fun name => ?_⟩
  · rw [List.length_set]
    exact hlength
  · obtain ⟨k, hk⟩ := List.mem_iff_getElem?.mp hentry
    obtain ⟨hfield, hitem⟩ := List.getElem?_zip_eq_some.mp hk
    have hold {value : Json} (hvalue : items[k]? = some value) :
        entry.1.check source.inner value = .ok () :=
      hchecks (entry.1, value)
        (List.mem_iff_getElem?.mpr ⟨k, List.getElem?_zip_eq_some.mpr ⟨hfield, hvalue⟩⟩)
    rw [List.getElem?_set] at hitem
    split at hitem
    · rename_i hik
      subst hik
      obtain rfl : field = entry.1 := Option.some.inj (place.symm.trans hfield)
      have hlt : i < items.length := (List.getElem?_eq_some_iff.mp given).1
      rw [if_pos hlt] at hitem
      rw [← Option.some.inj hitem]
      exact takes (hold given)
    · exact hold hitem
  · rw [List.length_set]
    exact homissible
  · rcases find?_zip_set shape.fields items i value' with
      hsame | ⟨f, v, hf, hv, hname, hfind, hfind'⟩
    · exact .inl hsame.symm
    · obtain rfl : field = f := Option.some.inj (place.symm.trans hf)
      obtain rfl : value = v := Option.some.inj (given.symm.trans hv)
      exact .inr ⟨hname, hfind, hfind'⟩

include same nested

/-- Whatever is rearranged, the fields are there and agree. -/
theorem fieldsOf_step {j j' : Json} {fields : Fields} (step : (Layout.fields names).Step depth j j')
    (has : shape.fieldsOf source j = .ok fields) :
    ∃ fields', shape.fieldsOf source j' = .ok fields' ∧
      Layout.Agrees names (depth + 1) fields fields' := by
  cases step with
  | order perm =>
    obtain ⟨fields', hhas, hsame⟩ := fieldsOf_perm perm has
    exact ⟨fields', hhas, fun name => .inl (hsame name)⟩
  | @more _ _ members name value unknown storable =>
    have hfield : shape.field? name = none := by
      rw [← Option.not_isSome_iff_eq_none, field?_isSome_iff same]
      exact fun ⟨inner, hmem⟩ => unknown inner hmem
    have hintact := Layout.intact_of_storable value _ storable
    exact ⟨fields, fieldsOf_cons_unknown hfield hintact has, fun name => .inl rfl⟩
  | @member _ inner _ members name value value' known step =>
    obtain ⟨field, hfield⟩ :=
      Option.isSome_iff_exists.mp ((field?_isSome_iff same).mpr ⟨some inner, known⟩)
    have hmem := List.mem_of_find?_eq_some hfield
    have hname : field.name = name := by simpa using List.find?_some hfield
    obtain ⟨fields', hhas, hfind, hfind', hother⟩ := fieldsOf_cons_known hfield
      ((nested field hmem inner (hname ▸ known)).keeps step) has
    refine ⟨fields', hhas, fun other => ?_⟩
    by_cases heq : other = name
    · subst heq
      exact .inr ⟨inner, value, value', known, step, hfind, hfind'⟩
    · exact .inl (hother other heq)
  | @item _ inner _ items i value value' place given step =>
    obtain ⟨field, hfield, hmem⟩ := field_of_place same place
    have hnested := nested field (List.mem_of_getElem? hfield) inner hmem
    obtain ⟨fields', hhas, hfind⟩ := align_set hfield given (hnested.keeps step) has
    refine ⟨fields', hhas, fun name => ?_⟩
    rcases hfind name with hsame | ⟨rfl, hold, hnew⟩
    · exact .inl hsame
    · exact .inr ⟨inner, value, value', hmem, step, hold, hnew⟩

/-- No known name comes twice where there are fields. -/
theorem fieldsOf_ne_of_repeats {j : Json} {fields : Fields}
    (repeats : (Layout.fields names).Repeats j) : shape.fieldsOf source j ≠ .ok fields := by
  intro has
  cases repeats with
  | here known twice =>
    obtain ⟨-, hsingle, -⟩ := fieldsOf_object.mp has
    have hle := hsingle _ ((field?_isSome_iff same).mpr ⟨_, known⟩)
    omega
  | @member _ inner members name value known given inside =>
    obtain ⟨hadmits, -, -⟩ := fieldsOf_object.mp has
    obtain ⟨_, hname, hcheck⟩ := hadmits _ given
    obtain rfl := Option.some.inj hname
    obtain ⟨field, hfield⟩ :=
      Option.isSome_iff_exists.mp ((field?_isSome_iff same).mpr ⟨some inner, known⟩)
    have hfieldName : field.name = name := by simpa using List.find?_some hfield
    rw [hfield] at hcheck
    exact (nested field (List.mem_of_find?_eq_some hfield) inner (hfieldName ▸ known)).once inside
      hcheck
  | @item _ inner items i value place given inside =>
    obtain ⟨field, hfield, hmem⟩ := field_of_place same place
    obtain ⟨-, hchecks, -, -⟩ := align_eq_ok.mp has
    have hcheck := hchecks (field, value)
      (List.mem_iff_getElem?.mpr ⟨i, List.getElem?_zip_eq_some.mpr ⟨hfield, given⟩⟩)
    exact (nested field (List.mem_of_getElem? hfield) inner hmem).once inside hcheck

/-- A decoder that takes what it needs by the names of the fields is indifferent. -/
theorem indifferent {read : Json → Except DecodeError α} {take : Fields → Except DecodeError α}
    (reads : ∀ j, read j = shape.fieldsOf source j >>= take)
    (takes : ∀ {fields fields' : Fields} {a : α}, Layout.Agrees names (depth + 1) fields fields' →
      take fields = .ok a → take fields' = .ok a) :
    (Layout.fields names).Indifferent depth read := by
  refine ⟨fun step decoded => ?_, fun repeats decoded => ?_⟩
  · rw [reads] at decoded ⊢
    obtain ⟨fields, hhas, htake⟩ := bind_eq_ok.mp decoded
    obtain ⟨fields', hhas', hagrees⟩ := fieldsOf_step same nested step hhas
    exact bind_eq_ok.mpr ⟨fields', hhas', takes hagrees htake⟩
  · rw [reads] at decoded
    obtain ⟨fields, hhas, -⟩ := bind_eq_ok.mp decoded
    exact fieldsOf_ne_of_repeats same nested repeats hhas

end Steps

/-- So is one whose fields are no such objects themselves. -/
theorem indifferent_plain {names : List String} (same : shape.fields.map Field.name = names)
    {read : Json → Except DecodeError α} {take : Fields → Except DecodeError α}
    (reads : ∀ j, read j = shape.fieldsOf source j >>= take)
    (takes : ∀ fields fields' : Fields, (∀ name, fields.find? name = fields'.find? name) →
      take fields = take fields') :
    (Layout.fields (Layout.plain names)).Indifferent depth read := by
  have hplain (name : String) (inner : Layout) : (name, some inner) ∉ Layout.plain names := by
    simp [Layout.plain]
  refine indifferent (by rw [same, Layout.plain, List.map_map]; exact (List.map_id _).symm)
    (fun field _ inner hmem => absurd hmem (hplain _ _)) reads fun agrees htake => ?_
  rw [← htake]
  refine (takes _ _ fun name => ?_).symm
  rcases agrees name with hsame | ⟨inner, _, _, hmem, -⟩
  · exact hsame
  · exact absurd hmem (hplain _ _)

end Shape

/-! ## Tagged unions -/

namespace Source

variable {source : Source} {depth : Nat}

/-- If the value is read from a text, it stands inside so many containers. -/
def At (source : Source) (depth : Nat) : Prop :=
  ∀ outer, source = .streamed outer → outer = depth

theorem At.inner (at_ : source.At depth) : source.inner.At (depth + 1) := by
  intro outer h
  cases source with
  | streamed d =>
    cases h
    rw [at_ d rfl]
  | buffered => cases h
  | given => cases h

/-- What may be stored is set aside. -/
theorem At.accepts (at_ : source.At depth) {j : Json}
    (storable : j.storable (maxDepth - depth) = true) : source.accepts j = true := by
  cases source with
  | streamed d =>
    rw [at_ d rfl]
    exact storable
  | buffered => rfl
  | given => rfl

/-- So is what it is rearranged to. -/
theorem At.accepts_step (at_ : source.At depth) {layout : Layout} {j j' : Json}
    (step : layout.Step depth j j') (accepted : source.accepts j = true) :
    source.accepts j' = true := by
  cases source with
  | streamed d =>
    obtain rfl := at_ d rfl
    exact step.storable accepted
  | buffered => rfl
  | given => rfl

end Source

namespace Tagged

variable {κ α : Type} {union : Tagged κ} {variants : List (String × List (String × Option Layout))}
  {names : List (String × Option Layout)} {source : Source} {depth : Nat}
  {members : List (Json.Text × Json)} {name : String} {kind : κ} {content : Json}

/-- An array is split into the variant of its first item and the other items. -/
theorem split_array {first : Json} {items : List Json} :
    union.split source (.array (first :: items)) = .ok (kind, content) ↔
      first.asVariant union.variants = .ok kind ∧
        (∀ item ∈ items, source.inner.accepts item = true) ∧ content = .array items := by
  rw [split, bind_eq_ok]
  constructor
  · rintro ⟨tag, htag, h⟩
    split at h
    · rename_i hall
      cases h
      exact ⟨htag, List.all_eq_true.mp hall, rfl⟩
    · cases h
  · rintro ⟨htag, hall, rfl⟩
    exact ⟨kind, htag, by rw [if_pos (List.all_eq_true.mpr hall)]; rfl⟩

theorem known_of_tag (gives : valuesOf union.tag members = [.text name])
    (found : variants.find? (fun variant => variant.1 == name) = some (name, names)) :
    (Layout.tagged union.tag variants).known members = (union.tag, none) :: names := by
  simp [Layout.known, gives, Layout.variant, text, found]

theorem places_of_tag {items : List Json}
    (found : variants.find? (fun variant => variant.1 == name) = some (name, names)) :
    (Layout.tagged union.tag variants).places (.text name :: items) =
      none :: names.map Prod.snd := by
  simp [Layout.places, Layout.variant, text, found]

/-- The name that the tag of a value gives. -/
inductive Named (union : Tagged κ) : Json → String → Prop where
  | object {members : List (Json.Text × Json)} {name : String}
      (gives : valuesOf union.tag members = [.text name]) : Named union (.object members) name
  | array {items : List Json} {name : String} : Named union (.array (.text name :: items)) name

/-- A value that is split has a tag, and one that names a variant. -/
theorem named_of_split {j : Json} (has : union.split source j = .ok (kind, content)) :
    ∃ name, union.Named j name ∧
      union.variants.find? (fun variant => variant.1 == name) = some (name, kind) := by
  match j with
  | .object members =>
    obtain ⟨-, ⟨tag, hgives, hvariant⟩, -⟩ := split_object.mp has
    obtain ⟨name, rfl, hfind⟩ := asVariant_eq_ok.mp hvariant
    exact ⟨name, .object hgives, hfind⟩
  | .array (first :: items) =>
    obtain ⟨hvariant, -, -⟩ := split_array.mp has
    obtain ⟨name, rfl, hfind⟩ := asVariant_eq_ok.mp hvariant
    exact ⟨name, .array, hfind⟩
  | .array [] => cases has
  | .null => cases has
  | .boolean b => cases has
  | .number n => exact absurd has mismatch_ne_ok
  | .string s => exact absurd has mismatch_ne_ok
  | .broken => cases has

section Steps

variable (found : variants.find? (fun variant => variant.1 == name) = some (name, names))
  (apart : ∀ inner, (union.tag, inner) ∉ names)

include found apart

/-- What is set aside of a value that is rearranged is rearranged in the same way. -/
theorem split_step (at_ : source.At depth) {j j' : Json} (named : union.Named j name)
    (step : (Layout.tagged union.tag variants).Step depth j j')
    (has : union.split source j = .ok (kind, content)) :
    ∃ content', union.split source j' = .ok (kind, content') ∧
      (Layout.fields names).Step depth content content' := by
  cases step with
  | @order _ _ members members' perm =>
    obtain ⟨hadmits, ⟨tag, hgives, hvariant⟩, rfl⟩ := split_object.mp has
    have hvalues : (valuesOf union.tag members).Perm (valuesOf union.tag members') :=
      perm.filterMap _
    rw [hgives] at hvalues
    exact ⟨_, split_object.mpr ⟨fun member hmember => hadmits member (perm.mem_iff.mpr hmember),
      ⟨tag, (List.singleton_perm.mp hvalues).symm, hvariant⟩, rfl⟩, .order (perm.filter _)⟩
  | @more _ _ members other value unknown storable =>
    obtain ⟨hadmits, ⟨tag, hgives, hvariant⟩, rfl⟩ := split_object.mp has
    cases named with
    | object gives =>
      rw [known_of_tag gives found] at unknown
      have hne : some other ≠ some union.tag := by
        rintro ⟨⟩
        exact unknown none List.mem_cons_self
      refine ⟨_, split_object.mpr ⟨List.forall_mem_cons.mpr
        ⟨⟨other, rfl, fun _ => at_.inner.accepts storable⟩, hadmits⟩,
        ⟨tag, (valuesOf_cons_of_ne hne value).trans hgives, hvariant⟩, rfl⟩, ?_⟩
      rw [without_cons_of_ne hne]
      exact .more (fun inner hmem => unknown inner (List.mem_cons_of_mem _ hmem)) storable
  | @member _ inner _ members other value value' known step =>
    obtain ⟨hadmits, ⟨tag, hgives, hvariant⟩, rfl⟩ := split_object.mp has
    cases named with
    | object gives =>
      rw [known_of_tag gives found] at known
      have hknown : (other, some inner) ∈ names := by simpa using known
      have hne : some other ≠ some union.tag := by
        rintro ⟨⟩
        exact apart _ hknown
      obtain ⟨⟨_, hname, haccepts⟩, hrest⟩ := List.forall_mem_cons.mp hadmits
      obtain rfl := Option.some.inj hname
      rw [valuesOf_cons_of_ne hne] at hgives
      have haccepts' : source.inner.accepts value' = true :=
        at_.inner.accepts_step step (haccepts fun h => hne (congrArg some h))
      refine ⟨_, split_object.mpr ⟨List.forall_mem_cons.mpr
        ⟨⟨other, rfl, fun _ => haccepts'⟩, hrest⟩,
        ⟨tag, (valuesOf_cons_of_ne hne value').trans hgives, hvariant⟩, rfl⟩, ?_⟩
      rw [without_cons_of_ne hne, without_cons_of_ne hne]
      exact .member hknown step
  | @item _ inner _ items i value value' place given step =>
    cases named with
    | @array items =>
      rw [places_of_tag found] at place
      obtain ⟨hvariant, haccepts, rfl⟩ := split_array.mp has
      cases i with
      | zero => cases place
      | succ i =>
        refine ⟨_, split_array.mpr ⟨hvariant, fun other hother => ?_, rfl⟩, .item place given step⟩
        rcases List.mem_or_eq_of_mem_set hother with hold | rfl
        · exact haccepts other hold
        · exact at_.inner.accepts_step step (haccepts value (List.mem_of_getElem? given))

/-- What is set aside has a known name twice if the whole value has. -/
theorem repeats_of_split {j : Json} (named : union.Named j name)
    (repeats : (Layout.tagged union.tag variants).Repeats j)
    (has : union.split source j = .ok (kind, content)) : (Layout.fields names).Repeats content := by
  cases repeats with
  | @here _ members other inner known twice =>
    obtain ⟨-, ⟨tag, hgives, -⟩, rfl⟩ := split_object.mp has
    cases named with
    | object gives =>
      rw [known_of_tag gives found] at known
      have hne : other ≠ union.tag := by
        rintro rfl
        rw [hgives] at twice
        simp at twice
      have hknown : (other, inner) ∈ names := by simpa [hne] using known
      refine .here hknown ?_
      rw [valuesOf_without hne]
      exact twice
  | @member _ inner members other value known given inside =>
    obtain ⟨-, -, rfl⟩ := split_object.mp has
    cases named with
    | object gives =>
      rw [known_of_tag gives found] at known
      have hknown : (other, some inner) ∈ names := by simpa using known
      refine .member hknown (List.mem_filter.mpr ⟨given, ?_⟩) inside
      have hne : other ≠ union.tag := by
        rintro rfl
        exact apart _ hknown
      simpa using hne
  | @item _ inner items i value place given inside =>
    cases named with
    | @array items =>
      rw [places_of_tag found] at place
      obtain ⟨-, -, rfl⟩ := split_array.mp has
      cases i with
      | zero => cases place
      | succ i => exact .item place given inside

end Steps

/-- A decoder that goes by the tag is indifferent if what it does with each variant is. -/
theorem indifferent (at_ : source.At depth) {read : Json → Except DecodeError α}
    {pick : κ × Json → Except DecodeError α} (reads : ∀ j, read j = union.split source j >>= pick)
    (each : ∀ name kind,
      union.variants.find? (fun variant => variant.1 == name) = some (name, kind) →
        ∃ names, variants.find? (fun variant => variant.1 == name) = some (name, names) ∧
          (∀ inner, (union.tag, inner) ∉ names) ∧
          (Layout.fields names).Indifferent depth fun content => pick (kind, content)) :
    (Layout.tagged union.tag variants).Indifferent depth read := by
  refine ⟨fun {j j' a} step decoded => ?_, fun {j a} repeats decoded => ?_⟩
  · rw [reads] at decoded ⊢
    obtain ⟨⟨kind, content⟩, hsplit, hpick⟩ := bind_eq_ok.mp decoded
    obtain ⟨name, hnamed, hfind⟩ := named_of_split hsplit
    obtain ⟨names, hfound, hapart, hindifferent⟩ := each name kind hfind
    obtain ⟨content', hsplit', hstep⟩ := split_step hfound hapart at_ hnamed step hsplit
    exact bind_eq_ok.mpr ⟨_, hsplit', hindifferent.keeps hstep hpick⟩
  · rw [reads] at decoded
    obtain ⟨⟨kind, content⟩, hsplit, hpick⟩ := bind_eq_ok.mp decoded
    obtain ⟨name, hnamed, hfind⟩ := named_of_split hsplit
    obtain ⟨names, hfound, hapart, hindifferent⟩ := each name kind hfind
    exact hindifferent.once (repeats_of_split hfound hapart hnamed repeats hsplit) hpick

end Tagged

end CacheAside
