import CacheAside.Ident

/-!
# Tables

A table holds at most one value for every record identifier and lists its entries in the order of
the identifiers.  Each operation is described by what it does to `get?`, and a table is determined
by `get?` (`Table.ext_get?`).
-/

namespace CacheAside

/-- Entries in the order of their identifiers, no identifier twice. -/
structure Table (α : Type) where
  entries : List (RecordId × α)
  sorted : entries.Pairwise fun a b => a.1 < b.1
  deriving DecidableEq

namespace Table

variable {α : Type}

/-- The entries with one more, or with a new value for an identifier that is there. -/
def put (id : RecordId) (value : α) : List (RecordId × α) → List (RecordId × α)
  | [] => [(id, value)]
  | entry :: rest =>
    if id < entry.1 then (id, value) :: entry :: rest
    else if id = entry.1 then (id, value) :: rest
    else entry :: put id value rest

theorem mem_put {id : RecordId} {value : α} {e : RecordId × α} {entries : List (RecordId × α)}
    (h : e ∈ put id value entries) : e = (id, value) ∨ e ∈ entries := by
  induction entries with
  | nil => simpa [put] using h
  | cons entry rest ih =>
    rw [put] at h
    split at h
    · simpa using h
    · split at h
      · rcases List.mem_cons.mp h with h | h
        · exact .inl h
        · exact .inr (List.mem_cons_of_mem _ h)
      · rcases List.mem_cons.mp h with h | h
        · exact .inr (h ▸ List.mem_cons_self)
        · exact (ih h).imp_right (List.mem_cons_of_mem _)

theorem sorted_put (id : RecordId) (value : α) {entries : List (RecordId × α)}
    (h : entries.Pairwise fun a b => a.1 < b.1) :
    (put id value entries).Pairwise fun a b => a.1 < b.1 := by
  induction entries with
  | nil => simp [put]
  | cons entry rest ih =>
    obtain ⟨first, tail⟩ := List.pairwise_cons.mp h
    rw [put]
    split
    · rename_i hlt
      refine List.pairwise_cons.mpr ⟨fun e he => ?_, h⟩
      rcases List.mem_cons.mp he with rfl | he
      · exact hlt
      · exact Ident.lt_trans hlt (first e he)
    · split
      · rename_i heq
        exact List.pairwise_cons.mpr ⟨fun e he => heq ▸ first e he, tail⟩
      · rename_i hnot hne
        refine List.pairwise_cons.mpr ⟨fun e he => ?_, ih tail⟩
        rcases mem_put he with rfl | he
        · exact Ident.lt_of_not_lt_of_ne hnot hne
        · exact first e he

/-- No entries. -/
def empty : Table α := ⟨[], .nil⟩

/-- The value of an identifier. -/
def get? (t : Table α) (id : RecordId) : Option α :=
  t.entries.lookup id

/-- Whether an identifier has a value. -/
def contains (t : Table α) (id : RecordId) : Bool :=
  (t.get? id).isSome

/-- The table in which `id` has the given value. -/
def insert (t : Table α) (id : RecordId) (value : α) : Table α :=
  ⟨put id value t.entries, sorted_put id value t.sorted⟩

/-- The table in which `id` has no value. -/
def erase (t : Table α) (id : RecordId) : Table α :=
  ⟨t.entries.filter fun e => e.1 ≠ id, t.sorted.filter _⟩

/-- The entries whose value passes a test. -/
def filter (t : Table α) (p : α → Bool) : Table α :=
  ⟨t.entries.filter fun e => p e.2, t.sorted.filter _⟩

/-- The number of entries. -/
def size (t : Table α) : Nat :=
  t.entries.length

/-! ## Laws of `get?` -/

@[simp] theorem get?_empty (id : RecordId) : (empty : Table α).get? id = none := rfl

theorem lookup_cons (key : RecordId) (entry : RecordId × α) (rest : List (RecordId × α)) :
    (entry :: rest).lookup key = if key = entry.1 then some entry.2 else rest.lookup key := by
  rw [List.lookup_cons]
  by_cases h : key = entry.1
  · simp [h]
  · simp [h, beq_eq_false_iff_ne.mpr h]

theorem lookup_put (id key : RecordId) (value : α) (entries : List (RecordId × α)) :
    (put id value entries).lookup key = if key = id then some value else entries.lookup key := by
  induction entries with
  | nil => simp [put, lookup_cons]
  | cons entry rest ih =>
    simp only [put]
    split
    · simp [lookup_cons]
    · split
      · rename_i heq
        by_cases h : key = id <;> simp [lookup_cons, h, ← heq]
      · rename_i hne
        rw [lookup_cons, ih, lookup_cons]
        by_cases h : key = id <;> simp [h, hne]

@[simp] theorem get?_insert (t : Table α) (id key : RecordId) (value : α) :
    (t.insert id value).get? key = if key = id then some value else t.get? key :=
  lookup_put id key value t.entries

theorem get?_insert_self (t : Table α) (id : RecordId) (value : α) :
    (t.insert id value).get? id = some value := by simp

@[simp] theorem get?_erase (t : Table α) (id key : RecordId) :
    (t.erase id).get? key = if key = id then none else t.get? key := by
  have h (entries : List (RecordId × α)) : (entries.filter fun e => e.1 ≠ id).lookup key =
      if key = id then none else entries.lookup key := by
    induction entries with
    | nil => simp
    | cons entry rest ih =>
      by_cases hk : entry.1 = id
      · rw [List.filter_cons_of_neg (by simp [hk]), ih, lookup_cons, hk]
        by_cases h : key = id <;> simp [h]
      · rw [List.filter_cons_of_pos (by simp [hk]), lookup_cons, ih, lookup_cons]
        by_cases h : key = id
        · simp [h, Ne.symm hk]
        · simp [h]
  exact h t.entries

/-- An entry is the value of its identifier. -/
theorem mem_entries_iff (t : Table α) (id : RecordId) (value : α) :
    (id, value) ∈ t.entries ↔ t.get? id = some value := by
  obtain ⟨entries, sorted⟩ := t
  simp only [get?]
  induction entries with
  | nil => simp
  | cons entry rest ih =>
    obtain ⟨first, tail⟩ := List.pairwise_cons.mp sorted
    rw [lookup_cons, List.mem_cons, ih tail]
    by_cases h : id = entry.1
    · subst h
      simp only [if_true, Option.some.injEq]
      constructor
      · rintro (h | h)
        · rw [← h]
        · exact absurd (first _ ((ih tail).mpr h)) (Ident.lt_irrefl _)
      · exact fun h => .inl (by rw [← h])
    · rw [if_neg h, or_iff_right_iff_imp]
      exact fun e => absurd (congrArg Prod.fst e) h

/-- Lists in order that have the same entries are equal. -/
theorem eq_of_mem_iff {l m : List (RecordId × α)} (hl : l.Pairwise fun a b => a.1 < b.1)
    (hm : m.Pairwise fun a b => a.1 < b.1) (h : ∀ e, e ∈ l ↔ e ∈ m) : l = m := by
  induction l generalizing m with
  | nil => cases m with
    | nil => rfl
    | cons b m => exact absurd ((h b).mpr List.mem_cons_self) List.not_mem_nil
  | cons a l ih => cases m with
    | nil => exact absurd ((h a).mp List.mem_cons_self) List.not_mem_nil
    | cons b m =>
      obtain ⟨la, ltail⟩ := List.pairwise_cons.mp hl
      obtain ⟨mb, mtail⟩ := List.pairwise_cons.mp hm
      have hab : a = b := by
        rcases List.mem_cons.mp ((h a).mp List.mem_cons_self) with e | ha
        · exact e
        · rcases List.mem_cons.mp ((h b).mpr List.mem_cons_self) with e | hb
          · exact e.symm
          · exact absurd (Ident.lt_trans (la b hb) (mb a ha)) (Ident.lt_irrefl _)
      subst hab
      refine congrArg (a :: ·) (ih ltail mtail fun e => ⟨fun he => ?_, fun he => ?_⟩)
      · rcases List.mem_cons.mp ((h e).mp (List.mem_cons_of_mem _ he)) with rfl | hm
        · exact absurd (la _ he) (Ident.lt_irrefl _)
        · exact hm
      · rcases List.mem_cons.mp ((h e).mpr (List.mem_cons_of_mem _ he)) with rfl | hl
        · exact absurd (mb _ he) (Ident.lt_irrefl _)
        · exact hl

/-- Two tables with the same values are the same table. -/
theorem ext_get? {s t : Table α} (h : ∀ id, s.get? id = t.get? id) : s = t := by
  have entries : s.entries = t.entries := eq_of_mem_iff s.sorted t.sorted fun e => by
    rw [show e = (e.1, e.2) from rfl, mem_entries_iff, mem_entries_iff, h]
  cases s; cases t; simp_all

theorem get?_filter (t : Table α) (p : α → Bool) (id : RecordId) :
    (t.filter p).get? id = (t.get? id).filter p := by
  refine Option.ext fun value => ?_
  rw [← mem_entries_iff]
  simp [filter, List.mem_filter, mem_entries_iff, Option.filter_eq_some_iff]

end Table

end CacheAside
