import CacheAside.Backend

/-!
# What the store in memory does to its records

Every change of the store is described by what `find` answers afterwards: the record that was
written under its own identifier, and what it answered before under any other.
-/

namespace CacheAside.Store

@[simp] theorem getD_putTags (tags : Table (List String)) (id key : RecordId) (new : List String) :
    ((putTags tags id new).get? key).getD [] =
      if key = id then new else (tags.get? key).getD [] := by
  unfold putTags
  split
  · rename_i hempty
    rw [List.isEmpty_iff] at hempty
    by_cases h : key = id <;> simp [h, hempty]
  · by_cases h : key = id <;> simp [h]

theorem find_eq_ok {s : Store} {id : RecordId} {r : Record} :
    s.find id = .ok r ↔ ∃ row, s.rows.get? id = some row ∧ s.join id row = r := by
  unfold find
  cases s.rows.get? id <;> simp

theorem find_eq_error {s : Store} {id : RecordId} {e : StoreError} :
    s.find id = .error e ↔ s.rows.get? id = none ∧ e = .notFound id := by
  unfold find
  cases s.rows.get? id <;> simp [eq_comm]

/-- A record is found under its own identifier. -/
theorem id_of_find {s : Store} {id : RecordId} {r : Record} (h : s.find id = .ok r) :
    r.id = id := by
  obtain ⟨row, -, rfl⟩ := find_eq_ok.mp h
  rfl

/-- What is put under an identifier is found there; the other identifiers keep their records. -/
theorem find_put (s : Store) (id key : RecordId) (row : Row) (tags : List String) :
    (s.put id row tags).2.find key =
      if key = id then .ok (s.put id row tags).1 else s.find key := by
  by_cases h : key = id
  · subst h
    simp [put, find]
  · simp [put, find, join, h]

/-- The record that is made by putting a row and tags under an identifier. -/
theorem put_fst (s : Store) (id : RecordId) (row : Row) (tags : List String) :
    (s.put id row tags).1 =
      ⟨id, row.label, row.value, row.weight, tags, row.createdAt, row.updatedAt⟩ := by
  simp [put, join]

/-- A creation finds no record in its place, and leaves the given one with the time of the store. -/
theorem create_eq_ok {s s' : Store} {now : Timestamp} {r stored : Record}
    (h : s.create now r = .ok (stored, s')) :
    s.find r.id = .error (.notFound r.id) ∧
      stored = { r with createdAt := now, updatedAt := none } ∧
      ∀ key, s'.find key = if key = r.id then .ok stored else s.find key := by
  unfold create at h
  split at h
  · cases h
  · rename_i habsent
    have hrow : s.rows.get? r.id = none := by simpa [Table.contains] using habsent
    injection h with h
    obtain ⟨rfl, rfl⟩ := Prod.mk.inj h
    refine ⟨find_eq_error.mpr ⟨hrow, rfl⟩, put_fst .., fun key => find_put ..⟩

/-- An update finds a record in its place and keeps its creation time. -/
theorem update_eq_ok {s s' : Store} {now : Timestamp} {r stored : Record}
    (h : s.update now r = .ok (stored, s')) :
    ∃ old, s.find r.id = .ok old ∧
      stored = { r with
        createdAt := old.createdAt, updatedAt := some (now.latest old.createdAt) } ∧
      ∀ key, s'.find key = if key = r.id then .ok stored else s.find key := by
  unfold update at h
  split at h
  · rename_i row hrow
    injection h with h
    obtain ⟨rfl, rfl⟩ := Prod.mk.inj h
    exact ⟨s.join r.id row, find_eq_ok.mpr ⟨row, hrow, rfl⟩, put_fst .., fun key => find_put ..⟩
  · cases h

/-- A deletion finds a record in its place and leaves none there. -/
theorem delete_eq_ok {s s' : Store} {id : RecordId} (h : s.delete id = .ok s') :
    (∃ old, s.find id = .ok old) ∧
      ∀ key, s'.find key = if key = id then .error (.notFound id) else s.find key := by
  unfold delete at h
  split at h
  · rename_i hpresent
    obtain ⟨row, hrow⟩ := Option.isSome_iff_exists.mp hpresent
    injection h with h
    subst h
    refine ⟨⟨_, find_eq_ok.mpr ⟨row, hrow, rfl⟩⟩, fun key => ?_⟩
    by_cases h : key = id
    · subst h
      simp [find]
    · simp [find, join, h]
  · cases h

end CacheAside.Store

namespace CacheAside

/-! ## A record to run the program on -/

/-- A minute of the first day of 1970. -/
def Timestamp.minute (n : Nat) : Timestamp where
  day := 0
  second := 60 * (n % 1440)
  nano := 0
  firstDay_le := by decide
  le_lastDay := by decide
  second_lt := by
    have : n % 1440 < 1440 := Nat.mod_lt n (by decide)
    simp only [secondsPerDay]
    omega
  nano_lt := by decide
  leap := by simp

/-- A record made in one of these minutes. -/
def Record.draft (n : Nat) : Record where
  id := .ofNat 5
  label := "old"
  value := 0
  weight := .ofRank false 0
  tags := []
  createdAt := .minute n
  updatedAt := none

end CacheAside
