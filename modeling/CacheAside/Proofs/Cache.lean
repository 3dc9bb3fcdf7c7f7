import CacheAside.Backend
import CacheAside.Proofs.Fallible

/-!
# What the cache in memory does to its entries

The entries are looked at as they are stored, also when they do not count any more: a clock that
goes back makes them count again.
-/

namespace CacheAside.Cache

/-- The record that is stored for an identifier, whether its entry counts or not. -/
def stored? (c : Cache) (id : RecordId) : Option Record :=
  (c.entries.get? id).map (·.record)

/-- A look-up answers with the record that is stored, or not at all; no entry changes its record,
but one may go. -/
theorem get_spec (c : Cache) (now : Timestamp) (id : RecordId) :
    ((c.get now id).1 = none ∨ (c.get now id).1 = c.stored? id) ∧
      ∀ key, (c.get now id).2.stored? key = c.stored? key ∨
        (c.get now id).2.stored? key = none := by
  unfold get stored?
  split
  · rename_i e he
    split
    · exact ⟨.inr (by simp [he]), fun key => .inl rfl⟩
    · refine ⟨.inl rfl, fun key => ?_⟩
      by_cases h : key = id <;> simp [h]
  · exact ⟨.inl rfl, fun key => .inl rfl⟩

/-- A record is put in exactly when its expiry can be told, and then under its own identifier. -/
theorem set_eq_ok {c c' : Cache} {now : Timestamp} {ttl : Nat} {r : Record} :
    c.set now ttl r = .ok c' ↔ ∃ moment, expiry now ttl = .ok moment ∧
      c' = ⟨c.entries.insert r.id ⟨r, moment⟩⟩ := by
  simp only [set, bind_eq_ok, pure, Except.pure, Except.ok.injEq, eq_comm (a := c')]

/-- A record that is put in is stored under its own identifier. -/
theorem stored?_set {c c' : Cache} {now : Timestamp} {ttl : Nat} {r : Record}
    (h : c.set now ttl r = .ok c') (key : RecordId) :
    c'.stored? key = if key = r.id then some r else c.stored? key := by
  obtain ⟨moment, -, rfl⟩ := set_eq_ok.mp h
  by_cases hk : key = r.id <;> simp [stored?, hk]

@[simp] theorem stored?_delete (c : Cache) (id key : RecordId) :
    (c.delete id).stored? key = if key = id then none else c.stored? key := by
  by_cases h : key = id <;> simp [delete, stored?, h]

/-! ## Entries -/

/-- A look-up that answers has found an entry that counts. -/
theorem get_eq_some {c : Cache} {now : Timestamp} {id : RecordId} {r : Record}
    (h : (c.get now id).1 = some r) :
    ∃ e, c.entries.get? id = some e ∧ e.record = r ∧ now < e.expiresAt := by
  unfold get at h
  split at h
  · rename_i e he
    split at h
    · rename_i hlive
      exact ⟨e, he, Option.some.inj h, of_decide_eq_true hlive⟩
    · cases h
  · cases h

/-- A look-up makes no entry. -/
theorem entry_of_get {c : Cache} {now : Timestamp} {id key : RecordId} {e : CacheEntry}
    (h : (c.get now id).2.entries.get? key = some e) : c.entries.get? key = some e := by
  unfold get at h
  split at h
  · split at h
    · exact h
    · rw [Table.get?_erase] at h
      split at h
      · cases h
      · exact h
  · exact h

/-- The entry of a record that is put in expires when its time to live is over. -/
theorem entry_of_set {c c' : Cache} {now : Timestamp} {ttl : Nat} {r : Record} {key : RecordId}
    {e : CacheEntry} (h : c.set now ttl r = .ok c') (he : c'.entries.get? key = some e) :
    c.entries.get? key = some e ∨
      key = r.id ∧ e.record = r ∧ expiry now ttl = .ok e.expiresAt := by
  obtain ⟨moment, hexpiry, rfl⟩ := set_eq_ok.mp h
  rw [Table.get?_insert] at he
  split at he
  · rename_i hkey
    cases he
    exact .inr ⟨hkey, rfl, hexpiry⟩
  · exact .inl he

/-- A deletion makes no entry. -/
theorem entry_of_delete {c : Cache} {id key : RecordId} {e : CacheEntry}
    (h : (c.delete id).entries.get? key = some e) : c.entries.get? key = some e := by
  rw [delete, Table.get?_erase] at h
  split at h
  · cases h
  · exact h

end CacheAside.Cache
