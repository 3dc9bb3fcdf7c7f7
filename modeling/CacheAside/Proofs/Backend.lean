import CacheAside.Proofs.Cache
import CacheAside.Proofs.Store
import CacheAside.Service.Stage

/-!
# What a call does to the ports in memory

A call of the store that succeeds makes at most one change, and the change says what the store
answers about every record afterwards (`find_serve`).  A call that fails or breaks down has no
effect (`serve_of_not_ok`).
-/

namespace CacheAside

/-- The change that a call of the store has made, going by its reply. -/
def PortCall.change? : (call : PortCall) → call.Reply → Option DomainEvent
  | .insert _, .ok r => some (.created r)
  | .replace _, .ok r => some (.updated r)
  | .remove id, .ok () => some (.deleted id)
  | _, _ => none

/-- The record that a call of the store is to change. -/
def PortCall.target? : PortCall → Option RecordId
  | .insert r => some r.id
  | .replace r => some r.id
  | .remove id => some id
  | _ => none

@[simp] theorem PortCall.change?_error {call : PortCall} (e : call.Failure) :
    call.change? (.error e) = none := by
  cases call <;> rfl

namespace DomainEvent

/-- The event says that a record is new. -/
def isCreation : DomainEvent → Bool
  | .created _ => true
  | _ => false

/-- What the store answers about the record after the change. -/
def found : DomainEvent → Except StoreError Record
  | .created r => .ok r
  | .updated r => .ok r
  | .deleted id => .error (.notFound id)

/-- The record that the change has left in the store. -/
def record? : DomainEvent → Option Record
  | .created r => some r
  | .updated r => some r
  | .deleted _ => none

theorem found_eq_ok {change : DomainEvent} {r : Record} :
    change.found = .ok r ↔ change.record? = some r := by
  cases change <;> simp [found, record?]

theorem recordId_of_record? {change : DomainEvent} {r : Record} (h : change.record? = some r) :
    change.recordId = r.id := by
  cases change <;> simp_all [record?, recordId]

end DomainEvent

namespace Backend

variable {b : Backend} {c : Circumstances}

/-- A call that does not succeed leaves everything as it was. -/
theorem serve_of_not_ok {call : PortCall}
    (h : ∀ value, (b.serve c call).reply ≠ some (.ok value)) : (b.serve c call).backend = b := by
  cases call with
  | findAll page => rfl
  | find id => rfl
  | insert r =>
    simp only [serve] at h ⊢
    split
    · rename_i stored store heq
      simp [heq, served] at h
    · rfl
  | replace r =>
    simp only [serve] at h ⊢
    split
    · rename_i stored store heq
      simp [heq, served] at h
    · rfl
  | remove id =>
    simp only [serve] at h ⊢
    split
    · rename_i store heq
      simp [heq, served] at h
    · rfl
  | lookUp id => exact absurd rfl (h _)
  | writeCache write =>
    cases write with
    | keep r =>
      simp only [serve, keep] at h ⊢
      split
      · rename_i cache heq
        simp [heq] at h
      · rfl
      · rfl
    | evict id => exact absurd rfl (h _)
  | publish event =>
    simp only [serve] at h
    split at h <;> exact absurd rfl (h _)

/-- Nothing but putting a record into the cache breaks down. -/
theorem eq_keep_of_broken {call : PortCall} (h : (b.serve c call).reply = none) :
    ∃ r, call = .writeCache (.keep r) := by
  cases call with
  | writeCache write =>
    cases write with
    | keep r => exact ⟨r, rfl⟩
    | evict id => cases h
  | findAll page => cases h
  | find id => cases h
  | lookUp id => cases h
  | insert r =>
    simp only [serve] at h
    split at h <;> cases h
  | replace r =>
    simp only [serve] at h
    split at h <;> cases h
  | remove id =>
    simp only [serve] at h
    split at h <;> cases h
  | publish event =>
    simp only [serve] at h
    split at h <;> cases h

theorem serve_insert {r stored : Record} (h : (b.serve c (.insert r)).reply = some (.ok stored)) :
    b.store.create c.now r = .ok (stored, (b.serve c (.insert r)).backend.store) := by
  simp only [serve] at h ⊢
  split at h
  · rename_i stored' store heq
    cases h
    simp [heq, served]
  · cases h

theorem serve_replace {r stored : Record} (h : (b.serve c (.replace r)).reply = some (.ok stored)) :
    b.store.update c.now r = .ok (stored, (b.serve c (.replace r)).backend.store) := by
  simp only [serve] at h ⊢
  split at h
  · rename_i stored' store heq
    cases h
    simp [heq, served]
  · cases h

theorem serve_remove {id : RecordId} (h : (b.serve c (.remove id)).reply = some (.ok ())) :
    b.store.delete id = .ok (b.serve c (.remove id)).backend.store := by
  simp only [serve] at h ⊢
  split at h
  · rename_i store heq
    simp [heq, served]
  · cases h

/-- A record is removed exactly when it is found. -/
theorem reply_remove (b : Backend) (c : Circumstances) (id : RecordId) :
    (b.serve c (.remove id)).reply = some ((b.store.find id).map fun _ => ()) := by
  cases hrow : b.store.rows.get? id with
  | none =>
    have hdelete : b.store.delete id = .error (.notFound id) := by
      simp [Store.delete, Table.contains, hrow]
    simp only [serve, hdelete, Store.find, hrow]
    rfl
  | some row =>
    have hdelete : b.store.delete id = .ok ⟨b.store.rows.erase id, b.store.tags.erase id⟩ := by
      simp [Store.delete, Table.contains, hrow]
    simp only [serve, hdelete, Store.find, hrow]
    rfl

/-- A record that is not found is not replaced. -/
theorem reply_replace {r : Record} (h : b.store.find r.id = .error (.notFound r.id)) :
    (b.serve c (.replace r)).reply = some (.error (.notFound r.id)) := by
  obtain ⟨hrow, -⟩ := Store.find_eq_error.mp h
  simp only [serve, Store.update, hrow]
  rfl

/-- The store answers as the change says about its record, and as before about the others. -/
theorem find_serve {call : PortCall} {reply : call.Reply} {change : DomainEvent}
    (h : (b.serve c call).reply = some reply) (hchange : call.change? reply = some change)
    (key : RecordId) :
    (b.serve c call).backend.store.find key =
      if key = change.recordId then change.found else b.store.find key := by
  cases call with
  | insert r =>
    cases reply with
    | ok stored =>
      cases hchange
      obtain ⟨-, hstored, hfind⟩ := Store.create_eq_ok (serve_insert h)
      simp [hfind key, DomainEvent.recordId, DomainEvent.found, hstored]
    | error e => cases hchange
  | replace r =>
    cases reply with
    | ok stored =>
      cases hchange
      obtain ⟨old, -, hstored, hfind⟩ := Store.update_eq_ok (serve_replace h)
      simp [hfind key, DomainEvent.recordId, DomainEvent.found, hstored]
    | error e => cases hchange
  | remove id =>
    cases reply with
    | ok _ =>
      cases hchange
      exact (Store.delete_eq_ok (serve_remove h)).2 key
    | error e => cases hchange
  | _ => cases hchange

/-- A call changes only the record that it is for. -/
theorem recordId_serve {call : PortCall} {reply : call.Reply} {change : DomainEvent}
    (h : (b.serve c call).reply = some reply) (hchange : call.change? reply = some change) :
    call.target? = some change.recordId := by
  cases call with
  | insert r =>
    match reply with
    | .ok stored =>
      cases hchange
      obtain ⟨-, hstored, -⟩ := Store.create_eq_ok (serve_insert h)
      simp [PortCall.target?, DomainEvent.recordId, hstored]
    | .error e => cases hchange
  | replace r =>
    match reply with
    | .ok stored =>
      cases hchange
      obtain ⟨old, -, hstored, -⟩ := Store.update_eq_ok (serve_replace h)
      simp [PortCall.target?, DomainEvent.recordId, hstored]
    | .error e => cases hchange
  | remove id =>
    match reply with
    | .ok () =>
      cases hchange
      rfl
    | .error e => cases hchange
  | _ => cases hchange

/-- A call without a change leaves the store as it was. -/
theorem store_serve {call : PortCall}
    (h : ∀ reply, (b.serve c call).reply = some reply → call.change? reply = none) :
    (b.serve c call).backend.store = b.store := by
  by_cases hok : ∃ value, (b.serve c call).reply = some (.ok value)
  · obtain ⟨value, hvalue⟩ := hok
    have hnone := h _ hvalue
    -- a change of the store that succeeds is reported as one, so the other calls are left
    cases call with
    | findAll page => rfl
    | find id => rfl
    | insert r => cases hnone
    | replace r => cases hnone
    | remove id => cases hnone
    | lookUp id => rfl
    | writeCache write =>
      cases write with
      | keep r =>
        simp only [serve, keep]
        split <;> rfl
      | evict id => rfl
    | publish event =>
      simp only [serve]
      split <;> rfl
  · rw [serve_of_not_ok fun value hvalue => hok ⟨value, hvalue⟩]

/-! ## The cache -/

/-- A write to the cache that succeeds leaves the record that it is about. -/
theorem stored?_serve_write {write : CacheWrite}
    (h : (b.serve c (.writeCache write)).reply = some (.ok ())) (key : RecordId) :
    (b.serve c (.writeCache write)).backend.cache.stored? key =
      match write with
      | .keep r => if key = r.id then some r else b.cache.stored? key
      | .evict id => if key = id then none else b.cache.stored? key := by
  cases write with
  | keep r =>
    simp only [serve, keep] at h ⊢
    split at h
    · rename_i cache heq
      exact Cache.stored?_set heq key
    · cases h
    · cases h
  | evict id => exact Cache.stored?_delete b.cache id key

/-- A cache that has been told of a change holds the record that the change has left, and the other
records as before. -/
theorem stored?_serve_news {change : DomainEvent}
    (h : (b.serve c (.writeCache change.cacheWrite)).reply = some (.ok ())) (key : RecordId) :
    (b.serve c (.writeCache change.cacheWrite)).backend.cache.stored? key =
      if key = change.recordId then change.record? else b.cache.stored? key := by
  have hwritten := stored?_serve_write h key
  cases change <;> exact hwritten

/-- Writes to the cache leave the journal as it is. -/
theorem journal_serve_write {write : CacheWrite} :
    (b.serve c (.writeCache write)).backend.journal = b.journal := by
  cases write with
  | keep r =>
    simp only [serve, keep]
    split <;> rfl
  | evict id => rfl

/-- A record that is kept gets an entry until its expiry, in place of what was there. -/
theorem serve_keep_of_expiry {r : Record} {moment : Timestamp}
    (h : Cache.expiry c.now c.ttl = .ok moment) :
    b.serve c (.writeCache (.keep r)) =
      ⟨some (.ok ()), { b with cache := ⟨b.cache.entries.insert r.id ⟨r, moment⟩⟩ }, none⟩ := by
  have hset : b.cache.set c.now c.ttl r = .ok ⟨b.cache.entries.insert r.id ⟨r, moment⟩⟩ :=
    Cache.set_eq_ok.mpr ⟨moment, h, rfl⟩
  simp only [serve, keep, hset]

/-- The cache takes a record exactly when it can tell when the entry expires. -/
theorem serve_keep_eq_ok {r : Record} :
    (b.serve c (.writeCache (.keep r))).reply = some (.ok ()) ↔
      ∃ moment, Cache.expiry c.now c.ttl = .ok moment := by
  simp only [serve, keep, Cache.set]
  cases hexpiry : Cache.expiry c.now c.ttl with
  | ok moment => simp [bind, Except.bind, pure, Except.pure]
  | error fault => cases fault <;> simp [bind, Except.bind, refused]

/-- Whatever an attempt to keep a record leaves in the cache was there before or is the record. -/
theorem stored?_serve_keep {r x : Record} {id : RecordId}
    (h : (b.serve c (.writeCache (.keep r))).backend.cache.stored? id = some x) :
    b.cache.stored? id = some x ∨ r = x ∧ r.id = id := by
  simp only [serve, keep] at h
  split at h
  · rename_i cache heq
    rw [show cache.stored? id = _ from Cache.stored?_set heq id] at h
    split at h
    · rename_i hid
      exact .inr ⟨Option.some.inj h, hid.symm⟩
    · exact .inl h
  · exact .inl h
  · exact .inl h

/-- A call that is no write to the cache changes no record in it, though it may drop one. -/
theorem stored?_serve {call : PortCall} (h : ∀ write, call ≠ .writeCache write) (key : RecordId) :
    (b.serve c call).backend.cache.stored? key = b.cache.stored? key ∨
      (b.serve c call).backend.cache.stored? key = none := by
  cases call with
  | findAll page => exact .inl rfl
  | find id => exact .inl rfl
  | insert r => simp only [serve]; split <;> exact .inl rfl
  | replace r => simp only [serve]; split <;> exact .inl rfl
  | remove id => simp only [serve]; split <;> exact .inl rfl
  | lookUp id => exact (Cache.get_spec b.cache c.now id).2 key
  | writeCache write => exact absurd rfl (h write)
  | publish event => simp only [serve]; split <;> exact .inl rfl

/-- An entry of the cache was there before a call, or the call has put its record in. -/
theorem entry_serve {call : PortCall} {key : RecordId} {e : CacheEntry}
    (h : (b.serve c call).backend.cache.entries.get? key = some e) :
    b.cache.entries.get? key = some e ∨
      ∃ r, call = .writeCache (.keep r) ∧ key = r.id ∧ e.record = r ∧
        Cache.expiry c.now c.ttl = .ok e.expiresAt := by
  cases call with
  | findAll page => exact .inl h
  | find id => exact .inl h
  | insert r => simp only [serve] at h; split at h <;> exact .inl h
  | replace r => simp only [serve] at h; split at h <;> exact .inl h
  | remove id => simp only [serve] at h; split at h <;> exact .inl h
  | lookUp id => exact .inl (Cache.entry_of_get h)
  | writeCache write =>
    cases write with
    | keep r =>
      simp only [serve, keep] at h
      split at h
      · rename_i cache hset
        exact (Cache.entry_of_set hset h).imp_right fun hnew => ⟨r, rfl, hnew⟩
      · exact .inl h
      · exact .inl h
    | evict id => exact .inl (Cache.entry_of_delete h)
  | publish event => simp only [serve] at h; split at h <;> exact .inl h

end Backend

end CacheAside
