import CacheAside.Proofs.Backend
import CacheAside.Proofs.Mishaps

/-!
# What a request for a change writes

A creation, an update or a deletion goes by what the store holds when it starts, as long as nothing
else changes the store meanwhile: `Request.Asks` are the questions that it can ask then, and
`Request.Writes` is the change that it can make.
-/

namespace CacheAside

/-- The request is for a change of the store. -/
def Request.IsChange : Request → Prop
  | .create _ => True
  | .update _ _ => True
  | .delete _ => True
  | _ => False

instance : (request : Request) → Decidable request.IsChange
  | .list _ => .isFalse id
  | .get _ => .isFalse id
  | .create _ => .isTrue trivial
  | .update _ _ => .isTrue trivial
  | .delete _ => .isTrue trivial

/-- The change that a request makes of a store, and the store that it leaves. -/
inductive Request.Writes (store : Store) : Request → DomainEvent → Store → Prop where
  | creates {candidate r : Record} {store' : Store} (now : Timestamp)
      (created : store.create now candidate = .ok (r, store')) :
      Writes store (.create candidate) (.created r) store'
  | updates {id : RecordId} {merger : Merger} {stored new r : Record} {store' : Store}
      (now : Timestamp) (found : store.find id = .ok stored)
      (merged : merger.merge stored = .ok new) (same : new.id = id)
      (updated : store.update now new = .ok (r, store')) :
      Writes store (.update id merger) (.updated r) store'
  | deletes {id : RecordId} {store' : Store} (deleted : store.delete id = .ok store') :
      Writes store (.delete id) (.deleted id) store'

/-- The questions that a request for a change can ask before it changes the store. -/
inductive Request.Asks (store : Store) : Request → Ask → Prop where
  | inserts {candidate : Record} : Asks store (.create candidate) (.inserting candidate)
  | loads {id : RecordId} {merger : Merger} : Asks store (.update id merger) (.loading id merger)
  | replaces {id : RecordId} {merger : Merger} {stored new : Record}
      (found : store.find id = .ok stored) (merged : merger.merge stored = .ok new)
      (same : new.id = id) : Asks store (.update id merger) (.replacing new)
  | removes {id : RecordId} : Asks store (.delete id) (.removing id)

namespace Request.Writes

variable {store store' : Store} {request : Request} {change : DomainEvent}

/-- The store then answers as the change says about its record, and as before about the others. -/
theorem find (h : request.Writes store change store') (key : RecordId) :
    store'.find key = if key = change.recordId then change.found else store.find key := by
  cases h with
  | creates now created =>
    obtain ⟨-, rfl, hfind⟩ := Store.create_eq_ok created
    exact hfind key
  | updates now found merged same updated =>
    obtain ⟨old, -, rfl, hfind⟩ := Store.update_eq_ok updated
    exact hfind key
  | deletes deleted => exact (Store.delete_eq_ok deleted).2 key

theorem operation (h : request.Writes store change store') :
    change.operation = request.operation := by
  cases h <;> rfl

end Request.Writes

theorem Request.Asks.operation {store : Store} {request : Request} {ask : Ask}
    (h : request.Asks store ask) : ask.operation = request.operation := by
  cases h <;> rfl

@[simp] theorem ServiceError.isCommitted_ofStore (op : Operation) (e : StoreError) :
    (ServiceError.ofStore op e).isCommitted = false := by
  cases e <;> rfl

/-- A failed publication is an error of its own kind, unless it was interrupted. -/
theorem ServiceError.ofPublish_eq (op : Operation) (id : RecordId) (e : EventError) :
    (∃ op' id' cause, ServiceError.ofPublish op id e = .propagation op' id' cause) ∨
      ∃ cause, ServiceError.ofPublish op id e = .cancelled cause := by
  cases e with
  | interrupted cause => exact .inr ⟨cause, rfl⟩
  | backend message => exact .inl ⟨op, id, .backend message, rfl⟩

namespace Service

/-- A request for a change is refused by the rules, or asks its first question. -/
theorem begin_change (s : Service) (store : Store) {request : Request} (h : request.IsChange) :
    (∃ ask, request.Asks store ask ∧ s.begin request = .asking ask) ∨
      ∃ e, s.begin request = .finished (.error (.validation e)) := by
  cases request with
  | list page => exact h.elim
  | get id => exact h.elim
  | create candidate =>
    simp only [begin, accept]
    split
    · exact .inl ⟨_, .inserts, rfl⟩
    · exact .inr ⟨_, rfl⟩
  | update id merger =>
    simp only [begin]
    split
    · exact .inl ⟨_, .loads, rfl⟩
    · exact .inr ⟨_, rfl⟩
  | delete id => exact .inl ⟨_, .removes, rfl⟩

/-- An error of the store ends a request for a change before it is committed. -/
theorem resume_error (s : Service) {store : Store} {request : Request} {ask : Ask}
    (asks : request.Asks store ask) (e : ask.call.Failure) :
    ∃ e', s.resume ask (.error e) = ([], .finished (.error e')) ∧ e'.isCommitted = false := by
  cases asks with
  | inserts => exact ⟨_, rfl, ServiceError.isCommitted_ofStore .create e⟩
  | loads => exact ⟨_, rfl, ServiceError.isCommitted_ofStore .update e⟩
  | replaces => exact ⟨_, rfl, ServiceError.isCommitted_ofStore .update e⟩
  | removes => exact ⟨_, rfl, ServiceError.isCommitted_ofStore .delete e⟩

/-- A loaded record is merged and goes to the store, or the rules refuse what came of the merge. -/
theorem merged_change (s : Service) {store : Store} {id : RecordId} (merger : Merger)
    {stored : Record} (found : store.find id = .ok stored) :
    (∃ ask, (Request.update id merger).Asks store ask ∧
        s.merged id merger stored = .asking ask) ∨
      ∃ e, s.merged id merger stored = .finished (.error (.validation e)) := by
  unfold merged
  split
  · exact .inr ⟨_, rfl⟩
  · rename_i new hmerge
    split
    · rename_i hid
      unfold accept
      split
      · exact .inl ⟨_, .replaces found hmerge hid, rfl⟩
      · exact .inr ⟨_, rfl⟩
    · exact .inr ⟨_, rfl⟩

end Service

end CacheAside
