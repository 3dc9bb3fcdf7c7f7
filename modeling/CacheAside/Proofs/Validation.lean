import CacheAside.Proofs.Fallible
import CacheAside.Proofs.Store
import Mathlib.Logic.Unique

/-!
# What the store makes of a valid record

The rules are checked before a record goes to the store, and the store writes the times into it
afterwards, by a clock of its own.  No clock can break a rule in this way: a new record has not been
updated, and an update is never stamped with a time before the creation.
-/

namespace CacheAside

namespace Timestamp

theorem lt_irrefl (t : Timestamp) : ¬ t < t := by
  simp [show t < t ↔ t.before t = true from Iff.rfl, before]

/-- The later of two points in time is not before the second. -/
theorem not_latest_lt (s t : Timestamp) : ¬ s.latest t < t := by
  unfold latest
  split
  · exact t.lt_irrefl
  · assumption

end Timestamp

namespace Limits

variable {limits : Limits} {r : Record}

theorem checkTimes_eq_ok {createdAt : Timestamp} {updatedAt : Option Timestamp} :
    checkTimes createdAt updatedAt = .ok () ↔ ∀ t, updatedAt = some t → ¬ t < createdAt := by
  unfold checkTimes
  cases updatedAt with
  | none => simp
  | some t => simp [ite_eq_right_iff]

theorem throw_if_eq_ok {P : Prop} [Decidable P] {e : ValidationError}
    {f : Unit → Except ValidationError Unit} :
    (if P then throw e >>= f else f ()) = .ok () ↔ ¬ P ∧ f () = .ok () := by
  by_cases h : P <;> simp [h, throw, throwThe, MonadExceptOf.throw, bind, Except.bind]

/-- A record passes when it breaks none of the rules. -/
theorem check_eq_ok : limits.check r = .ok () ↔
    r.id.isNil = false ∧ limits.checkLabel r.label = .ok () ∧ checkWeight r.weight = .ok () ∧
      r.tags.length ≤ limits.maxTags ∧ limits.checkTags r.tags = .ok () ∧
      checkTimes r.createdAt r.updatedAt = .ok () := by
  simp only [check, throw_if_eq_ok, bind_eq_ok, Unique.exists_iff, PUnit.default_eq_unit,
    Bool.not_eq_true, Nat.not_lt]

/-- The times are all that the store changes in a record, and as long as they are in order it goes
on to pass. -/
theorem check_of_times (h : limits.check r = .ok ()) {createdAt : Timestamp}
    {updatedAt : Option Timestamp} (times : ∀ t, updatedAt = some t → ¬ t < createdAt) :
    limits.check { r with createdAt, updatedAt } = .ok () := by
  -- the times of the record as it was checked do not matter
  obtain ⟨hnil, hlabel, hweight, hcount, htags, -⟩ := check_eq_ok.mp h
  exact check_eq_ok.mpr ⟨hnil, hlabel, hweight, hcount, htags, checkTimes_eq_ok.mpr times⟩

end Limits

namespace Store

variable {s s' : Store} {now : Timestamp} {limits : Limits} {r stored : Record}

theorem check_of_create (h : s.create now r = .ok (stored, s')) (valid : limits.check r = .ok ()) :
    limits.check stored = .ok () := by
  obtain ⟨-, rfl, -⟩ := create_eq_ok h
  exact Limits.check_of_times valid (by simp)

theorem check_of_update (h : s.update now r = .ok (stored, s')) (valid : limits.check r = .ok ()) :
    limits.check stored = .ok () := by
  obtain ⟨old, -, rfl, -⟩ := update_eq_ok h
  refine Limits.check_of_times valid fun t ht => ?_
  obtain rfl := Option.some.inj ht
  exact Timestamp.not_latest_lt now old.createdAt

end Store

end CacheAside
