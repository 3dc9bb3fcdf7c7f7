import CacheAside.Service.Refresh

/-!
# What the books on refreshes say

Which refreshes of a record are on the list after one has started, after they were all taken and
after one has ended.  The other records keep theirs.
-/

namespace CacheAside.RefreshTracker

@[simp] theorem pending_spawn (t : RefreshTracker) (id key : RecordId) :
    (t.spawn id).2.pending key = if key = id then t.pending id ++ [t.next] else t.pending key := by
  by_cases h : key = id <;> simp [spawn, pending, h]

@[simp] theorem pending_take (t : RefreshTracker) (id key : RecordId) :
    (t.take id).2.pending key = if key = id then [] else t.pending key := by
  by_cases h : key = id <;> simp [take, pending, h]

@[simp] theorem pending_finish (t : RefreshTracker) (id key : RecordId) (ticket : Ticket) :
    (t.finish id ticket).pending key =
      if key = id then (t.pending id).filter (· ≠ ticket) else t.pending key := by
  unfold finish
  split
  · rename_i hslot
    by_cases h : key = id <;> simp [pending, h, hslot]
  · rename_i tickets hslot
    dsimp only
    split
    · -- the last refresh has ended, and the slot goes with it
      rename_i hempty
      have hleft : tickets.filter (· ≠ ticket) = [] := List.isEmpty_iff.mp hempty
      by_cases h : key = id
      · subst h
        simpa [pending, hslot] using hleft.symm
      · simp [pending, h]
    · by_cases h : key = id <;> simp [pending, h, hslot]

@[simp] theorem next_finish (t : RefreshTracker) (id : RecordId) (ticket : Ticket) :
    (t.finish id ticket).next = t.next := by
  unfold finish
  split <;> rfl

end CacheAside.RefreshTracker
