/-!
# Computations that can fail

A computation of two parts succeeds when the first part does and the second does with its result.
What decoders, readers and checks accept is told from their parts by this.
-/

namespace CacheAside

variable {ε δ α β : Type} {x : Except ε α}

@[simp] theorem ok_bind (a : α) (f : α → Except ε β) : (.ok a >>= f) = f a := by
  -- By `rfl`, every use of this in `simp` would leave it to the kernel to run the two sides.
  simp [bind, Except.bind]

theorem bind_eq_ok {f : α → Except ε β} {b : β} :
    (x >>= f) = .ok b ↔ ∃ a, x = .ok a ∧ f a = .ok b := by
  cases x <;> simp [bind, Except.bind]

theorem map_eq_ok {f : α → β} {b : β} : f <$> x = .ok b ↔ ∃ a, x = .ok a ∧ f a = b := by
  cases x <;> simp [Functor.map, Except.map]

/-- To report an error in another way does not change what succeeds. -/
theorem mapError_eq_ok {f : ε → δ} {a : α} : x.mapError f = .ok a ↔ x = .ok a := by
  cases x with
  | ok b => constructor <;> (intro h; cases h; rfl)
  | error e => constructor <;> (intro h; cases h)

end CacheAside
