import CacheAside.Ident
import CacheAside.Time.Timestamp

/-!
# New identifiers

A new identifier takes the milliseconds of the clock, zero before 1970, and random bits.  The
identifier zero means "none" and is never given out: the generator draws again.
-/

namespace CacheAside.Ident

variable {kind : IdentKind}

/-- The identifier of a moment and of random bits. -/
def stamped (now : Timestamp) (random : Nat) : Ident kind :=
  ofParts (max 0 now.unixMillis).toNat random

/-- The first identifier of the moment that is not nil, and the random bits that were not drawn. -/
def generate? (now : Timestamp) : (random : List Nat) → Option (Ident kind × List Nat)
  | [] => none
  | draw :: random =>
    let id : Ident kind := stamped now draw
    if id.isNil then generate? now random else some (id, random)

end CacheAside.Ident
