import CacheAside.Time.Timestamp

/-!
# Clocks

Everything that stamps times reads a clock: that of the system, or one that stands still.
-/

namespace CacheAside

inductive Clock where
  | system
  | fixed (time : Timestamp)
  deriving DecidableEq, Repr

/-- What the clock shows while the system's shows `systemTime`. -/
def Clock.read (systemTime : Timestamp) : Clock → Timestamp
  | .system => systemTime
  | .fixed time => time

end CacheAside
