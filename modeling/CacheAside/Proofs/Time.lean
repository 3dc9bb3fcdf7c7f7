import CacheAside.Time.Timestamp

/-!
# Moments and spans of time

Moments are compared part by part (`Timestamp.lt_iff`), and one that is not later than another comes
before whatever comes after that one (`Timestamp.lt_of_not_lt_of_lt`).  A moment that is moved on by
whole seconds lies as many seconds later, unless that is beyond the last day
(`Timestamp.shift?_seconds`).
-/

namespace CacheAside.Timestamp

/-! ## Order -/

theorem lt_iff {s t : Timestamp} :
    s < t ↔ s.day < t.day ∨ s.day = t.day ∧ (s.second < t.second ∨
      s.second = t.second ∧ s.nano < t.nano) := by
  show s.before t = true ↔ _
  simp only [before, Bool.or_eq_true, Bool.and_eq_true, beq_iff_eq, decide_eq_true_eq]

/-- What comes after a moment comes after all moments that are not later. -/
theorem lt_of_not_lt_of_lt {s t u : Timestamp} (notLater : ¬ t < s) (before : t < u) : s < u := by
  rw [lt_iff] at notLater before ⊢
  omega

/-! ## Spans of whole seconds -/

/-- Seconds since the beginning of 1970; a leap second counts as the one before it. -/
def unixSeconds (t : Timestamp) : Int :=
  t.day * secondsPerDay + t.second

/-- The first second that no moment has. -/
def endOfTime : Int :=
  (lastDay + 1) * secondsPerDay

theorem unixSeconds_lt (t : Timestamp) : t.unixSeconds < endOfTime := by
  have hday := t.le_lastDay
  have hsecond := t.second_lt
  simp only [unixSeconds, endOfTime, secondsPerDay] at *
  omega

theorem ofParts?_eq_none {day : Int} {second nano : Nat} (first : firstDay ≤ day)
    (hsecond : second < secondsPerDay) (hnano : nano < nanosPerSecond) :
    ofParts? day second nano = none ↔ lastDay < day := by
  have hnotLeap : nanosPerSecond ≤ nano → second % 60 = 59 := fun h =>
    absurd hnano (Nat.not_lt.mpr h)
  have hnano' : nano < 2 * nanosPerSecond := Nat.lt_of_lt_of_le hnano (by decide)
  simp only [ofParts?, dite_eq_right_iff, reduceCtorEq, imp_false]
  constructor
  · intro h
    exact Int.not_le.mp fun hday => h ⟨first, hday, hsecond, hnano', hnotLeap⟩
  · rintro h ⟨-, hday, -⟩
    omega

/-- A day and some seconds and nanoseconds make up a moment, unless that is beyond the last day. -/
theorem ofDayNanos?_seconds {day : Int} (seconds : Nat) {nano : Nat} (first : firstDay ≤ day)
    (hnano : nano < nanosPerSecond) :
    match ofDayNanos? day (seconds * nanosPerSecond + nano) with
    | some t => t.unixSeconds = day * secondsPerDay + seconds ∧ t.nano = nano
    | none => endOfTime ≤ day * secondsPerDay + seconds := by
  have hday : ((seconds * nanosPerSecond + nano : Int) / (secondsPerDay * nanosPerSecond : Int)) =
      (seconds / secondsPerDay : Nat) := by
    simp only [nanosPerSecond, secondsPerDay] at hnano ⊢
    omega
  have hrest : ((seconds * nanosPerSecond + nano : Int) %
      (secondsPerDay * nanosPerSecond : Int)).toNat =
        (seconds % secondsPerDay) * nanosPerSecond + nano := by
    simp only [nanosPerSecond, secondsPerDay] at hnano ⊢
    omega
  have hsecond : ((seconds % secondsPerDay) * nanosPerSecond + nano) / nanosPerSecond =
      seconds % secondsPerDay := by
    simp only [nanosPerSecond, secondsPerDay] at hnano ⊢
    omega
  have hleft : ((seconds % secondsPerDay) * nanosPerSecond + nano) % nanosPerSecond = nano := by
    simp only [nanosPerSecond, secondsPerDay] at hnano ⊢
    omega
  simp only [ofDayNanos?, hday, hrest, hsecond, hleft]
  have hsmall : seconds % secondsPerDay < secondsPerDay := Nat.mod_lt _ (by decide)
  have hfirst : firstDay ≤ day + (seconds / secondsPerDay : Nat) :=
    Int.le_trans first (Int.le_add_of_nonneg_right (Int.natCast_nonneg _))
  have hnone := ofParts?_eq_none hfirst hsmall hnano
  split
  · rename_i t heq
    simp only [ofParts?, Option.dite_none_right_eq_some, Option.some.injEq] at heq
    obtain ⟨_, rfl⟩ := heq
    refine ⟨?_, rfl⟩
    simp only [unixSeconds, secondsPerDay]
    omega
  · rename_i heq
    have hbeyond := hnone.mp heq
    simp only [endOfTime, secondsPerDay] at hbeyond ⊢
    omega

/-- A moment that is moved on by some whole seconds lies so many seconds later, unless that is
beyond the last day. -/
theorem shift?_seconds (t : Timestamp) {seconds : Nat} (pos : 0 < seconds) :
    match t.shift? (seconds * nanosPerSecond : Nat) with
    | some t' => t'.unixSeconds = t.unixSeconds + seconds ∧ t'.nano = t.nano % nanosPerSecond
    | none => endOfTime ≤ t.unixSeconds + seconds := by
  have hdiv : ((seconds * nanosPerSecond : Nat) : Int).tdiv nanosPerSecond = seconds := by
    rw [Int.natCast_mul]
    exact Int.mul_tdiv_cancel _ (by decide)
  have hmod : ((seconds * nanosPerSecond : Nat) : Int).tmod nanosPerSecond = 0 := by
    rw [Int.natCast_mul]
    exact Int.mul_tmod_left _ _
  have hpos : 0 < (seconds : Int) := by omega
  have hnano := t.nano_lt
  have hshift : t.shift? (seconds * nanosPerSecond : Nat) = ofDayNanos? t.day
      ((t.second + seconds : Nat) * nanosPerSecond + (t.nano % nanosPerSecond : Nat)) := by
    simp only [shift?, hdiv, hmod, hpos, true_or, if_true, Int.add_zero]
    split
    · rename_i hplain
      rw [Nat.mod_eq_of_lt hplain]
      rfl
    · -- within a leap second the span counts from the second before it
      rename_i hleap
      congr 1
      simp only [nanosPerSecond] at hleap hnano ⊢
      omega
  have hspec := ofDayNanos?_seconds (t.second + seconds) t.firstDay_le
    (Nat.mod_lt t.nano (by decide : 0 < nanosPerSecond))
  have hsum : t.day * secondsPerDay + (t.second + seconds : Nat) = t.unixSeconds + seconds := by
    simp only [unixSeconds]
    omega
  rw [hshift]
  rwa [hsum] at hspec

end CacheAside.Timestamp
