import CacheAside.Time.Timestamp

/-!
# Days and dates

Every day has a date, and the date leads back to the day (`Date.dayNumber_ofDay`).  The year is
found by an estimate that misses by one at most (`Calendar.yearOf_spec`), the month by taking the
lengths of the months away one after another (`Calendar.splitMonth_spec`).
-/

namespace CacheAside

namespace Calendar

/-- A year ends where the next one begins. -/
theorem newYear_succ (year : Int) :
    newYear (year + 1) = newYear year + ((monthLengths (isLeap year)).foldl Nat.add 0 : Nat) := by
  have hlength : ((monthLengths (isLeap year)).foldl Nat.add 0) =
      if isLeap year then 366 else 365 := by
    cases isLeap year <;> rfl
  rw [hlength]
  simp only [newYear, daysBefore, isLeap, decide_eq_true_eq]
  split <;> omega

/-- Later years start later. -/
theorem newYear_mono {a b : Int} (le : a ≤ b) : newYear a ≤ newYear b := by
  rcases Int.lt_or_eq_of_le le with hlt | rfl
  · simp only [newYear, daysBefore]
    omega
  · exact Int.le_refl _

/-- A day lies in the year that is found for it. -/
theorem yearOf_spec (day : Int) :
    newYear (yearOf day) ≤ day ∧ day < newYear (yearOf day + 1) := by
  -- the estimate is too low or too high by one year at most
  have hlow : newYear ((day + epoch) * 400 / 146097 + 1 - 1) ≤ day := by
    simp only [newYear, daysBefore, epoch]
    omega
  have hhigh : day < newYear ((day + epoch) * 400 / 146097 + 1 + 1 + 1) := by
    simp only [newYear, daysBefore, epoch]
    omega
  simp only [yearOf]
  split
  · rename_i hbefore
    refine ⟨hlow, ?_⟩
    rwa [Int.sub_add_cancel]
  · rename_i hnot
    split
    · rename_i hafter
      exact ⟨hafter, hhigh⟩
    · rename_i hnot'
      exact ⟨Int.not_lt.mp hnot, Int.not_le.mp hnot'⟩

theorem sum_cons (length : Nat) (lengths : List Nat) :
    (length :: lengths).foldl Nat.add 0 = length + lengths.foldl Nat.add 0 := by
  have hfrom (n : Nat) : lengths.foldl Nat.add n = n + lengths.foldl Nat.add 0 := by
    induction lengths generalizing n with
    | nil => rfl
    | cons m lengths ih =>
      rw [List.foldl_cons, List.foldl_cons, ih (Nat.add n m), ih (Nat.add 0 m)]
      simp only [Nat.add_eq]
      omega
  rw [List.foldl_cons, hfrom (Nat.add 0 length), Nat.add_eq, Nat.zero_add]

/-- Where a day of the year lies: in a month that exists, on a day that the month has. -/
theorem splitMonth_spec {lengths : List Nat} {month rest : Nat}
    (h : rest < lengths.foldl Nat.add 0) :
    month ≤ (splitMonth lengths month rest).1 ∧
    (splitMonth lengths month rest).1 < month + lengths.length ∧
    1 ≤ (splitMonth lengths month rest).2 ∧
    (splitMonth lengths month rest).2 ≤
      lengths.getD ((splitMonth lengths month rest).1 - month) 0 ∧
    (lengths.take ((splitMonth lengths month rest).1 - month)).foldl Nat.add 0 +
      (splitMonth lengths month rest).2 = rest + 1 := by
  induction lengths generalizing month rest with
  | nil => cases h
  | cons length lengths ih =>
    rw [sum_cons] at h
    simp only [splitMonth]
    split
    · rename_i hlt
      simp
      omega
    · rename_i hge
      have hrest : rest - length < lengths.foldl Nat.add 0 := by omega
      obtain ⟨hmonth, hlast, hday, hlength, htotal⟩ := @ih (month + 1) (rest - length) hrest
      have hnext : (splitMonth lengths (month + 1) (rest - length)).1 - month =
        (splitMonth lengths (month + 1) (rest - length)).1 - (month + 1) + 1 := by omega
      refine ⟨by omega, ?_, hday, ?_, ?_⟩
      · simp only [List.length_cons]
        omega
      · rw [hnext, List.getD_cons_succ]
        exact hlength
      · rw [hnext, List.take_succ_cons, sum_cons]
        omega

end Calendar

namespace Date

open Calendar

/-- The date of a day exists. -/
theorem ofDay_spec (day : Int) :
    let date := ofDay day
    date.year = yearOf day ∧ (1 ≤ date.month ∧ date.month ≤ 12) ∧
      (1 ≤ date.day ∧ date.day ≤ date.months.getD (date.month - 1) 0) ∧ date.dayNumber = day := by
  obtain ⟨hstart, hend⟩ := yearOf_spec day
  rw [newYear_succ] at hend
  have hrest : (day - newYear (yearOf day)).toNat <
      (monthLengths (isLeap (yearOf day))).foldl Nat.add 0 := by omega
  obtain ⟨hfirst, hlast, hday, hlength, htotal⟩ := @splitMonth_spec _ 1 _ hrest
  have htwelve : (monthLengths (isLeap (yearOf day))).length = 12 := rfl
  refine ⟨rfl, ⟨hfirst, ?_⟩, ⟨hday, hlength⟩, ?_⟩
  · have hmonth : (ofDay day).month < 1 + 12 := htwelve ▸ hlast
    omega
  · simp only [dayNumber, months, ofDay]
    omega

theorem dayNumber_ofDay (day : Int) : (ofDay day).dayNumber = day :=
  (ofDay_spec day).2.2.2

theorem exists?_ofDay (day : Int) : (ofDay day).exists? = true := by
  obtain ⟨-, ⟨hfirst, hlast⟩, ⟨hday, hlength⟩, -⟩ := ofDay_spec day
  simp only [exists?, Bool.and_eq_true, decide_eq_true_eq]
  exact ⟨⟨⟨hfirst, hlast⟩, hday⟩, hlength⟩

/-- No month has more than 31 days. -/
theorem day_ofDay_le (day : Int) : (ofDay day).day ≤ 31 := by
  obtain ⟨-, -, ⟨-, hlength⟩, -⟩ := ofDay_spec day
  have hmost : ∀ leap, ∀ length ∈ monthLengths leap, length ≤ 31 := by decide
  refine Nat.le_trans hlength ?_
  rw [List.getD_eq_getElem?_getD]
  cases hget : (ofDay day).months[(ofDay day).month - 1]? with
  | none => exact Nat.zero_le _
  | some length => exact hmost _ length (List.mem_of_getElem? hget)

/-- The days that can be represented lie in the years from -262143 to 262142. -/
theorem year_ofDay {day : Int} (first : firstDay ≤ day) (last : day ≤ lastDay) :
    -262143 ≤ (ofDay day).year ∧ (ofDay day).year ≤ 262142 := by
  obtain ⟨hstart, hend⟩ := yearOf_spec day
  rw [(ofDay_spec day).1]
  refine ⟨Int.not_lt.mp fun hearly => ?_, Int.not_lt.mp fun hlate => ?_⟩
  · have hbefore : newYear (yearOf day + 1) ≤ firstDay := newYear_mono (b := -262143) (by omega)
    omega
  · have hafter : lastDay + 1 ≤ newYear (yearOf day) := newYear_mono (a := 262143) (by omega)
    omega

end Date

end CacheAside
