import CacheAside.Proofs.Fallible
import CacheAside.Proofs.RoundTrip.Calendar
import CacheAside.Proofs.RoundTrip.Digits

/-!
# Points in time read back

The text of a point in time leads back to it (`Timestamp.parse_toText`), in every year, at every
nanosecond and within leap seconds.  Reading goes through the text as writing does, one part after
another; each part is a run of digits that ends where its number is complete or where the next
character is no digit.
-/

namespace CacheAside

open Text

theorem isBlank_digit {c : Char} (digit : c.isDigit = true) : isBlank c = false := by
  have hcode : 48 ≤ c.toNat ∧ c.toNat ≤ 57 := by
    simpa [Char.isDigit, UInt32.le_iff_toNat_le] using digit
  rw [← Bool.not_eq_true, isBlank, CodeRanges.contains_iff]
  rintro ⟨range, hrange, hleast, hgreatest⟩
  have hapart : ∀ range ∈ blankRanges, range.2 < 48 ∨ 57 < range.1 := by decide
  rcases hapart range hrange with hbelow | habove <;> omega

/-- Nothing is skipped where no blank comes first. -/
theorem trimStart_cons {c : Char} (h : isBlank c = false) (cs : List Char) :
    trimStart (c :: cs) = c :: cs := by
  simp [trimStart, h]

/-- A run of digits that is not empty has a digit in front. -/
theorem AllDigits.exists_cons {ds : List Char} (digits : AllDigits ds) (ne : ds ≠ []) :
    ∃ c es, ds = c :: es ∧ c.isDigit = true := by
  obtain ⟨c, es, rfl⟩ := List.exists_cons_of_ne_nil ne
  exact ⟨c, es, rfl, digits c List.mem_cons_self⟩

theorem trimStart_digits {ds : List Char} (digits : AllDigits ds) (ne : ds ≠ [])
    (rest : List Char) : trimStart (ds ++ rest) = ds ++ rest := by
  obtain ⟨c, es, rfl, hc⟩ := digits.exists_cons ne
  exact trimStart_cons (isBlank_digit hc) (es ++ rest)

namespace Timestamp

/-! ## Numbers -/

/-- Digits are read as their number where none follows, or where no more of them are taken. -/
theorem number_digits {most : Option Nat} {ds rest : List Char} (digits : AllDigits ds)
    (ne : ds ≠ []) (fits : Nat.ofDigitChars 10 ds 0 < Nat.pow 2 63)
    (room : ∀ n ∈ most, ds.length ≤ n) (ends : EndsDigits rest ∨ most = some ds.length) :
    number most (ds ++ rest) = .ok (Nat.ofDigitChars 10 ds 0, rest) := by
  have hrun : most.elim ((ds ++ rest).takeWhile Char.isDigit)
      (fun n => ((ds ++ rest).takeWhile Char.isDigit).take n) = ds := by
    rcases ends with hends | rfl
    · rw [(takeWhile_digits digits hends).1]
      cases most with
      | none => rfl
      | some n => exact List.take_of_length_le (room n rfl)
    · rw [Option.elim_some, List.takeWhile_append_of_pos digits, List.take_left]
  have hdrop : (ds ++ rest).drop ds.length = rest := List.drop_left
  obtain ⟨c, es, rfl, -⟩ := digits.exists_cons ne
  rw [List.cons_append] at hrun hdrop ⊢
  rw [Nat.ofDigitChars_eq_foldl] at fits ⊢
  cases most <;>
  · simp only [Option.elim] at hrun
    simp only [number, hrun, if_pos fits, hdrop]

theorem fixedDigits_ne_nil {width : Nat} (pos : 0 < width) (n : Nat) : fixedDigits width n ≠ [] :=
  List.ne_nil_of_length_pos (by rwa [length_fixedDigits])

/-- A number is read from its fixed number of digits, which a word has room for. -/
theorem number_fixedDigits {most : Option Nat} {width n : Nat} {rest : List Char}
    (pos : 0 < width) (short : width ≤ 18) (lt : n < Nat.pow 10 width)
    (room : ∀ limit ∈ most, width ≤ limit) (ends : EndsDigits rest ∨ most = some width) :
    number most (fixedDigits width n ++ rest) = .ok (n, rest) := by
  have hlength := length_fixedDigits width n
  have hvalue : Nat.ofDigitChars 10 (fixedDigits width n) 0 = n := by
    rw [ofDigitChars_fixedDigits, Nat.mod_eq_of_lt lt]
  have hfits : n < Nat.pow 2 63 :=
    calc n < 10 ^ width := lt
      _ ≤ 10 ^ 18 := Nat.pow_le_pow_right (by decide) short
      _ ≤ Nat.pow 2 63 := by decide
  rw [number_digits (allDigits_fixedDigits width n) (fixedDigits_ne_nil pos n), hvalue]
  · rwa [hvalue]
  · rwa [hlength]
  · rwa [hlength]

/-- A number written with two digits is read where it is within the bounds. -/
theorem field_fixedDigits {least greatest n : Nat} (lt : n < 100) (low : least ≤ n)
    (high : n ≤ greatest) (rest : List Char) :
    field least greatest (fixedDigits 2 n ++ rest) = .ok (n, rest) := by
  have htrim := trimStart_digits (allDigits_fixedDigits 2 n) (fixedDigits_ne_nil (by decide) n) rest
  have hnumber : number (some 2) (fixedDigits 2 n ++ rest) = .ok (n, rest) :=
    number_fixedDigits (by decide) (by decide) lt (by simp) (.inr rfl)
  simp only [field, htrim, hnumber, ok_bind]
  rw [if_pos ⟨low, high⟩]

/-! ## Years -/

/-- The digits of a year with a sign. -/
theorem number_yearDigits {n : Nat} (lt : n < Nat.pow 2 63) {rest : List Char}
    (ends : EndsDigits rest) :
    number none (List.replicate (4 - (digitsOf n).length) '0' ++ digitsOf n ++ rest) =
      .ok (n, rest) := by
  have hvalue : Nat.ofDigitChars 10
      (List.replicate (4 - (digitsOf n).length) '0' ++ digitsOf n) 0 = n := by
    rw [← Json.natOfDigits_eq, Json.natOfDigits_append, Json.natOfDigits_zeros,
      Json.natOfDigits_digitsOf, Nat.mul_zero, Nat.zero_add]
  rw [number_digits ((allDigits_zeros _).append (allDigits_digitsOf n)), hvalue]
  · exact fun h => Nat.toDigits_ne_nil (List.append_eq_nil_iff.mp h).2
  · rwa [hvalue]
  · exact fun most hmost => nomatch hmost
  · exact .inl ends

/-- A digit in front is no sign, and the year has at most four digits. -/
theorem year_digits {y : Int} {ds rest : List Char} (digits : AllDigits ds) (ne : ds ≠ [])
    (read : number (some 4) (ds ++ rest) = .ok (y.toNat, rest)) (nonneg : 0 ≤ y)
    (range : -Int.pow 2 31 ≤ y ∧ y < Int.pow 2 31) : year (ds ++ rest) = .ok (y, rest) := by
  have htrim := trimStart_digits digits ne rest
  have hy : ((y.toNat : Nat) : Int) = y := Int.toNat_of_nonneg nonneg
  obtain ⟨c, es, rfl, hc⟩ := digits.exists_cons ne
  rw [List.cons_append] at read htrim ⊢
  simp only [year, htrim, Functor.map, Except.map, bind, Except.bind]
  split
  · rename_i hcons
    rw [(List.cons.inj hcons).1] at hc
    cases hc
  · rename_i hcons
    rw [(List.cons.inj hcons).1] at hc
    cases hc
  · simp only [read, hy, if_pos range]

theorem year_yearChars {y : Int} (first : -262143 ≤ y) (last : y ≤ 262142) {rest : List Char}
    (ends : EndsDigits rest) : year (yearChars y ++ rest) = .ok (y, rest) := by
  have hrange : -Int.pow 2 31 ≤ y ∧ y < Int.pow 2 31 := by
    have hpow : Int.pow 2 31 = 2147483648 := rfl
    omega
  have hfits : y.natAbs < Nat.pow 2 63 := by
    have hpow : Nat.pow 2 63 = 9223372036854775808 := rfl
    omega
  simp only [yearChars]
  split
  · rename_i hplain
    exact year_digits (allDigits_fixedDigits 4 y.toNat) (fixedDigits_ne_nil (by decide) _)
      (number_fixedDigits (by decide) (by decide) (show y.toNat < 10000 by omega) (by simp)
        (.inl ends)) hplain.1 hrange
  · simp only [List.cons_append]
    split
    · have hy : -((y.natAbs : Nat) : Int) = y := by omega
      simp only [year, trimStart_cons (show isBlank '-' = false from rfl),
        number_yearDigits hfits ends, Functor.map, Except.map, bind, Except.bind, hy, if_pos hrange]
    · have hy : ((y.natAbs : Nat) : Int) = y := by omega
      simp only [year, trimStart_cons (show isBlank '+' = false from rfl),
        number_yearDigits hfits ends, Functor.map, Except.map, bind, Except.bind, hy, if_pos hrange]

/-! ## Fractions of a second -/

/-- A fraction of at most nine digits counts nanoseconds. -/
theorem fraction_fixedDigits {width n : Nat} (pos : 0 < width) (le : width ≤ 9)
    (lt : n < Nat.pow 10 width) {rest : List Char} (ends : EndsDigits rest) :
    fraction (fixedDigits width n ++ rest) = .ok (n * Nat.pow 10 (9 - width), rest) := by
  have hlength := length_fixedDigits width n
  have hnumber : number (some 9) (fixedDigits width n ++ rest) = .ok (n, rest) :=
    number_fixedDigits pos (by omega) lt (by simpa using le) (.inl ends)
  have hnine : (fixedDigits width n ++ List.replicate 9 '0').take 9 =
      fixedDigits width n ++ List.replicate (9 - width) '0' := by
    rw [List.take_append, hlength, List.take_of_length_le (by omega), List.take_replicate,
      Nat.min_eq_left (by omega)]
  have hdrop : (fixedDigits width n ++ rest).drop (fixedDigits width n).length = rest :=
    List.drop_left
  simp only [fraction, hnumber, ok_bind,
    (takeWhile_digits (allDigits_fixedDigits width n) ends).1, hdrop, hnine]
  rw [← Nat.ofDigitChars_eq_foldl, Nat.ofDigitChars_append, ofDigitChars_fixedDigits,
    Nat.mod_eq_of_lt lt, Nat.ofDigitChars_replicate_zero, Nat.mul_comm, Nat.pow_eq]

/-- The fraction of a second is left out where it is zero, and else read back. -/
theorem fractionChars_cases {nano : Nat} (lt : nano < nanosPerSecond) {rest : List Char}
    (ends : EndsDigits rest) :
    (nano = 0 ∧ fractionChars nano = []) ∨
    ∃ ds, fractionChars nano = '.' :: ds ∧ fraction (ds ++ rest) = .ok (nano, rest) := by
  have hlimit : nano < 1000000000 := lt
  have hread {width n : Nat} (pos : 0 < width) (le : width ≤ 9) (few : n < Nat.pow 10 width)
      (value : n * Nat.pow 10 (9 - width) = nano) :
      fraction (fixedDigits width n ++ rest) = .ok (nano, rest) := by
    rw [fraction_fixedDigits pos le few ends, value]
  simp only [fractionChars]
  split
  · rename_i hzero
    exact .inl ⟨hzero, rfl⟩
  · right
    split
    · exact ⟨_, rfl, hread (by decide) (by decide) (show nano / 1000000 < 1000 by omega)
        (show nano / 1000000 * 1000000 = nano by omega)⟩
    · split
      · exact ⟨_, rfl, hread (by decide) (by decide) (show nano / 1000 < 1000000 by omega)
          (show nano / 1000 * 1000 = nano by omega)⟩
      · exact ⟨_, rfl, hread (by decide) (by decide) hlimit (Nat.mul_one nano)⟩

/-! ## The whole text -/

theorem separator_cons {c : Char} (h : isBlank c = false) (rest : List Char) :
    separator c (c :: rest) = .ok rest := by
  simp [separator, trimStart_cons h]

theorem ofParts?_parts (t : Timestamp) : ofParts? t.day t.second t.nano = some t :=
  dif_pos ⟨t.firstDay_le, t.le_lastDay, t.second_lt, t.nano_lt, t.leap⟩

/-- A local time of UTC is the point itself. -/
theorem ofLocal_ofDay (t : Timestamp) :
    ofLocal (Date.ofDay t.day) t.second t.nano 0 = .ok t := by
  have hfirst := t.firstDay_le
  have hlast := t.le_lastDay
  have hlt : t.second < 86400 := t.second_lt
  have hday : t.day + ((t.second : Int) - 0 * 60) / (secondsPerDay : Nat) = t.day := by
    simp only [secondsPerDay]
    omega
  have hsecond : (((t.second : Int) - 0 * 60) % (secondsPerDay : Nat)).toNat = t.second := by
    simp only [secondsPerDay]
    omega
  simp only [ofLocal, Date.exists?_ofDay, Date.dayNumber_ofDay, hday, hsecond, ofParts?_parts]
  rw [if_neg]
  simp
  omega

/-- The characters of a point in time lead back to it. -/
theorem parseChars_toChars (t : Timestamp) : parseChars t.toChars = .ok t := by
  have hsecondLt : t.second < 86400 := t.second_lt
  have hnanoLt : t.nano < 2 * 1000000000 := t.nano_lt
  have hleap : 1000000000 ≤ t.nano → t.second % 60 = 59 := t.leap
  obtain ⟨hfirst, hlast⟩ := Date.year_ofDay t.firstDay_le t.le_lastDay
  obtain ⟨-, ⟨hmonth, hmonths⟩, ⟨hday, -⟩, -⟩ := Date.ofDay_spec t.day
  have hdays := Date.day_ofDay_le t.day
  have hhours : t.second / 3600 ≤ 23 := by omega
  have hminutes : t.second / 60 % 60 ≤ 59 := by omega
  have hseconds : t.second % 60 + t.nano / nanosPerSecond ≤ 60 := by
    simp only [nanosPerSecond]
    omega
  -- a leap second shows as second 60 and as nothing else does
  have hshown : (if t.second % 60 + t.nano / nanosPerSecond = 60 then 1 else 0) =
      t.nano / nanosPerSecond := by
    simp only [nanosPerSecond]
    split <;> omega
  have hsecond : t.second / 3600 * 3600 + t.second / 60 % 60 * 60 + t.second % 60 = t.second := by
    omega
  have hnano : t.nano % nanosPerSecond + t.nano / nanosPerSecond * nanosPerSecond = t.nano :=
    Nat.mod_add_div' t.nano nanosPerSecond
  have hends : EndsDigits ['Z'] := endsDigits_cons rfl
  have hyear (rest : List Char) : year (yearChars (Date.ofDay t.day).year ++ '-' :: rest) =
      .ok ((Date.ofDay t.day).year, '-' :: rest) :=
    year_yearChars hfirst hlast (endsDigits_cons rfl)
  have hminus (rest : List Char) : separator '-' ('-' :: rest) = .ok rest :=
    separator_cons rfl rest
  have hcolon (rest : List Char) : separator ':' (':' :: rest) = .ok rest :=
    separator_cons rfl rest
  have hT (rest : List Char) : dateEnd ('T' :: rest) = .ok rest := rfl
  have hzone : zone (trimStart ['Z']) = .ok (0, []) := rfl
  have hdone : trimStart [] = [] := rfl
  simp only [parseChars, toChars, List.append_assoc, List.cons_append, hyear, hminus, hcolon, hT,
    ok_bind, field_fixedDigits (Nat.lt_of_le_of_lt hmonths (by decide)) hmonth hmonths,
    field_fixedDigits (Nat.lt_of_le_of_lt hdays (by decide)) hday hdays,
    field_fixedDigits (Nat.lt_of_le_of_lt hhours (by decide)) (Nat.zero_le _) hhours,
    field_fixedDigits (Nat.lt_of_le_of_lt hminutes (by decide)) (Nat.zero_le _) hminutes,
    field_fixedDigits (Nat.lt_of_le_of_lt hseconds (by decide)) (Nat.zero_le _) hseconds]
  rcases fractionChars_cases (Nat.mod_lt t.nano (by decide)) hends with
    ⟨hzero, hchars⟩ | ⟨ds, hchars, hfraction⟩
  · rw [hzero] at hnano
    simp only [hchars, List.nil_append, ok_bind, hzone, hdone, ne_eq, not_true_eq_false, if_false,
      hshown, Nat.add_sub_cancel, hsecond, hnano]
    exact ofLocal_ofDay t
  · simp only [hchars, List.cons_append, hfraction, ok_bind, hzone, hdone, ne_eq,
      not_true_eq_false, if_false, hshown, Nat.add_sub_cancel, hsecond, hnano]
    exact ofLocal_ofDay t

theorem parse_toText (t : Timestamp) : parse t.toText = .ok t := by
  rw [parse, toText, String.toList_ofList]
  exact parseChars_toChars t

end Timestamp

end CacheAside
