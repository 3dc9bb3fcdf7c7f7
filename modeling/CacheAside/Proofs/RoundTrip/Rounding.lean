import CacheAside.Decimal.Shortest

/-!
# Decimals that read back

Reading rounds a decimal to the nearest number.  It does not matter how the decimal is written as a
ratio (`nearestRank_mul`), so neither trailing zeros nor the place of the point count.  The decimal
that is chosen for a number reads as that number (`Decimal.rank_shortest`), and the short cuts for
very large and very small exponents lead to the same result as the long way
(`Binary64.ofDecimal_eq`).
-/

namespace CacheAside

namespace Binary64

/-- Rounding sees a ratio, not its numerator and denominator. -/
theorem nearestRank_mul (num den : Nat) {k : Nat} (pos : 0 < k) :
    nearestRank (num * k) (den * k) = nearestRank num den := by
  simp only [nearestRank]
  generalize Nat.pow 2 1074 = unit
  rw [Nat.mul_right_comm num k unit, Nat.mul_div_mul_right _ _ pos]
  generalize (if num * unit / den < Nat.pow 2 53 then 0 else Nat.log2 (num * unit / den) - 52) =
    shift
  rw [Nat.mul_right_comm den k, Nat.mul_div_mul_right _ _ pos, Nat.mul_mod_mul_right]
  generalize num * unit % (den * Nat.pow 2 shift) = rest
  generalize den * Nat.pow 2 shift = step
  have hlt : 2 * (rest * k) < step * k ↔ 2 * rest < step := by
    rw [← Nat.mul_assoc]
    exact Nat.mul_lt_mul_right pos
  have heq : 2 * (rest * k) = step * k ↔ 2 * rest = step := by
    rw [← Nat.mul_assoc]
    exact Nat.mul_left_inj (Nat.ne_of_gt pos)
  simp only [hlt, heq]

/-- Less than half a unit is rounded to zero. -/
theorem nearestRank_eq_zero {num den : Nat} (lt : 2 * (num * Nat.pow 2 1074) < den) :
    nearestRank num den = 0 := by
  simp only [nearestRank]
  generalize num * Nat.pow 2 1074 = scaled at lt ⊢
  have hzero : scaled / den = 0 := Nat.div_eq_of_lt (by omega)
  have hmod : scaled % den = scaled := Nat.mod_eq_of_lt (by omega)
  have hpos : (0 : Nat) < Nat.pow 2 53 := Nat.pow_pos (by decide)
  simp [hzero, hmod, hpos, lt]

/-- The quotient of a value from 2^53 units on has 53 binary digits. -/
theorem le_quotient {whole : Nat} (le : Nat.pow 2 53 ≤ whole) :
    Nat.pow 2 52 ≤ whole / Nat.pow 2 (Nat.log2 whole - 52) := by
  have hne : whole ≠ 0 := Nat.ne_of_gt (Nat.lt_of_lt_of_le (Nat.pow_pos (by decide)) le)
  have hlog : 53 ≤ Nat.log2 whole := (Nat.le_log2 hne).mpr le
  have hpos : 0 < Nat.pow 2 (Nat.log2 whole - 52) := Nat.pow_pos (by decide)
  rw [Nat.le_div_iff_mul_le hpos]
  have hpow : Nat.pow 2 52 * Nat.pow 2 (Nat.log2 whole - 52) = 2 ^ Nat.log2 whole := by
    rw [Nat.pow_eq, Nat.pow_eq, ← Nat.pow_add]
    congr 1
    omega
  rw [hpow]
  exact Nat.log2_self_le hne

/-- From 2^1024 on, nothing is finite. -/
theorem finiteCount_le_nearestRank {num den exponent : Nat} (pos : 0 < den)
    (large : 1024 ≤ exponent) (le : den * Nat.pow 2 exponent ≤ num) :
    finiteCount ≤ nearestRank num den := by
  simp only [nearestRank, finiteCount]
  generalize hplaces : (1074 : Nat) = places
  have hwhole : 2 ^ (exponent + places) ≤ num * Nat.pow 2 places / den := by
    rw [Nat.le_div_iff_mul_le pos]
    calc 2 ^ (exponent + places) * den = den * 2 ^ exponent * 2 ^ places := by
          rw [Nat.mul_comm, Nat.pow_add, Nat.mul_assoc]
      _ ≤ num * 2 ^ places := Nat.mul_le_mul_right _ le
  have hne : num * Nat.pow 2 places / den ≠ 0 :=
    Nat.ne_of_gt (Nat.lt_of_lt_of_le (Nat.pow_pos (by decide)) hwhole)
  have hlarge : Nat.pow 2 53 ≤ num * Nat.pow 2 places / den :=
    Nat.le_trans (Nat.pow_le_pow_right (by decide) (by omega)) hwhole
  have hlog : exponent + places ≤ Nat.log2 (num * Nat.pow 2 places / den) :=
    (Nat.le_log2 hne).mpr hwhole
  have hquotient := le_quotient hlarge
  rw [Nat.div_div_eq_div_mul] at hquotient
  rw [if_neg (Nat.not_lt.mpr hlarge)]
  have hshift : 2046 * Nat.pow 2 52 ≤
      (Nat.log2 (num * Nat.pow 2 places / den) - 52) * Nat.pow 2 52 :=
    Nat.mul_le_mul_right _ (by omega)
  generalize Nat.log2 (num * Nat.pow 2 places / den) - 52 = shift at *
  generalize num * Nat.pow 2 places / (den * Nat.pow 2 shift) = quotient at *
  split <;> omega

/-- A value that is a whole number of steps is not rounded. -/
theorem nearestRank_exact {quotient shift : Nat} (lt : quotient < Nat.pow 2 53)
    (normal : shift = 0 ∨ Nat.pow 2 52 ≤ quotient) :
    nearestRank (quotient * Nat.pow 2 shift) (Nat.pow 2 1074) =
      shift * Nat.pow 2 52 + quotient := by
  have hpos (n : Nat) : 0 < Nat.pow 2 n := Nat.pow_pos (by decide)
  have hfound : (if quotient * Nat.pow 2 shift < Nat.pow 2 53 then 0
      else Nat.log2 (quotient * Nat.pow 2 shift) - 52) = shift := by
    rcases normal with rfl | hle
    · rw [show Nat.pow 2 0 = 1 from rfl, Nat.mul_one, if_pos lt]
    · have hne : quotient * Nat.pow 2 shift ≠ 0 :=
        Nat.ne_of_gt (Nat.mul_pos (Nat.lt_of_lt_of_le (hpos 52) hle) (hpos shift))
      have hlog : Nat.log2 (quotient * Nat.pow 2 shift) = 52 + shift := by
        rw [Nat.log2_eq_iff hne]
        constructor
        · rw [Nat.pow_add]
          exact Nat.mul_le_mul_right _ hle
        · rw [Nat.add_right_comm, Nat.pow_add]
          exact Nat.mul_lt_mul_of_pos_right lt (hpos shift)
      rw [hlog, Nat.add_sub_cancel_left]
      split
      · rename_i hsmall
        cases shift with
        | zero => rfl
        | succ shift =>
          have hlarge : Nat.pow 2 52 * 2 ≤ quotient * Nat.pow 2 (shift + 1) :=
            Nat.mul_le_mul hle (Nat.le_self_pow (Nat.succ_ne_zero shift) 2)
          exact absurd hsmall (Nat.not_lt.mpr hlarge)
      · rfl
  simp only [nearestRank]
  generalize (1074 : Nat) = places
  have hsteps : quotient * Nat.pow 2 shift * Nat.pow 2 places =
      quotient * (Nat.pow 2 places * Nat.pow 2 shift) := by
    rw [Nat.mul_assoc, Nat.mul_comm (Nat.pow 2 places)]
  have hstep : 0 < Nat.pow 2 places * Nat.pow 2 shift := Nat.mul_pos (hpos places) (hpos shift)
  rw [Nat.mul_div_cancel _ (hpos places), hfound, hsteps, Nat.mul_div_cancel _ hstep,
    Nat.mul_mod_left, if_pos (.inl (by omega))]

/-- The exact value of a rank is rounded to it. -/
theorem nearestRank_units (rank : Nat) : nearestRank (units rank) (Nat.pow 2 1074) = rank := by
  have hpos : 0 < Nat.pow 2 52 := Nat.pow_pos (by decide)
  have hdouble : Nat.pow 2 53 = 2 * Nat.pow 2 52 := rfl
  have hmod : rank % Nat.pow 2 52 < Nat.pow 2 52 := Nat.mod_lt rank hpos
  simp only [units]
  split
  · rename_i hlt
    have hexact := @nearestRank_exact rank 0 (by omega) (.inl rfl)
    rw [show Nat.pow 2 0 = 1 from rfl, Nat.mul_one] at hexact
    rw [hexact, Nat.zero_mul, Nat.zero_add]
  · rename_i hge
    have hexponent : 1 ≤ rank / Nat.pow 2 52 := Nat.div_pos (Nat.not_lt.mp hge) hpos
    rw [nearestRank_exact (by omega) (.inr (Nat.le_add_right _ _)), ← Nat.add_assoc,
      ← Nat.succ_mul, Nat.succ_eq_add_one, Nat.sub_add_cancel hexponent]
    exact Nat.div_add_mod' rank (Nat.pow 2 52)

end Binary64

namespace Decimal

open Binary64

/-! ## Decimals of the same value -/

/-- A trailing zero may be moved into the exponent. -/
theorem rank_ten (n : Nat) (e : Int) : rank ⟨10 * n, e⟩ = rank ⟨n, e + 1⟩ := by
  rcases Int.lt_or_le e 0 with hneg | hnonneg
  · have hnum : Nat.pow 10 e.toNat = Nat.pow 10 (e + 1).toNat := by
      rw [Int.toNat_of_nonpos (by omega), Int.toNat_of_nonpos (by omega)]
    have hden : Nat.pow 10 (-e).toNat = Nat.pow 10 (-(e + 1)).toNat * 10 := by
      rw [show (-e).toNat = (-(e + 1)).toNat + 1 by omega]
      rfl
    simp only [rank]
    rw [hden, ← hnum, Nat.mul_comm 10 n, Nat.mul_right_comm, nearestRank_mul _ _ (by decide)]
  · have hnum : Nat.pow 10 (e + 1).toNat = Nat.pow 10 e.toNat * 10 := by
      rw [show (e + 1).toNat = e.toNat + 1 by omega]
      rfl
    have hden : (-e).toNat = (-(e + 1)).toNat := by omega
    simp only [rank]
    rw [hden, hnum, Nat.mul_comm 10 n, Nat.mul_assoc, Nat.mul_comm 10]

/-- So may any number of trailing zeros. -/
theorem rank_zeros (n k : Nat) (e : Int) : rank ⟨Nat.pow 10 k * n, e⟩ = rank ⟨n, e + k⟩ := by
  induction k generalizing e with
  | zero => simp
  | succ k ih =>
    rw [Nat.pow_eq, Nat.pow_succ', Nat.mul_assoc, rank_ten, ← Nat.pow_eq, ih, Int.add_assoc,
      Int.add_comm 1, Int.natCast_succ]

theorem rank_strip (fuel : Nat) (d : Decimal) : (strip fuel d).rank = d.rank := by
  induction fuel generalizing d with
  | zero => rfl
  | succ fuel ih =>
    simp only [strip]
    split
    · rename_i hzero
      rw [ih, ← rank_ten, Nat.mul_div_cancel' (Nat.dvd_of_mod_eq_zero hzero)]
    · rfl

/-- The exact value of a rank has that rank. -/
theorem rank_exact (rank : Nat) : (exact rank).rank = rank := by
  have hfives (k : Nat) : nearestRank (units rank * Nat.pow 5 k) (Nat.pow 10 k) =
      nearestRank (units rank) (Nat.pow 2 k) := by
    rw [show Nat.pow 10 k = Nat.pow 2 k * Nat.pow 5 k from Nat.mul_pow 2 5 k]
    exact nearestRank_mul _ _ (Nat.pow_pos (by decide))
  have hone : Nat.pow 10 0 = 1 := rfl
  have htoNat : (-1074 : Int).toNat = 0 := rfl
  have hneg : (-(-1074) : Int).toNat = 1074 := rfl
  simp only [exact, Decimal.rank, htoNat, hneg, hone, Nat.mul_one]
  have hunits := nearestRank_units rank
  generalize (1074 : Nat) = places at hunits ⊢
  rw [hfives, hunits]

theorem rank_of_onGrid? {rank : Nat} {exponent : Int} {d : Decimal}
    (h : onGrid? rank exponent = some d) : d.rank = rank := by
  simp only [onGrid?] at h
  split at h
  · rename_i hboth
    obtain rfl := Option.some.inj h
    rw [apply_ite Decimal.rank, hboth.1, hboth.2, ite_self]
  · split at h
    · rename_i hlow
      obtain rfl := Option.some.inj h
      exact hlow
    · split at h
      · rename_i hhigh
        obtain rfl := Option.some.inj h
        exact hhigh
      · cases h

/-- The decimal that is chosen for a rank reads as that rank. -/
theorem rank_shortest (rank : Nat) : (shortest rank).rank = rank := by
  simp only [shortest, rank_strip]
  cases hfound : (List.range 17).findSome? fun n => onGrid? rank (scale rank - (n + 1 : Nat)) with
  | none => exact rank_exact rank
  | some d =>
    obtain ⟨n, -, hn⟩ := List.exists_of_findSome?_eq_some hfound
    exact rank_of_onGrid? hn

/-! ## The short cuts of reading -/

theorem rank_zero (e : Int) : rank ⟨0, e⟩ = 0 := by
  apply nearestRank_eq_zero
  simp only [Nat.zero_mul, Nat.mul_zero]
  exact Nat.pow_pos (by decide)

/-- Exponents above 400 lead beyond the finite numbers. -/
theorem finiteCount_le_rank {digits : Nat} {e : Int} (pos : 0 < digits) (large : 400 < e) :
    finiteCount ≤ rank ⟨digits, e⟩ := by
  have hden : (-e).toNat = 0 := by omega
  simp only [rank, hden]
  refine @finiteCount_le_nearestRank _ _ (3 * e.toNat) (by decide) (by omega) ?_
  calc 1 * 2 ^ (3 * e.toNat) = (2 ^ 3) ^ e.toNat := by rw [Nat.one_mul, Nat.pow_mul]
    _ ≤ 10 ^ e.toNat := Nat.pow_le_pow_left (by decide) _
    _ ≤ digits * 10 ^ e.toNat := Nat.le_mul_of_pos_left _ pos

/-- Exponents far enough below zero lead to zero. -/
theorem rank_eq_zero {digits : Nat} {e : Int} (small : e + Nat.log2 digits < -400) :
    rank ⟨digits, e⟩ = 0 := by
  have hnum : e.toNat = 0 := by omega
  simp only [rank, hnum]
  apply nearestRank_eq_zero
  generalize hplaces : (1074 : Nat) = places
  have hdigits : digits < 2 ^ (Nat.log2 digits + 1) := Nat.lt_log2_self
  calc 2 * (digits * 10 ^ 0 * 2 ^ places) < 2 ^ (Nat.log2 digits + 1) * (2 * 2 ^ places) := by
        rw [Nat.pow_zero, Nat.mul_one, Nat.mul_left_comm]
        exact Nat.mul_lt_mul_of_pos_right hdigits (Nat.mul_pos (by decide) (Nat.two_pow_pos _))
    _ = 2 ^ (Nat.log2 digits + 1 + (places + 1)) := by rw [← Nat.pow_succ', ← Nat.pow_add]
    _ ≤ 2 ^ (3 * (-e).toNat) := Nat.pow_le_pow_right (by decide) (by omega)
    _ = (2 ^ 3) ^ (-e).toNat := Nat.pow_mul 2 3 _
    _ ≤ 10 ^ (-e).toNat := Nat.pow_le_pow_left (by decide) _

end Decimal

/-- A decimal is read as the number of its rank; the short cuts do not change that. -/
theorem Binary64.ofDecimal_eq (negative : Bool) (digits : Nat) (e : Int) :
    ofDecimal negative digits e = ofRank negative (Decimal.rank ⟨digits, e⟩) := by
  simp only [ofDecimal]
  split
  · rename_i hzero
    rw [hzero, Decimal.rank_zero]
  · rename_i hne
    split
    · rename_i hlarge
      rw [ofRank, dif_neg]
      exact Nat.not_lt.mpr (Decimal.finiteCount_le_rank (Nat.pos_of_ne_zero hne) hlarge)
    · split
      · rename_i hsmall
        rw [Decimal.rank_eq_zero hsmall]
      · rfl

end CacheAside
