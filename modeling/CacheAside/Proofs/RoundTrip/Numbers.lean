import CacheAside.Proofs.RoundTrip.Digits
import CacheAside.Proofs.RoundTrip.Rounding

/-!
# Numbers read back

An integer is written with its digits alone, a weight with a point or an exponent.  Of either form
the reader finds the parts again, and with them the same number: the digits of a weight and its
exponent may be split up in another way than they were chosen, but not to another value.
-/

namespace CacheAside.Json

open Binary64

/-- What may follow a number: nothing that would be a part of it. -/
def EndsNumber (cs : List Char) : Prop :=
  ∀ c ∈ cs.head?, c.isDigit = false ∧ c ≠ '.' ∧ c ≠ 'e' ∧ c ≠ 'E'

theorem EndsNumber.endsDigits {cs : List Char} (h : EndsNumber cs) : EndsDigits cs :=
  fun c hc => (h c hc).1

/-! ## The parts of a number -/

theorem digitRun?_digits {ds rest : List Char} (digits : AllDigits ds) (ne : ds ≠ [])
    (ends : EndsDigits rest) : digitRun? (ds ++ rest) = some (ds, rest) := by
  obtain ⟨hrun, hdrop⟩ := takeWhile_digits digits ends
  rw [digitRun?, hrun, hdrop]
  cases ds with
  | nil => exact absurd rfl ne
  | cons d ds => rfl

/-- Digits in front of the point, of which the first is no zero or the only one. -/
theorem whole?_digits {ds rest : List Char} (digits : AllDigits ds) (ne : ds ≠ [])
    (front : ds.head? ≠ some '0' ∨ ds = ['0']) (ends : EndsDigits rest) :
    whole? (ds ++ rest) = some (ds, rest) := by
  rw [whole?, digitRun?_digits digits ne ends]
  split
  · rename_i heq
    simp only [Option.some.injEq, Prod.mk.injEq] at heq
    rcases front with hhead | hzero
    · simp [heq.1] at hhead
    · simp [hzero] at heq
  · rfl

theorem fraction?_point {ds rest : List Char} (digits : AllDigits ds) (ne : ds ≠ [])
    (ends : EndsDigits rest) : fraction? ('.' :: (ds ++ rest)) = some (some ds, rest) := by
  rw [fraction?, digitRun?_digits digits ne ends]
  rfl

theorem fraction?_none {cs : List Char} (h : ∀ c ∈ cs.head?, c ≠ '.') :
    fraction? cs = some (none, cs) := by
  rw [fraction?]
  rintro rest rfl
  exact h '.' rfl rfl

theorem exponent?_none {cs : List Char} (h : ∀ c ∈ cs.head?, c ≠ 'e' ∧ c ≠ 'E') :
    exponent? cs = some (none, cs) := by
  rw [exponent?]
  · rintro rest rfl
    exact (h 'e' rfl).1 rfl
  · rintro rest rfl
    exact (h 'E' rfl).2 rfl

/-- The sign and the digits of an exponent. -/
theorem exponent?_exponent (e : Int) {rest : List Char} (ends : EndsDigits rest) :
    exponent? ('e' :: (Notation.exponent e ++ rest)) = some (some e, rest) := by
  have hrun := digitRun?_digits (allDigits_digitsOf e.natAbs) Nat.toDigits_ne_nil ends
  simp only [exponent?, Notation.exponent, List.cons_append]
  split
  · rename_i hneg
    have he : -((e.natAbs : Nat) : Int) = e := by omega
    simp only [exponentDigits?, hrun, Option.map_some, natOfDigits_digitsOf, he]
  · rename_i hnonneg
    have he : ((e.natAbs : Nat) : Int) = e := by omega
    simp only [exponentDigits?, hrun, Option.map_some, natOfDigits_digitsOf, he]

/-! ## Numbers without a sign -/

section Unsigned

variable {negative : Bool} {whole ds rest : List Char}

theorem unsigned?_integer (digits : AllDigits whole) (ne : whole ≠ [])
    (front : whole.head? ≠ some '0' ∨ whole = ['0']) (ends : EndsNumber rest) :
    unsigned? negative (whole ++ rest) = some (.ofParts negative whole none none, rest) := by
  have hpoint := fraction?_none fun c hc => (ends c hc).2.1
  have hletter := exponent?_none fun c hc => (ends c hc).2.2
  simp [unsigned?, whole?_digits digits ne front ends.endsDigits, hpoint, hletter]

/-- With a point, the number is no integer. -/
theorem unsigned?_point (digits : AllDigits whole) (ne : whole ≠ [])
    (front : whole.head? ≠ some '0' ∨ whole = ['0']) (fraction : AllDigits ds) (ne' : ds ≠ [])
    (ends : EndsNumber rest) :
    unsigned? negative (whole ++ '.' :: (ds ++ rest)) =
      some (.real (.ofDecimal negative (natOfDigits (whole ++ ds)) (-ds.length)), rest) := by
  have hletter := exponent?_none fun c hc => (ends c hc).2.2
  simp [unsigned?, whole?_digits digits ne front (endsDigits_cons (c := '.') rfl),
    fraction?_point fraction ne' ends.endsDigits, hletter, Number.ofParts]

/-- Nor is it one with an exponent. -/
theorem unsigned?_exponent {d : Char} (digit : d.isDigit = true) (fraction : AllDigits ds)
    (e : Int) (ends : EndsDigits rest) :
    unsigned? negative (Notation.scientific (d :: ds) e ++ rest) =
      some (.real (.ofDecimal negative (natOfDigits (d :: ds)) (e - ds.length)), rest) := by
  have hdigit : AllDigits [d] := by
    intro c hc
    rwa [List.mem_singleton.mp hc]
  have hfront : [d].head? ≠ some '0' ∨ [d] = ['0'] := by
    by_cases hzero : d = '0'
    · exact .inr (by rw [hzero])
    · exact .inl (by simpa using hzero)
  have hletter := exponent?_exponent e ends
  cases ds with
  | nil =>
    have hwhole := whole?_digits hdigit (List.cons_ne_nil d []) hfront
      (@endsDigits_cons 'e' rfl (Notation.exponent e ++ rest))
    have hpoint := @fraction?_none ('e' :: (Notation.exponent e ++ rest)) (by simp)
    rw [List.singleton_append] at hwhole
    simp [unsigned?, Notation.scientific, hwhole, hpoint, hletter, Number.ofParts]
  | cons d' ds =>
    have hwhole := whole?_digits hdigit (List.cons_ne_nil d []) hfront
      (@endsDigits_cons '.' rfl (d' :: ds ++ 'e' :: (Notation.exponent e ++ rest)))
    have hpoint := fraction?_point fraction (List.cons_ne_nil d' ds)
      (@endsDigits_cons 'e' rfl (Notation.exponent e ++ rest))
    rw [List.singleton_append] at hwhole
    simp only [List.cons_append] at hwhole hpoint
    simp [unsigned?, Notation.scientific, hwhole, hpoint, hletter, Number.ofParts]

end Unsigned

/-! ## Weights -/

section Weights

variable {negative : Bool} {n : Nat} {rest : List Char}

/-- The digits of a number above zero with a point among them, or zeros up to the point. -/
theorem unsigned?_plain (pos : 0 < n) (point : Int) (ends : EndsNumber rest) :
    unsigned? negative (Notation.plain (digitsOf n) point ++ rest) =
      some (.real (.ofRank negative (Decimal.rank ⟨n, point - (digitsOf n).length⟩)), rest) := by
  have hdigits := allDigits_digitsOf n
  have hfront := head_digitsOf pos
  have hvalue := natOfDigits_digitsOf n
  have hne : digitsOf n ≠ [] := Nat.toDigits_ne_nil
  generalize digitsOf n = ds at hdigits hfront hvalue hne ⊢
  simp only [Notation.plain]
  split
  · rename_i hleft
    have hfraction := (allDigits_zeros (-point).toNat).append hdigits
    have hfractionNe : List.replicate (-point).toNat '0' ++ ds ≠ [] :=
      fun h => hne (List.append_eq_nil_iff.mp h).2
    have hread := @unsigned?_point negative ['0'] _ rest (by simp [AllDigits]) (by simp)
      (.inr rfl) hfraction hfractionNe ends
    have hzero : natOfDigits ['0'] = 0 := rfl
    have hlength : -((List.replicate (-point).toNat '0' ++ ds).length : Int) =
        point - ds.length := by
      simp only [List.length_append, List.length_replicate]
      omega
    rw [natOfDigits_append, natOfDigits_append, natOfDigits_zeros, hvalue, hzero, hlength,
      ofDecimal_eq] at hread
    simpa using hread
  · rename_i hright
    rcases Nat.lt_or_ge point.toNat ds.length with hamong | hbehind
    · have hread := @unsigned?_point negative (ds.take point.toNat) (ds.drop point.toNat) rest
        (fun c hc => hdigits c (List.mem_of_mem_take hc)) (by simp [hne]; omega)
        (.inl (by rwa [List.head?_take, if_neg (by omega)]))
        (fun c hc => hdigits c (List.mem_of_mem_drop hc)) (by simp; omega) ends
      have hlength : -((ds.drop point.toNat).length : Int) = point - ds.length := by
        simp only [List.length_drop]
        omega
      rw [List.take_append_drop, hvalue, hlength, ofDecimal_eq] at hread
      have hzeros : point.toNat - ds.length = 0 := by omega
      simpa [hzeros, Nat.not_le.mpr hamong] using hread
    · have hhead : (ds ++ List.replicate (point.toNat - ds.length) '0').head? ≠ some '0' := by
        cases ds with
        | nil => exact absurd rfl hne
        | cons d ds => exact hfront
      have hread := @unsigned?_point negative
        (ds ++ List.replicate (point.toNat - ds.length) '0') ['0'] rest
        (hdigits.append (allDigits_zeros _)) (by simp [hne]) (.inl hhead) (by simp [AllDigits])
        (by simp) ends
      -- the zeros that fill the gap and the one behind the point do not change the value
      have hdigitsValue :
          natOfDigits (ds ++ List.replicate (point.toNat - ds.length) '0' ++ ['0']) =
            10 * (Nat.pow 10 (point.toNat - ds.length) * n) := by
        rw [natOfDigits_append, natOfDigits_append, natOfDigits_zeros, hvalue,
          List.length_replicate]
        rfl
      have hexponent : (-1 + 1 : Int) + (point.toNat - ds.length : Nat) = point - ds.length := by
        omega
      rw [hdigitsValue, ofDecimal_eq, List.length_singleton, Int.natCast_one, Decimal.rank_ten,
        Decimal.rank_zeros, hexponent] at hread
      simpa [List.take_of_length_le hbehind, List.drop_of_length_le hbehind] using hread

/-- A decimal is read as its rank in whatever notation it is written. -/
theorem unsigned?_write (style : Notation) {d : Decimal} (pos : 0 < d.digits)
    (ends : EndsNumber rest) :
    unsigned? negative (style.write d ++ rest) = some (.real (.ofRank negative d.rank), rest) := by
  simp only [Notation.write]
  split
  · rw [unsigned?_plain pos _ ends, show d.exponent + (digitsOf d.digits).length - 1 + 1 -
      (digitsOf d.digits).length = d.exponent by omega]
  · have hne : Nat.toDigits 10 d.digits ≠ [] := Nat.toDigits_ne_nil
    obtain ⟨c, ds, hcons⟩ := List.exists_cons_of_ne_nil hne
    have hdigits : AllDigits (c :: ds) := hcons ▸ allDigits_digitsOf d.digits
    have hvalue : natOfDigits (c :: ds) = d.digits := hcons ▸ natOfDigits_digitsOf d.digits
    have hfraction : AllDigits ds := fun e he => hdigits e (List.mem_cons_of_mem c he)
    rw [digitsOf, hcons, unsigned?_exponent (hdigits c List.mem_cons_self) hfraction _
      ends.endsDigits, hvalue, ofDecimal_eq, List.length_cons,
      show d.exponent + (ds.length + 1 : Nat) - 1 - ds.length = d.exponent by omega]

end Weights

/-! ## Numbers with a sign -/

/-- What is read as a number without a sign starts with a digit. -/
theorem exists_digit_of_unsigned? {negative : Bool} {cs : List Char} {found : Number × List Char}
    (h : unsigned? negative cs = some found) : ∃ c ds, cs = c :: ds ∧ c.isDigit = true := by
  cases cs with
  | nil => simp [unsigned?, whole?, digitRun?] at h
  | cons c ds =>
    cases hdigit : c.isDigit with
    | true => exact ⟨c, ds, rfl, hdigit⟩
    | false => simp [unsigned?, whole?, digitRun?, hdigit] at h

/-- A sign in front is the minus of a negative number, or none. -/
theorem number?_sign {negative : Bool} {cs : List Char} {found : Number × List Char}
    (h : unsigned? negative cs = some found) :
    number? ((if negative then ['-'] else []) ++ cs) = some found := by
  cases negative with
  | true => exact h
  | false =>
    obtain ⟨c, ds, rfl, hc⟩ := exists_digit_of_unsigned? h
    have hminus : c ≠ '-' := fun hminus => by rw [hminus] at hc; cases hc
    simpa [number?, hminus] using h

/-- What is read as a number starts with a minus or with a digit. -/
theorem exists_sign_of_number? {cs : List Char} {found : Number × List Char}
    (h : number? cs = some found) : ∃ c ds, cs = c :: ds ∧ (c = '-' ∨ c.isDigit = true) := by
  simp only [number?] at h
  split at h
  · exact ⟨_, _, rfl, .inl rfl⟩
  · obtain ⟨c, ds, heq, hc⟩ := exists_digit_of_unsigned? h
    exact ⟨c, ds, heq, .inr hc⟩

/-- The numbers that a text can hold: integers of 64 bits and finite weights. -/
def Number.Writable : Number → Prop
  | .integer n => -halfLimit ≤ n ∧ n < wordLimit
  | .real x => x.isFinite = true

theorem number?_intChars {n : Int} (range : -halfLimit ≤ n ∧ n < wordLimit) {rest : List Char}
    (ends : EndsNumber rest) : number? (intChars n ++ rest) = some (.integer n, rest) := by
  have hchars : intChars n ++ rest =
      (if decide (n < 0) then ['-'] else []) ++ (digitsOf n.natAbs ++ rest) := by
    simp only [intChars, decide_eq_true_eq]
    split <;> rfl
  have hfront : (digitsOf n.natAbs).head? ≠ some '0' ∨ digitsOf n.natAbs = ['0'] := by
    rcases Nat.eq_zero_or_pos n.natAbs with hzero | hpos
    · exact .inr (by rw [hzero]; rfl)
    · exact .inl (head_digitsOf hpos)
  have hvalue : (if n < 0 then -(n.natAbs : Int) else n.natAbs) = n := by
    split <;> omega
  have hplain : (!(decide (n < 0) && n.natAbs == 0)) = true := by
    simp
    omega
  have hparts : Number.ofParts (decide (n < 0)) (digitsOf n.natAbs) none none = .integer n := by
    simp only [Number.ofParts, Option.getD_none, List.append_nil, natOfDigits_digitsOf,
      decide_eq_true_eq, hvalue, hplain, Option.isNone_none, Bool.and_self, Bool.true_and]
    rw [if_pos range]
  rw [hchars, ← hparts]
  exact number?_sign (unsigned?_integer (allDigits_digitsOf _) Nat.toDigits_ne_nil hfront ends)

theorem number?_weight {x : Binary64} (finite : x.isFinite = true) {rest : List Char}
    (ends : EndsNumber rest) : number? (x.toChars ++ rest) = some (.real x, rest) := by
  cases x with
  | infinite negative => cases finite
  | nan => cases finite
  | finite negative rank =>
    simp only [Binary64.toChars, List.append_assoc]
    apply number?_sign
    split
    · rename_i hzero
      have hread := @unsigned?_point negative ['0'] ['0'] rest (by simp [AllDigits]) (by simp)
        (.inr rfl) (by simp [AllDigits]) (by simp) ends
      have hvalue : natOfDigits (['0'] ++ ['0']) = 0 := rfl
      have hrank : ofRank negative 0 = .finite negative rank := by
        rw [← hzero]
        exact dif_pos rank.isLt
      rw [hvalue, ofDecimal_eq, Decimal.rank_zero, hrank] at hread
      exact hread
    · rename_i hpos
      have hshortest := Decimal.rank_shortest rank.val
      have hdigits : 0 < (Decimal.shortest rank.val).digits := by
        rcases hd : Decimal.shortest rank.val with ⟨digits, e⟩
        refine Nat.pos_of_ne_zero fun hzero => hpos ?_
        rw [hd, show digits = 0 from hzero, Decimal.rank_zero] at hshortest
        exact hshortest.symm
      have hrank : ofRank negative rank.val = .finite negative rank := dif_pos rank.isLt
      rw [unsigned?_write _ hdigits ends, hshortest, hrank]

/-- A number is read up to what follows it. -/
theorem number?_toChars {n : Number} (writable : n.Writable) {rest : List Char}
    (ends : EndsNumber rest) : number? (n.toChars ++ rest) = some (n, rest) := by
  cases n with
  | integer n => exact number?_intChars writable ends
  | real x => exact number?_weight writable ends

end CacheAside.Json
