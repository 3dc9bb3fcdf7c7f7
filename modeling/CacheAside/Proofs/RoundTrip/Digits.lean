import CacheAside.Ident
import CacheAside.Json.Printer
import CacheAside.Json.Reader
import CacheAside.Time.Rfc3339

/-!
# Digits read back

Numbers are written with the digits that they need or with a fixed number of digits, and read from
the longest run of digits.  `foldlM_digits` covers every notation of fixed width whose digits can be
told apart; decimal digits of either kind rest on `Nat.ofDigitChars`.
-/

namespace CacheAside

/-! ## Fixed width -/

/-- A notation of fixed width in base `b` reads back if each of its digits does. -/
theorem foldlM_digits {b : Nat} {char : Nat → Char} {digit? : Char → Option Nat}
    {encode : Nat → Nat → List Char} (zero : ∀ n, encode 0 n = [])
    (succ : ∀ width n, encode (width + 1) n = encode width (n / b) ++ [char (n % b)])
    (back : ∀ d < b, digit? (char d) = some d) (width n : Nat) (lt : n < Nat.pow b width) :
    (encode width n).foldlM (fun m c => (digit? c).map (b * m + ·)) 0 = some n := by
  induction width generalizing n with
  | zero =>
    obtain rfl : n = 0 := Nat.lt_one_iff.mp lt
    rw [zero]
    rfl
  | succ width ih =>
    have hlt : n < b * b ^ width := Nat.lt_of_lt_of_eq lt Nat.pow_succ'
    have hpos : 0 < b := Nat.pos_of_ne_zero fun h => by simp [h] at hlt
    have hdiv : n / b < b ^ width := Nat.div_lt_of_lt_mul hlt
    rw [succ, List.foldlM_append, ih _ hdiv]
    simp [back _ (Nat.mod_lt n hpos), Nat.div_add_mod]

/-- Four hexadecimal digits read back. -/
theorem Text.readHex?_hexDigits {n : Nat} (lt : n < 65536) :
    readHex? (hexDigits 4 n) = some n :=
  foldlM_digits (b := 16) (fun _ => rfl) (fun _ _ => rfl) (by decide) 4 n lt

namespace Base32

theorem decode?_encode {n : Nat} (lt : n < Nat.pow 32 26) : decode? (encode 26 n) = some n :=
  foldlM_digits (b := 32) (fun _ => rfl) (fun _ _ => rfl) (by decide) 26 n lt

theorem length_encode (width n : Nat) : (encode width n).length = width := by
  induction width generalizing n with
  | zero => rfl
  | succ width ih => simp [encode, ih]

/-- Each digit takes one byte. -/
theorem utf8Size_of_mem_encode {width n : Nat} {c : Char} (h : c ∈ encode width n) :
    c.utf8Size = 1 := by
  induction width generalizing n with
  | zero => cases h
  | succ width ih =>
    rcases List.mem_append.mp h with hmem | hlast
    · exact ih hmem
    · obtain rfl := List.mem_singleton.mp hlast
      have hdigit : ∀ d < 32, (char d).utf8Size = 1 := by decide
      exact hdigit _ (Nat.mod_lt n (by decide))

end Base32

/-! ## Identifiers -/

theorem stripLead?_append (lead rest : List Char) : stripLead? lead (lead ++ rest) = some rest := by
  induction lead with
  | nil => rfl
  | cons c lead ih => simp [stripLead?, ih]

/-- Characters of one byte each take as many bytes as there are. -/
theorem byteLength_of_ascii {cs : List Char} (h : ∀ c ∈ cs, c.utf8Size = 1) :
    byteLength cs = cs.length := by
  suffices hfrom : ∀ n, cs.foldl (fun n c => n + c.utf8Size) n = n + cs.length by
    simpa [byteLength] using hfrom 0
  induction cs with
  | nil => simp
  | cons c cs ih =>
    intro n
    obtain ⟨hc, hcs⟩ := List.forall_mem_cons.mp h
    rw [List.foldl_cons, ih hcs, hc, List.length_cons]
    omega

/-- The text of an identifier names that identifier. -/
theorem Ident.parse_toText {kind : IdentKind} (id : Ident kind) : parse id.toText = .ok id := by
  have hlt : id.number.val < Nat.pow 32 26 := Nat.lt_trans id.number.isLt (by decide)
  have hlength : byteLength (Base32.encode 26 id.number.val) = 26 := by
    rw [byteLength_of_ascii fun _ => Base32.utf8Size_of_mem_encode, Base32.length_encode]
  have hnumber : (ofNat id.number.val : Ident kind) = id :=
    congrArg Ident.mk (Fin.ext (Nat.mod_eq_of_lt id.number.isLt))
  simp only [parse, toText, toChars, String.toList_ofList, stripLead?_append, hlength,
    Base32.decode?_encode hlt, if_true]
  rw [hnumber]

/-! ## Decimal digits -/

namespace Json

theorem natOfDigits_eq (ds : List Char) : natOfDigits ds = Nat.ofDigitChars 10 ds 0 :=
  Nat.ofDigitChars_eq_foldl.symm

theorem natOfDigits_digitsOf (n : Nat) : natOfDigits (digitsOf n) = n := by
  rw [natOfDigits_eq]
  exact Nat.ofDigitChars_ten_toDigits

/-- Digits behind others weigh as much as they have places. -/
theorem natOfDigits_append (ds es : List Char) :
    natOfDigits (ds ++ es) = Nat.pow 10 es.length * natOfDigits ds + natOfDigits es := by
  rw [natOfDigits_eq, natOfDigits_eq, natOfDigits_eq, Nat.ofDigitChars_append,
    Nat.ofDigitChars_eq_ofDigitChars_zero, Nat.pow_eq]

theorem natOfDigits_zeros (n : Nat) : natOfDigits (List.replicate n '0') = 0 := by
  rw [natOfDigits_eq, Nat.ofDigitChars_replicate_zero, Nat.mul_zero]

end Json

/-- All characters are digits. -/
def AllDigits (cs : List Char) : Prop :=
  ∀ c ∈ cs, c.isDigit = true

/-- No digit comes next. -/
def EndsDigits (cs : List Char) : Prop :=
  ∀ c ∈ cs.head?, c.isDigit = false

theorem endsDigits_cons {c : Char} (h : c.isDigit = false) {cs : List Char} :
    EndsDigits (c :: cs) := by
  intro d hd
  cases hd
  exact h

theorem allDigits_digitsOf (n : Nat) : AllDigits (digitsOf n) := fun _ h =>
  Nat.isDigit_of_mem_toDigits (by decide) (by decide) h

theorem allDigits_zeros (n : Nat) : AllDigits (List.replicate n '0') := by
  intro c h
  rw [(List.mem_replicate.mp h).2]
  rfl

theorem AllDigits.append {ds es : List Char} (h : AllDigits ds) (h' : AllDigits es) :
    AllDigits (ds ++ es) := fun c hc => (List.mem_append.mp hc).elim (h c) (h' c)

/-- A run of characters of one kind ends where one of another kind comes next. -/
theorem takeWhile_run {kind : Char → Bool} {cs rest : List Char} (all : ∀ c ∈ cs, kind c = true)
    (ends : ∀ c ∈ rest.head?, kind c = false) :
    (cs ++ rest).takeWhile kind = cs ∧ (cs ++ rest).dropWhile kind = rest := by
  have hrest : rest.takeWhile kind = [] ∧ rest.dropWhile kind = rest := by
    cases rest with
    | nil => exact ⟨rfl, rfl⟩
    | cons c rest => simp [ends c rfl]
  rw [List.takeWhile_append_of_pos all, List.dropWhile_append_of_pos all, hrest.1, hrest.2]
  simp

theorem takeWhile_digits {ds rest : List Char} (digits : AllDigits ds) (ends : EndsDigits rest) :
    (ds ++ rest).takeWhile Char.isDigit = ds ∧ (ds ++ rest).dropWhile Char.isDigit = rest :=
  takeWhile_run digits ends

/-- Only zero is written with a zero in front. -/
theorem head_digitsOf {n : Nat} (pos : 0 < n) : (digitsOf n).head? ≠ some '0' := by
  induction n using Nat.strongRecOn with
  | ind n ih =>
    rw [digitsOf, Nat.toDigits_eq_if (by decide)]
    split
    · rename_i hlt
      intro hzero
      have hchar : n.digitChar = '0' := by simpa using hzero
      rw [Nat.digitChar_eq_zero] at hchar
      omega
    · have hfront := ih (n / 10) (by omega) (by omega)
      cases hdigits : digitsOf (n / 10) with
      | nil => exact absurd hdigits Nat.toDigits_ne_nil
      | cons c ds =>
        rw [hdigits] at hfront
        rw [show Nat.toDigits 10 (n / 10) = c :: ds from hdigits]
        exact hfront

/-! ### A fixed number of decimal digits -/

namespace Timestamp

theorem length_fixedDigits (width n : Nat) : (fixedDigits width n).length = width := by
  induction width generalizing n with
  | zero => rfl
  | succ width ih => simp [fixedDigits, ih]

theorem allDigits_fixedDigits (width n : Nat) : AllDigits (fixedDigits width n) := by
  induction width generalizing n with
  | zero => simp [AllDigits, fixedDigits]
  | succ width ih =>
    refine (ih _).append fun c hc => ?_
    rw [List.mem_singleton.mp hc, Nat.isDigit_digitChar]
    exact decide_eq_true (Nat.mod_lt n (by decide))

theorem ofDigitChars_fixedDigits (width n : Nat) :
    Nat.ofDigitChars 10 (fixedDigits width n) 0 = n % Nat.pow 10 width := by
  induction width generalizing n with
  | zero => simp [fixedDigits, Nat.mod_one]
  | succ width ih =>
    have hdigit : n % 10 < 10 := Nat.mod_lt n (by decide)
    rw [fixedDigits, Nat.ofDigitChars_append, ih, Nat.ofDigitChars_cons_digitChar_of_lt_ten hdigit,
      Nat.ofDigitChars_nil, Nat.pow_eq, Nat.pow_eq, Nat.pow_succ', Nat.mod_mul]
    omega

end Timestamp

end CacheAside
