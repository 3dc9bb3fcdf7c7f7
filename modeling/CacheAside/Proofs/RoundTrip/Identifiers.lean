import CacheAside.Proofs.RoundTrip.Digits
import Mathlib.Data.List.Induction

/-!
# Which texts name an identifier

An identifier is read from its tag and 26 digits.  A digit may be a capital or not, and the first of
them holds two bits more than there is room for, so an identifier has many texts.  They all become
the same when letters are made capitals and the first digit is reduced modulo eight, and the text
that comes of it is the one that the identifier is written with.

Reading and writing both treat the last digit last, so what was read is written again by induction
from the end (`Base32.encode_of_decode?`); the bits that are dropped are all in the first digit, and
`Base32.decode?_cons` splits that off.
-/

namespace CacheAside

namespace Base32

/-! ## One digit -/

/-- A decimal digit, or a letter of either case that is none of I, L, O and U. -/
def IsDigit (c : Char) : Prop :=
  c.isDigit = true ∨ c.isAlpha = true ∧ c.toUpper ∉ ['I', 'L', 'O', 'U']

instance (c : Char) : Decidable (IsDigit c) :=
  inferInstanceAs (Decidable (_ ∨ _))

/-- What holds of each of the first 128 characters. -/
theorem of_ascii {p : Char → Prop} (h : ∀ n < 128, p (Char.ofNat n)) (c : Char)
    (ascii : c.toNat < 128) : p c := by
  have hc := h c.toNat ascii
  rwa [Char.ofNat_toNat] at hc

theorem toUpper_of_beyond {c : Char} (beyond : ¬ c.toNat < 128) : c.toUpper = c := by
  have hlarge : ¬ c.val ≤ 'z'.val := fun h => beyond (Nat.lt_of_le_of_lt h (by decide))
  unfold Char.toUpper
  rw [dif_neg fun h => hlarge h.2]

theorem capital_eq (c : Char) : capital c = c.toUpper := by
  by_cases hc : c.toNat < 128
  · exact of_ascii (p := fun c => capital c = c.toUpper) (by decide) c hc
  · have hlarge : ¬ c ≤ 'z' := fun h => hc (Nat.lt_of_le_of_lt h (by decide))
    rw [toUpper_of_beyond hc, capital, if_neg fun h => hlarge h.2]

/-- The value of a digit is its place in the alphabet. -/
theorem digit?_eq_some {c : Char} {d : Nat} : digit? c = some d ↔ d < 32 ∧ char d = c.toUpper := by
  have hdistinct : ∀ d < 32, alphabet.findIdx? (· == char d) = some d := by decide
  rw [digit?, capital_eq]
  constructor
  · intro h
    obtain ⟨hd, heq, -⟩ := List.findIdx?_eq_some_iff_getElem.mp h
    refine ⟨hd, ?_⟩
    rw [char, List.getD_eq_getElem?_getD, List.getElem?_eq_getElem hd]
    exact beq_iff_eq.mp heq
  · rintro ⟨hd, heq⟩
    rw [← heq]
    exact hdistinct d hd

theorem ascii_of_isDigit {c : Char} (h : IsDigit c) : c.toNat < 128 := by
  unfold IsDigit Char.isAlpha Char.isUpper Char.isLower Char.isDigit at h
  simp only [Bool.or_eq_true, Bool.and_eq_true, decide_eq_true_eq, UInt32.le_iff_toNat_le] at h
  rcases h with ⟨-, h⟩ | ⟨⟨-, h⟩ | ⟨-, h⟩, -⟩
  all_goals exact Nat.lt_of_le_of_lt h (by decide)

theorem ascii_of_digit? {c : Char} {d : Nat} (h : digit? c = some d) : c.toNat < 128 := by
  obtain ⟨hd, heq⟩ := digit?_eq_some.mp h
  have hascii : ∀ d < 32, (char d).toNat < 128 := by decide
  by_cases hc : c.toNat < 128
  · exact hc
  · rw [toUpper_of_beyond hc] at heq
    exact heq ▸ hascii d hd

/-- The characters that have a value are the digits. -/
theorem isSome_digit? {c : Char} : (digit? c).isSome = true ↔ IsDigit c := by
  have hascii (c : Char) (h : c.toNat < 128) : (digit? c).isSome = true ↔ IsDigit c :=
    of_ascii (p := fun c => (digit? c).isSome = true ↔ IsDigit c) (by decide +kernel) c h
  constructor
  · intro h
    obtain ⟨d, hd⟩ := Option.isSome_iff_exists.mp h
    exact (hascii c (ascii_of_digit? hd)).mp h
  · intro h
    exact (hascii c (ascii_of_isDigit h)).mpr h

/-! ## Many digits -/

theorem decode?_concat (cs : List Char) (c : Char) : decode? (cs ++ [c]) =
    (decode? cs).bind fun n => (digit? c).map (32 * n + ·) := by
  simp [decode?, List.foldlM_append]

/-- The first digit weighs as much as the others have places. -/
theorem decode?_cons (c : Char) (cs : List Char) : decode? (c :: cs) =
    (digit? c).bind fun d => (decode? cs).map (d * Nat.pow 32 cs.length + ·) := by
  induction cs using List.reverseRecOn with
  | nil => simp [decode?]
  | append_singleton cs e ih =>
    rw [← List.cons_append, decode?_concat, decode?_concat, ih]
    cases digit? c with
    | none => rfl
    | some d =>
      cases decode? cs with
      | none => rfl
      | some n =>
        cases digit? e with
        | none => rfl
        | some m =>
          simp only [Option.bind_some, Option.map_some, Option.some.injEq, List.length_append,
            List.length_singleton, Nat.pow_eq, Nat.pow_succ, ← Nat.mul_assoc]
          omega

theorem isSome_decode? {cs : List Char} :
    (decode? cs).isSome = true ↔ ∀ c ∈ cs, IsDigit c := by
  induction cs using List.reverseRecOn with
  | nil => simp [decode?]
  | append_singleton cs c ih =>
    rw [List.forall_mem_append, ← ih, List.forall_mem_singleton, ← isSome_digit?, decode?_concat]
    cases decode? cs <;> simp

/-- The number that was read is written with the same digits, as capitals. -/
theorem encode_of_decode? {cs : List Char} {n : Nat} (h : decode? cs = some n) :
    encode cs.length n = cs.map Char.toUpper := by
  induction cs using List.reverseRecOn generalizing n with
  | nil => rfl
  | append_singleton cs c ih =>
    rw [decode?_concat] at h
    obtain ⟨m, hm, h⟩ := Option.bind_eq_some_iff.mp h
    obtain ⟨d, hd, rfl⟩ := Option.map_eq_some_iff.mp h
    obtain ⟨hlt, hchar⟩ := digit?_eq_some.mp hd
    have hfront : (32 * m + d) / 32 = m := by omega
    have hlast : (32 * m + d) % 32 = d := by omega
    rw [List.length_append, List.length_singleton, encode, hfront, hlast, ih hm, hchar]
    simp

theorem decode?_lt {cs : List Char} {n : Nat} (h : decode? cs = some n) :
    n < Nat.pow 32 cs.length := by
  induction cs using List.reverseRecOn generalizing n with
  | nil =>
    cases h
    exact Nat.one_pos
  | append_singleton cs c ih =>
    rw [decode?_concat] at h
    obtain ⟨m, hm, h⟩ := Option.bind_eq_some_iff.mp h
    obtain ⟨d, hd, rfl⟩ := Option.map_eq_some_iff.mp h
    have hlt := (digit?_eq_some.mp hd).1
    have hfront := ih hm
    rw [List.length_append, List.length_singleton, Nat.pow_eq, Nat.pow_succ, ← Nat.pow_eq]
    omega

/-- Digits as an identifier is written with them: capitals, and the first one reduced modulo eight,
since there is room for three bits of it. -/
def canonical : List Char → List Char
  | [] => []
  | c :: cs => char (alphabet.idxOf c.toUpper % 8) :: cs.map Char.toUpper

/-- What is left of the number of 26 digits when the bits beyond 128 are dropped is written with the
canonical digits. -/
theorem encode_of_dropped {cs : List Char} {n : Nat} (length : cs.length = 26)
    (h : decode? cs = some n) : encode 26 (n % Ident.count) = canonical cs := by
  cases cs with
  | nil => cases length
  | cons c cs =>
    have hcapitals : ∀ d < 32, (char d).toUpper = char d := by decide
    have hplaces : ∀ d < 32, alphabet.idxOf (char d) = d := by decide
    have hrest : cs.length = 25 := Nat.succ.inj length
    rw [decode?_cons] at h
    obtain ⟨d, hd, h⟩ := Option.bind_eq_some_iff.mp h
    obtain ⟨m, hm, rfl⟩ := Option.map_eq_some_iff.mp h
    obtain ⟨hlt, hchar⟩ := digit?_eq_some.mp hd
    have hsmall := decode?_lt hm
    have hroom : d % 8 < 32 := Nat.lt_of_le_of_lt (Nat.mod_le d 8) hlt
    rw [hrest] at hsmall ⊢
    have hdropped : (d * Nat.pow 32 25 + m) % Ident.count = d % 8 * Nat.pow 32 25 + m := by
      simp only [Ident.count, Nat.pow_eq] at hsmall ⊢
      omega
    have hread : decode? (char (d % 8) :: cs) = some (d % 8 * Nat.pow 32 25 + m) := by
      have hdigit : digit? (char (d % 8)) = some (d % 8) :=
        digit?_eq_some.mpr ⟨hroom, (hcapitals _ hroom).symm⟩
      rw [decode?_cons, hdigit, hm, hrest]
      rfl
    have hwritten := encode_of_decode? hread
    rw [List.length_cons, hrest] at hwritten
    rw [hdropped, hwritten, canonical, ← hchar, hplaces d hlt, List.map_cons, hcapitals _ hroom]

end Base32

/-! ## Tags and bytes -/

theorem stripLead?_eq_some {lead cs rest : List Char} :
    stripLead? lead cs = some rest ↔ cs = lead ++ rest := by
  induction lead generalizing cs with
  | nil => simp [stripLead?]
  | cons l lead ih =>
    cases cs with
    | nil => simp [stripLead?]
    | cons c cs =>
      rw [stripLead?, List.cons_append, List.cons.injEq]
      split
      · rename_i heq
        rw [ih, heq, and_iff_right rfl]
      · rename_i hne
        exact iff_of_false (by simp) fun h => hne h.1.symm

theorem byteLength_toList (s : String) : byteLength s.toList = s.utf8ByteSize := by
  have hfrom (cs : List Char) : ∀ n, cs.foldl (fun n c => n + c.utf8Size) n =
      n + (String.ofList cs).utf8ByteSize := by
    induction cs with
    | nil => simp
    | cons c cs ih =>
      intro n
      rw [List.foldl_cons, ih, String.ofList_cons, String.utf8ByteSize_append,
        String.utf8ByteSize_singleton, Nat.add_assoc]
  rw [byteLength, hfrom, String.ofList_toList, Nat.zero_add]

namespace Ident

variable {kind : IdentKind}

/-! ## Identifiers -/

/-- The text has 26 bytes, and all of its characters are digits. -/
def IsDigits (digits : String) : Prop :=
  digits.utf8ByteSize = 26 ∧ ∀ c ∈ digits.toList, Base32.IsDigit c

instance (digits : String) : Decidable (IsDigits digits) :=
  decidable_of_iff (digits.utf8ByteSize = 26 ∧ (Base32.decode? digits.toList).isSome = true)
    (and_congr_right' Base32.isSome_decode?)

/-- The digits with which the identifier is written that is read from these. -/
def canonical (digits : String) : String :=
  String.ofList (Base32.canonical digits.toList)

theorem parse_of_untagged {s : String} (untagged : ∀ digits, s ≠ kind.tag ++ digits) :
    (parse s : Except IdentError (Ident kind)) = .error (.missingTag kind s) := by
  have hnone : stripLead? kind.tag.toList s.toList = none := by
    rw [Option.eq_none_iff_forall_ne_some]
    intro rest h
    refine untagged (String.ofList rest) (String.toList_inj.mp ?_)
    rw [stripLead?_eq_some.mp h, String.toList_append, String.toList_ofList]
  rw [parse, hnone]

theorem parse_tag (digits : String) :
    (parse (kind.tag ++ digits) : Except IdentError (Ident kind)) =
      if digits.utf8ByteSize = 26 then
        match Base32.decode? digits.toList with
        | some n => .ok (.ofNat n)
        | none => .error (.invalidDigits (kind.tag ++ digits) .character)
      else .error (.invalidDigits (kind.tag ++ digits) .length) := by
  rewrite [parse, String.toList_append, stripLead?_append, ← byteLength_toList]
  rfl

/-- Digits take one byte each, so there are as many as there are bytes. -/
theorem length_of_isDigits {digits : String} (h : IsDigits digits) : digits.toList.length = 26 := by
  have hbytes (c : Char) (hc : c ∈ digits.toList) : c.utf8Size = 1 :=
    Char.utf8Size_eq_one_iff.mpr (Nat.le_of_lt_succ (Base32.ascii_of_isDigit (h.2 c hc)))
  rw [← byteLength_of_ascii hbytes, byteLength_toList, h.1]

theorem parse_of_isDigits (kind : IdentKind) {digits : String} (h : IsDigits digits) :
    ∃ id : Ident kind, parse (kind.tag ++ digits) = .ok id ∧
      id.toText = kind.tag ++ canonical digits := by
  obtain ⟨n, hn⟩ := Option.isSome_iff_exists.mp (Base32.isSome_decode?.mpr h.2)
  refine ⟨.ofNat n, ?_, ?_⟩
  · rw [parse_tag, if_pos h.1, hn]
  · rw [toText, toChars, ofNat, Base32.encode_of_dropped (length_of_isDigits h) hn,
      String.ofList_append, String.ofList_toList]
    rfl

theorem parse_of_not_isDigits (kind : IdentKind) {digits : String} (h : ¬ IsDigits digits) :
    ∃ fault, (parse (kind.tag ++ digits) : Except IdentError (Ident kind)) =
      .error (.invalidDigits (kind.tag ++ digits) fault) := by
  rw [parse_tag]
  split
  · rename_i hbytes
    cases hread : Base32.decode? digits.toList with
    | none => exact ⟨.character, rfl⟩
    | some n =>
      refine absurd ⟨hbytes, Base32.isSome_decode?.mp ?_⟩ h
      rw [hread]
      rfl
  · exact ⟨.length, rfl⟩

theorem toText_injective {id id' : Ident kind} (h : id.toText = id'.toText) : id = id' := by
  have hread := parse_toText id
  rw [h, parse_toText] at hread
  exact (Except.ok.inj hread).symm

/-- A text either lacks the tag or has it in front of one other text. -/
theorem tagged_or_not (kind : IdentKind) (s : String) :
    (∃ digits, s = kind.tag ++ digits) ∨ ∀ digits, s ≠ kind.tag ++ digits := by
  by_cases h : ∃ digits, s = kind.tag ++ digits
  · exact .inl h
  · exact .inr fun digits heq => h ⟨digits, heq⟩

theorem eq_of_tag {digits digits' : String} (h : kind.tag ++ digits = kind.tag ++ digits') :
    digits = digits' := by
  have hlists := congrArg String.toList h
  rw [String.toList_append, String.toList_append] at hlists
  exact String.toList_inj.mp (List.append_cancel_left hlists)

/-- A text names an identifier exactly if digits follow the tag, and then the identifier is written
with these digits in their canonical form. -/
theorem parse_eq_ok {s : String} {id : Ident kind} : parse s = .ok id ↔
    ∃ digits, s = kind.tag ++ digits ∧ IsDigits digits ∧
      id.toText = kind.tag ++ canonical digits := by
  constructor
  · intro h
    obtain ⟨digits, rfl⟩ | untagged := tagged_or_not kind s
    · by_cases hdigits : IsDigits digits
      · obtain ⟨id', hparse, htext⟩ := parse_of_isDigits kind hdigits
        obtain rfl := Except.ok.inj (hparse.symm.trans h)
        exact ⟨digits, rfl, hdigits, htext⟩
      · obtain ⟨fault, hparse⟩ := parse_of_not_isDigits kind hdigits
        cases hparse.symm.trans h
    · cases (parse_of_untagged untagged).symm.trans h
  · rintro ⟨digits, rfl, hdigits, htext⟩
    obtain ⟨id', hparse, htext'⟩ := parse_of_isDigits kind hdigits
    rw [hparse, toText_injective (htext'.trans htext.symm)]

/-- The tag is the first thing that is looked at. -/
theorem parse_eq_missingTag {s : String} :
    (parse s : Except IdentError (Ident kind)) = .error (.missingTag kind s) ↔
      ∀ digits, s ≠ kind.tag ++ digits := by
  refine ⟨?_, parse_of_untagged⟩
  rintro h digits rfl
  by_cases hdigits : IsDigits digits
  · obtain ⟨id, hread, -⟩ := parse_of_isDigits kind hdigits
    cases hread.symm.trans h
  · obtain ⟨fault, hread⟩ := parse_of_not_isDigits kind hdigits
    cases hread.symm.trans h

theorem parse_eq_invalidDigits {s : String} :
    (∃ fault, (parse s : Except IdentError (Ident kind)) = .error (.invalidDigits s fault)) ↔
      ∃ digits, s = kind.tag ++ digits ∧ ¬ IsDigits digits := by
  constructor
  · rintro ⟨fault, h⟩
    obtain ⟨digits, rfl⟩ | untagged := tagged_or_not kind s
    · refine ⟨digits, rfl, fun hdigits => ?_⟩
      obtain ⟨id, hread, -⟩ := parse_of_isDigits kind hdigits
      cases hread.symm.trans h
    · cases (parse_of_untagged untagged).symm.trans h
  · rintro ⟨digits, rfl, hdigits⟩
    exact parse_of_not_isDigits _ hdigits

/-- The tags differ in their first letters. -/
theorem untagged_of_other {other : IdentKind} (h : other ≠ kind) (digits digits' : String) :
    kind.tag ++ digits ≠ other.tag ++ digits' := by
  intro heq
  have hlists := congrArg String.toList heq
  rw [String.toList_append, String.toList_append] at hlists
  cases kind <;> cases other
  · exact h rfl
  · cases hlists
  · cases hlists
  · exact h rfl

/-- An identifier is read from a text exactly if the text is its tag and 26 bytes, all of them
digits.  A text without the tag is refused as such, and any other one for its digits.  Each
identifier is read from the text that it is written with.  Whatever text it is read from, that one
has the same digits, but for small letters and for the bits of the first digit for which there is no
room; so two texts name the same identifier exactly if these canonical digits are the same.  No text
names identifiers of two kinds. -/
theorem texts_are_read_exactly (kind : IdentKind) :
    (∀ s, ((∃ id : Ident kind, parse s = .ok id) ↔
        ∃ digits, s = kind.tag ++ digits ∧ IsDigits digits) ∧
      ((parse s : Except IdentError (Ident kind)) = .error (.missingTag kind s) ↔
        ∀ digits, s ≠ kind.tag ++ digits) ∧
      ((∃ fault, (parse s : Except IdentError (Ident kind)) = .error (.invalidDigits s fault)) ↔
        ∃ digits, s = kind.tag ++ digits ∧ ¬ IsDigits digits)) ∧
    (∀ id : Ident kind, parse id.toText = .ok id) ∧
    (∀ digits (id : Ident kind), parse (kind.tag ++ digits) = .ok id →
      id.toText = kind.tag ++ canonical digits) ∧
    (∀ digits digits' (id id' : Ident kind), parse (kind.tag ++ digits) = .ok id →
      parse (kind.tag ++ digits') = .ok id' → (id = id' ↔ canonical digits = canonical digits')) ∧
    ∀ (other : IdentKind) s (id : Ident kind), other ≠ kind → parse s = .ok id →
      (parse s : Except IdentError (Ident other)) = .error (.missingTag other s) := by
  have hwritten (digits : String) (id : Ident kind) (h : parse (kind.tag ++ digits) = .ok id) :
      id.toText = kind.tag ++ canonical digits := by
    obtain ⟨digits', heq, -, htext⟩ := parse_eq_ok.mp h
    rwa [eq_of_tag heq]
  refine ⟨fun s => ⟨?_, parse_eq_missingTag, parse_eq_invalidDigits⟩, parse_toText, hwritten,
    fun digits digits' id id' h h' => ?_, fun other s id hother h => ?_⟩
  · constructor
    · rintro ⟨id, h⟩
      obtain ⟨digits, htagged, hdigits, -⟩ := parse_eq_ok.mp h
      exact ⟨digits, htagged, hdigits⟩
    · rintro ⟨digits, rfl, hdigits⟩
      obtain ⟨id, h, -⟩ := parse_of_isDigits kind hdigits
      exact ⟨id, h⟩
  · constructor
    · rintro rfl
      exact eq_of_tag ((hwritten digits id h).symm.trans (hwritten digits' id h'))
    · intro heq
      apply toText_injective
      rw [hwritten digits id h, hwritten digits' id' h', heq]
  · obtain ⟨digits, rfl, -⟩ := parse_eq_ok.mp h
    exact parse_of_untagged (untagged_of_other hother digits)

/-- Small letters and a first digit with too many bits. -/
theorem smallLetters_are_read :
    let s := "rec-81arz3ndektsv4rrffq69g5fav"
    (∃ id : RecordId, parse s = .ok id ∧ id.toText = "rec-01ARZ3NDEKTSV4RRFFQ69G5FAV") ∧
      (parse s : Except IdentError EventId) = .error (.missingTag .event s) := by
  intro s
  obtain ⟨hread, -, hwritten, -, hother⟩ := texts_are_read_exactly .record
  have htagged : s = IdentKind.record.tag ++ "81arz3ndektsv4rrffq69g5fav" := by decide
  obtain ⟨id, hid⟩ := (hread s).1.mpr ⟨_, htagged, by decide⟩
  have htext := hwritten "81arz3ndektsv4rrffq69g5fav" id (htagged ▸ hid)
  refine ⟨⟨id, hid, htext.trans (by decide)⟩, hother .event s id (by decide) hid⟩

end Ident

end CacheAside
