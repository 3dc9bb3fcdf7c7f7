import CacheAside.Proofs.RoundTrip.Tree

/-!
# Tokens

A text falls into tokens: marks, quoted texts, and words, among them the numbers.  Blanks between
tokens belong to none of them, so two texts have the same tokens exactly if they differ in
insignificant blanks alone.

The reader knows no tokens: it reads a number or a text up to where it ends.  It ends there whatever
follows (`number?_local`, `quoted?_local`), so it makes no difference whether the token is cut out
first.
-/

namespace CacheAside.Json

open Text

/-! ## From characters to tokens -/

/-- A token of a text. -/
inductive Token where
  /-- One of the six marks. -/
  | mark (c : Char)
  /-- What stands behind a quote, up to the closing quote and with it. -/
  | quoted (spelling : List Char)
  /-- A word or a number. -/
  | plain (spelling : List Char)

/-- The marks that open, close and separate. -/
def isMark (c : Char) : Bool :=
  c == '{' || c == '}' || c == '[' || c == ']' || c == ':' || c == ','

/-- The characters of words and numbers: all those that do not end one. -/
def isPlain (c : Char) : Bool :=
  !isSpace c && !isMark c && c != '"'

/-- Splits off the characters up to the closing quote.  A backslash takes the next character
along. -/
def closing? : List Char → Option (List Char × List Char)
  | [] => none
  | '"' :: rest => some (['"'], rest)
  | '\\' :: c :: rest => (closing? rest).map fun (s, rest) => ('\\' :: c :: s, rest)
  | c :: rest => (closing? rest).map fun (s, rest) => (c :: s, rest)

theorem closing?_eq {cs s rest : List Char} (h : closing? cs = some (s, rest)) :
    cs = s ++ rest := by
  fun_induction closing? cs generalizing s with
  | case1 => cases h
  | case2 rest' =>
    cases h
    rfl
  | case3 c rest' ih =>
    obtain ⟨⟨s', _⟩, hs, heq⟩ := Option.map_eq_some_iff.mp h
    cases heq
    rw [ih hs]
    rfl
  | case4 c rest' _ _ ih =>
    obtain ⟨⟨s', _⟩, hs, heq⟩ := Option.map_eq_some_iff.mp h
    cases heq
    rw [ih hs]
    rfl

/-- The first token and what follows it.  A text that is not closed ends everything, and has no
closing quote. -/
def token? (cs : List Char) : Option (Token × List Char) :=
  match skipSpace cs with
  | [] => none
  | c :: rest =>
    if isMark c then some (.mark c, rest)
    else if c = '"' then
      match closing? rest with
      | some (s, rest) => some (.quoted s, rest)
      | none => some (.quoted rest, [])
    else some (.plain (c :: rest.takeWhile isPlain), rest.dropWhile isPlain)

theorem length_lt_of_token? {cs rest : List Char} {t : Token} (h : token? cs = some (t, rest)) :
    rest.length < cs.length := by
  have hle : (skipSpace cs).length ≤ cs.length := (List.dropWhile_sublist isSpace).length_le
  unfold token? at h
  split at h
  · cases h
  · rename_i c ds hcons
    rw [hcons, List.length_cons] at hle
    split at h
    · cases h
      omega
    · split at h
      · split at h
        · rename_i s ds' hclosing
          cases h
          have hlength := congrArg List.length (closing?_eq hclosing)
          rw [List.length_append] at hlength
          omega
        · cases h
          exact Nat.zero_lt_of_lt hle
      · cases h
        have hdrop := (List.dropWhile_sublist isPlain (l := ds)).length_le
        omega

/-- The tokens of a text. -/
def tokens (cs : List Char) : List Token :=
  match _ : token? cs with
  | none => []
  | some (t, rest) => t :: tokens rest
termination_by cs.length
decreasing_by exact length_lt_of_token? ‹_›

theorem tokens_of_none {cs : List Char} (h : token? cs = none) : tokens cs = [] := by
  rw [tokens]
  split
  · rfl
  · rename_i heq
    cases h.symm.trans heq

theorem tokens_of_some {cs rest : List Char} {t : Token} (h : token? cs = some (t, rest)) :
    tokens cs = t :: tokens rest := by
  rw [tokens]
  split
  · rename_i heq
    cases h.symm.trans heq
  · rename_i heq
    cases h.symm.trans heq
    rfl

/-- The first token comes first. -/
theorem tokens_eq_cons {cs : List Char} {t : Token} {ts : List Token} :
    tokens cs = t :: ts ↔ ∃ rest, token? cs = some (t, rest) ∧ tokens rest = ts := by
  constructor
  · intro h
    cases hfirst : token? cs with
    | none => cases (tokens_of_none hfirst).symm.trans h
    | some found =>
      obtain ⟨t', rest⟩ := found
      obtain ⟨rfl, hrest⟩ := List.cons.inj ((tokens_of_some hfirst).symm.trans h)
      exact ⟨rest, rfl, hrest⟩
  · rintro ⟨rest, hfirst, rfl⟩
    exact tokens_of_some hfirst

theorem token?_eq_none {cs : List Char} : token? cs = none ↔ skipSpace cs = [] := by
  unfold token?
  split
  · simp [*]
  · rename_i c rest hcons
    simp only [hcons, reduceCtorEq, iff_false]
    split
    · nofun
    · split
      · split <;> nofun
      · nofun

theorem tokens_eq_nil {cs : List Char} : tokens cs = [] ↔ skipSpace cs = [] := by
  rw [← token?_eq_none]
  refine ⟨fun h => ?_, tokens_of_none⟩
  cases hfirst : token? cs with
  | none => rfl
  | some found => cases (tokens_of_some hfirst).symm.trans h

/-- A blank in front belongs to no token. -/
theorem tokens_cons_space {c : Char} (blank : isSpace c = true) (cs : List Char) :
    tokens (c :: cs) = tokens cs := by
  have hskip : skipSpace (c :: cs) = skipSpace cs := by simp [skipSpace, blank]
  have htoken : token? (c :: cs) = token? cs := by rw [token?, token?, hskip]
  cases h : token? cs with
  | none => rw [tokens_of_none h, tokens_of_none (htoken.trans h)]
  | some found => rw [tokens_of_some h, tokens_of_some (htoken.trans h)]

/-- No text has more tokens than characters. -/
theorem length_tokens_le (cs : List Char) : (tokens cs).length ≤ cs.length := by
  fun_induction tokens cs with
  | case1 => exact Nat.zero_le _
  | case2 cs t rest h ih =>
    have hlt := length_lt_of_token? h
    rw [List.length_cons]
    omega

/-! ## One token -/

section Token

variable {cs rest w : List Char} {c : Char}

/-- Nothing follows that would lengthen a word. -/
def EndsWord (cs : List Char) : Prop :=
  ∀ c ∈ cs.head?, isPlain c = false

theorem token?_mark (h : skipSpace cs = c :: rest) (mark : isMark c = true) :
    token? cs = some (.mark c, rest) := by
  simp only [token?, h, mark, if_true]

theorem skipSpace_of_mark (h : token? cs = some (.mark c, rest)) : skipSpace cs = c :: rest := by
  unfold token? at h
  split at h
  · cases h
  · rename_i d ds hcons
    split at h
    · cases h
      exact hcons
    · split at h
      · split at h <;> cases h
      · cases h

theorem token?_quoted {ds s : List Char} (h : skipSpace cs = '"' :: ds)
    (closed : closing? ds = some (s, rest)) : token? cs = some (.quoted s, rest) := by
  simp only [token?, h, closed]
  rfl

/-- A quoted text is what stands behind the quote, closed or not. -/
theorem skipSpace_of_quoted {s : List Char} (h : token? cs = some (.quoted s, rest)) :
    skipSpace cs = '"' :: (s ++ rest) := by
  unfold token? at h
  split at h
  · cases h
  · rename_i d ds hcons
    split at h
    · cases h
    · split at h
      · rename_i hquote
        subst hquote
        split at h
        · rename_i hclosing
          cases h
          rw [hcons, closing?_eq hclosing]
        · cases h
          rw [hcons, List.append_nil]
      · cases h

theorem token?_plain (h : skipSpace cs = w ++ rest) (ne : w ≠ [])
    (plain : ∀ c ∈ w, isPlain c = true) (ends : EndsWord rest) :
    token? cs = some (.plain w, rest) := by
  obtain ⟨c, w, rfl⟩ := List.exists_cons_of_ne_nil ne
  obtain ⟨hc, hw⟩ := List.forall_mem_cons.mp plain
  simp only [isPlain, Bool.and_eq_true, Bool.not_eq_true', bne_iff_ne, ne_eq] at hc
  obtain ⟨htake, hdrop⟩ := takeWhile_run hw ends
  rw [List.cons_append] at h
  simp only [token?, h, hc.1.2, hc.2, htake, hdrop, Bool.false_eq_true, if_false]

theorem skipSpace_of_plain (h : token? cs = some (.plain w, rest)) :
    skipSpace cs = w ++ rest ∧ EndsWord rest := by
  unfold token? at h
  split at h
  · cases h
  · rename_i d ds hcons
    split at h
    · cases h
    · split at h
      · split at h <;> cases h
      · cases h
        refine ⟨by rw [hcons, List.cons_append, List.takeWhile_append_dropWhile], fun c hc => ?_⟩
        have hhead := List.head?_dropWhile_not isPlain ds
        rw [Option.mem_def.mp hc] at hhead
        exact hhead

end Token

/-! ## Where a number ends -/

theorem isPlain_sign {c : Char} (sign : c = '-' ∨ c.isDigit = true) : isPlain c = true := by
  have hother (d : Char) := @sign_ne c d sign
  simp [isPlain, isMark, isSpace_sign sign, hother '{' (by decide), hother '}' (by decide),
    hother '[' (by decide), hother ']' (by decide), hother ':' (by decide),
    hother ',' (by decide), hother '"' (by decide)]

theorem isPlain_digits {ds : List Char} (digits : AllDigits ds) : ∀ c ∈ ds, isPlain c = true :=
  fun c hc => isPlain_sign (.inr (digits c hc))

/-- What ends a word ends a number. -/
theorem EndsWord.endsNumber {cs : List Char} (h : EndsWord cs) : EndsNumber cs := by
  intro c hc
  have hplain := h c hc
  refine ⟨?_, ?_, ?_, ?_⟩
  · cases hdigit : c.isDigit with
    | false => rfl
    | true => exact absurd (isPlain_sign (.inr hdigit)) (by simp [hplain])
  all_goals
    rintro rfl
    cases hplain

section Local

variable {cs rest ds : List Char}

theorem mem_head?_append {c : Char} (h : c ∈ (cs ++ rest).head?) :
    c ∈ cs.head? ∨ c ∈ rest.head? := by
  cases cs with
  | nil => exact .inr h
  | cons d cs => exact .inl h

theorem digitRun?_eq_some (h : digitRun? cs = some (ds, rest)) :
    cs = ds ++ rest ∧ AllDigits ds ∧ ds ≠ [] := by
  unfold digitRun? at h
  split at h
  · cases h
  · rename_i hne
    cases h
    refine ⟨List.takeWhile_append_dropWhile.symm, fun c hc => ?_, hne⟩
    exact List.all_eq_true.mp List.all_takeWhile c hc

/-- Digits in front of the point are taken whatever follows them, as long as it is no digit. -/
theorem whole?_local (h : whole? cs = some (ds, rest)) :
    cs = ds ++ rest ∧ AllDigits ds ∧ ds ≠ [] ∧
      ∀ more, EndsDigits more → whole? (ds ++ more) = some (ds, more) := by
  have hrun : digitRun? cs = some (ds, rest) := by
    unfold whole? at h
    split at h
    · cases h
    · exact h
  obtain ⟨heq, hdigits, hne⟩ := digitRun?_eq_some hrun
  refine ⟨heq, hdigits, hne, fun more ends => whole?_digits hdigits hne ?_ ends⟩
  rw [whole?, hrun] at h
  cases ds with
  | nil => exact absurd rfl hne
  | cons d ds =>
    by_cases hzero : d = '0'
    · subst hzero
      cases ds with
      | nil => exact .inr rfl
      | cons d' ds => cases h
    · exact .inl (by simpa using hzero)

/-- So is what is made of a run of digits. -/
theorem map_digitRun?_eq_some {α : Type} {f : List Char → α} {a : α}
    (h : ((digitRun? cs).map fun (ds, rest) => (f ds, rest)) = some (a, rest)) :
    ∃ ds, cs = ds ++ rest ∧ AllDigits ds ∧ ds ≠ [] ∧ f ds = a := by
  obtain ⟨⟨ds, _⟩, hrun, heq⟩ := Option.map_eq_some_iff.mp h
  obtain ⟨rfl, rfl⟩ := Prod.mk.inj heq
  obtain ⟨heq, hdigits, hne⟩ := digitRun?_eq_some hrun
  exact ⟨ds, heq, hdigits, hne, rfl⟩

theorem fraction?_local {f : Option (List Char)} (h : fraction? cs = some (f, rest)) :
    ∃ w, cs = w ++ rest ∧ (∀ c ∈ w, isPlain c = true) ∧
      (∀ c ∈ w.head?, c = '.') ∧
      ∀ more, EndsDigits more → (∀ c ∈ more.head?, c ≠ '.') →
        fraction? (w ++ more) = some (f, more) := by
  unfold fraction? at h
  split at h
  · obtain ⟨ds, rfl, hdigits, hne, rfl⟩ := map_digitRun?_eq_some h
    refine ⟨'.' :: ds, rfl, List.forall_mem_cons.mpr ⟨rfl, isPlain_digits hdigits⟩, by simp,
      fun more ends _ => fraction?_point hdigits hne ends⟩
  · cases h
    exact ⟨[], rfl, nofun, nofun, fun more _ point => fraction?_none point⟩

theorem exponentDigits?_local {e : Option Int} (h : exponentDigits? cs = some (e, rest)) :
    ∃ w, cs = w ++ rest ∧ (∀ c ∈ w, isPlain c = true) ∧
      ∀ more, EndsDigits more → exponentDigits? (w ++ more) = some (e, more) := by
  unfold exponentDigits? at h
  split at h
  · obtain ⟨ds, rfl, hdigits, hne, rfl⟩ :=
      map_digitRun?_eq_some (f := fun ds => some (-(natOfDigits ds : Int))) h
    refine ⟨'-' :: ds, rfl, List.forall_mem_cons.mpr ⟨rfl, isPlain_digits hdigits⟩,
      fun more ends => ?_⟩
    rw [List.cons_append, exponentDigits?, digitRun?_digits hdigits hne ends]
    rfl
  · obtain ⟨ds, rfl, hdigits, hne, rfl⟩ :=
      map_digitRun?_eq_some (f := fun ds => some (natOfDigits ds : Int)) h
    refine ⟨'+' :: ds, rfl, List.forall_mem_cons.mpr ⟨rfl, isPlain_digits hdigits⟩,
      fun more ends => ?_⟩
    rw [List.cons_append, exponentDigits?, digitRun?_digits hdigits hne ends]
    rfl
  · obtain ⟨ds, rfl, hdigits, hne, rfl⟩ :=
      map_digitRun?_eq_some (f := fun ds => some (natOfDigits ds : Int)) h
    refine ⟨ds, rfl, isPlain_digits hdigits, fun more ends => ?_⟩
    -- the first digit is no sign
    obtain ⟨d, ds, rfl⟩ := List.exists_cons_of_ne_nil hne
    have hdigit := hdigits d List.mem_cons_self
    rw [exponentDigits?, digitRun?_digits hdigits hne ends]
    · rfl
    · rintro rest' heq
      cases heq
      cases hdigit
    · rintro rest' heq
      cases heq
      cases hdigit

theorem exponent?_local {e : Option Int} (h : exponent? cs = some (e, rest)) :
    ∃ w, cs = w ++ rest ∧ (∀ c ∈ w, isPlain c = true) ∧
      (∀ c ∈ w.head?, c = 'e' ∨ c = 'E') ∧
      ∀ more, EndsNumber more → exponent? (w ++ more) = some (e, more) := by
  unfold exponent? at h
  split at h
  · obtain ⟨w, rfl, hplain, htakes⟩ := exponentDigits?_local h
    exact ⟨'e' :: w, rfl, List.forall_mem_cons.mpr ⟨rfl, hplain⟩, by simp,
      fun more ends => htakes more ends.endsDigits⟩
  · obtain ⟨w, rfl, hplain, htakes⟩ := exponentDigits?_local h
    exact ⟨'E' :: w, rfl, List.forall_mem_cons.mpr ⟨rfl, hplain⟩, by simp,
      fun more ends => htakes more ends.endsDigits⟩
  · cases h
    exact ⟨[], rfl, nofun, nofun,
      fun more ends => exponent?_none fun c hc => (ends c hc).2.2⟩

theorem unsigned?_local {negative : Bool} {n : Number}
    (h : unsigned? negative cs = some (n, rest)) :
    ∃ w, cs = w ++ rest ∧ (∀ c ∈ w, isPlain c = true) ∧
      ∀ more, EndsNumber more → unsigned? negative (w ++ more) = some (n, more) := by
  simp only [unsigned?, Option.bind_eq_bind, Option.bind_eq_some_iff, Prod.exists] at h
  obtain ⟨whole, cs₁, hwhole, fraction, cs₂, hfraction, exponent, cs₃, hexponent, heq⟩ := h
  cases heq
  obtain ⟨rfl, hdigits, -, hwholes⟩ := whole?_local hwhole
  obtain ⟨point, rfl, hpoint, hpoints, hfractions⟩ := fraction?_local hfraction
  obtain ⟨letter, rfl, hletter, hletters, hexponents⟩ := exponent?_local hexponent
  refine ⟨whole ++ (point ++ letter), by simp only [List.append_assoc], ?_, fun more ends => ?_⟩
  · rw [List.forall_mem_append, List.forall_mem_append]
    exact ⟨isPlain_digits hdigits, hpoint, hletter⟩
  · -- none of the parts starts with what would lengthen the one before it
    have hends : EndsDigits (letter ++ more) ∧ ∀ c ∈ (letter ++ more).head?, c ≠ '.' := by
      have hhead : ∀ c ∈ (letter ++ more).head?, c.isDigit = false ∧ c ≠ '.' := by
        intro c hc
        rcases mem_head?_append hc with hfront | hmore
        · rcases hletters c hfront with rfl | rfl <;> decide
        · exact ⟨(ends c hmore).1, (ends c hmore).2.1⟩
      exact ⟨fun c hc => (hhead c hc).1, fun c hc => (hhead c hc).2⟩
    have hends' : EndsDigits (point ++ (letter ++ more)) := by
      intro c hc
      rcases mem_head?_append hc with hfront | hmore
      · rw [hpoints c hfront]
        rfl
      · exact hends.1 c hmore
    simp only [unsigned?, List.append_assoc, hwholes _ hends', hfractions _ hends.1 hends.2,
      hexponents _ ends, Option.bind_eq_bind, Option.bind_some]
    rfl

/-- A number is taken whatever follows it, as long as that ends a number. -/
theorem number?_local {n : Number} (h : number? cs = some (n, rest)) :
    ∃ w, cs = w ++ rest ∧ w ≠ [] ∧ (∀ c ∈ w, isPlain c = true) ∧
      ∀ more, EndsNumber more → number? (w ++ more) = some (n, more) := by
  have hsigned : ∃ w, cs = w ++ rest ∧ (∀ c ∈ w, isPlain c = true) ∧
      ∀ more, EndsNumber more → number? (w ++ more) = some (n, more) := by
    unfold number? at h
    split at h
    · obtain ⟨w, rfl, hplain, htakes⟩ := unsigned?_local h
      exact ⟨'-' :: w, rfl, List.forall_mem_cons.mpr ⟨rfl, hplain⟩, htakes⟩
    · obtain ⟨w, rfl, hplain, htakes⟩ := unsigned?_local h
      exact ⟨w, rfl, hplain, fun more ends => number?_sign (htakes more ends)⟩
  obtain ⟨w, rfl, hplain, htakes⟩ := hsigned
  refine ⟨w, rfl, ?_, hplain, htakes⟩
  rintro rfl
  cases htakes [] nofun

end Local

/-! ## Where a quoted text ends -/

/-- What is done with the characters that were read does not depend on what follows them. -/
def TextRead.Passes (f : TextRead → TextRead) : Prop :=
  ∀ (read : TextRead) (s : Option (List Char)) (rest : List Char), f read = some (s, rest) →
    ∃ s', read = some (s', rest) ∧ ∀ more, f (some (s', more)) = some (s, more)

theorem TextRead.passes_push (c : Char) : Passes (push c) := by
  intro read s rest h
  obtain ⟨⟨s', _⟩, hread, heq⟩ := Option.map_eq_some_iff.mp h
  cases heq
  exact ⟨s', hread, fun more => rfl⟩

theorem TextRead.passes_spoil : Passes spoil := by
  intro read s rest h
  obtain ⟨⟨s', _⟩, hread, heq⟩ := Option.map_eq_some_iff.mp h
  cases heq
  exact ⟨s', hread, fun more => rfl⟩

theorem TextRead.passes_after (waiting : Option Nat) : Passes (after waiting) := by
  intro read s rest h
  cases waiting with
  | none => exact ⟨s, h, fun more => rfl⟩
  | some high => exact passes_spoil read s rest h

theorem TextRead.Passes.comp {f g : TextRead → TextRead} (hf : Passes f) (hg : Passes g) :
    Passes fun read => f (g read) := by
  intro read s rest h
  obtain ⟨s', hread, hmore⟩ := hf _ _ _ h
  obtain ⟨s'', hread', hmore'⟩ := hg _ _ _ hread
  refine ⟨s'', hread', fun more => ?_⟩
  show f (g (some (s'', more))) = _
  rw [hmore', hmore]

section Quoted

variable {waiting next : Option Nat} {cs tail rest s : List Char} {t : Option (List Char)}
  {c : Char}

theorem closing?_cons (quote : c ≠ '"') (backslash : c ≠ '\\')
    (h : closing? tail = some (s, rest)) : closing? (c :: tail) = some (c :: s, rest) := by
  rw [closing?, h]
  · rfl
  · exact quote
  · exact fun _ _ heq _ => backslash heq

theorem closing?_escape (c : Char) (h : closing? tail = some (s, rest)) :
    closing? ('\\' :: c :: tail) = some ('\\' :: c :: s, rest) := by
  rw [closing?, h]
  rfl

/-- A hexadecimal digit is no quote and no backslash. -/
theorem ne_of_hexDigit? {n : Nat} (h : hexDigit? c = some n) : c ≠ '"' ∧ c ≠ '\\' := by
  constructor
  · rintro rfl
    cases h
  · rintro rfl
    cases h

theorem closing?_code {a b c d : Char} {n : Nat} (code : readHex? [a, b, c, d] = some n)
    (h : closing? tail = some (s, rest)) :
    closing? ('\\' :: 'u' :: a :: b :: c :: d :: tail) =
      some ('\\' :: 'u' :: a :: b :: c :: d :: s, rest) := by
  simp only [readHex?, List.foldlM_cons, Option.bind_eq_bind, Option.bind_eq_some_iff,
    Option.map_eq_some_iff] at code
  obtain ⟨_, ⟨_, ha, -⟩, _, ⟨_, hb, -⟩, _, ⟨_, hc, -⟩, _, ⟨_, hd, -⟩, -⟩ := code
  apply closing?_escape
  apply closing?_cons (ne_of_hexDigit? ha).1 (ne_of_hexDigit? ha).2
  apply closing?_cons (ne_of_hexDigit? hb).1 (ne_of_hexDigit? hb).2
  apply closing?_cons (ne_of_hexDigit? hc).1 (ne_of_hexDigit? hc).2
  exact closing?_cons (ne_of_hexDigit? hd).1 (ne_of_hexDigit? hd).2 h

/-- The text ends where the rest of it ends, when some characters of it have been read. -/
theorem quoted?_step (front : List Char) {f : TextRead → TextRead} (passes : TextRead.Passes f)
    (reads : ∀ tail, quoted? waiting (front ++ tail) = f (quoted? next tail))
    (closes : ∀ s rest, closing? tail = some (s, rest) →
      closing? (front ++ tail) = some (front ++ s, rest))
    (ih : ∀ {t}, quoted? next tail = some (t, rest) →
      ∃ s, closing? tail = some (s, rest) ∧ ∀ more, quoted? next (s ++ more) = some (t, more))
    (h : f (quoted? next tail) = some (t, rest)) :
    ∃ s, closing? (front ++ tail) = some (s, rest) ∧
      ∀ more, quoted? waiting (s ++ more) = some (t, more) := by
  obtain ⟨t', hread, hmore⟩ := passes _ _ _ h
  obtain ⟨s, hclosing, htakes⟩ := ih hread
  refine ⟨front ++ s, closes s rest hclosing, fun more => ?_⟩
  rw [List.append_assoc, reads, htakes, hmore]

/-- A quoted text is taken whatever follows it. -/
theorem quoted?_local (h : quoted? waiting cs = some (t, rest)) :
    ∃ s, closing? cs = some (s, rest) ∧ ∀ more, quoted? waiting (s ++ more) = some (t, more) := by
  fun_induction quoted? waiting cs generalizing t with
  | case1 => cases h
  | case2 waiting rest' =>
    obtain ⟨s, hread, hmore⟩ := TextRead.passes_after waiting _ _ _ h
    cases hread
    exact ⟨['"'], rfl, fun more => by rw [List.cons_append, quoted?, List.nil_append, hmore]⟩
  | case3 => cases h
  | case4 waiting a b c d tail n code high ih =>
    refine quoted?_step ['\\', 'u', a, b, c, d] (TextRead.passes_after waiting)
      (fun tail => ?_) (fun s rest => closing?_code code) ih h
    simp only [List.cons_append, List.nil_append, quoted?, code, high, if_true]
  | case5 a b c d tail n code high low partner ih =>
    refine quoted?_step ['\\', 'u', a, b, c, d] (TextRead.passes_push _)
      (fun tail => ?_) (fun s rest => closing?_code code) ih h
    simp only [List.cons_append, List.nil_append, quoted?, code, high, low, if_true, if_false,
      Bool.false_eq_true]
  | case6 a b c d tail n code high low ih =>
    refine quoted?_step ['\\', 'u', a, b, c, d] TextRead.passes_spoil
      (fun tail => ?_) (fun s rest => closing?_code code) ih h
    simp only [List.cons_append, List.nil_append, quoted?, code, high, low, if_true, if_false,
      Bool.false_eq_true]
  | case7 waiting a b c d tail n code high low ih =>
    refine quoted?_step ['\\', 'u', a, b, c, d]
      ((TextRead.passes_after waiting).comp (TextRead.passes_push _))
      (fun tail => ?_) (fun s rest => closing?_code code) ih h
    simp only [List.cons_append, List.nil_append, quoted?, code, high, low, if_false,
      Bool.false_eq_true]
  | case8 waiting c tail _ e escape ih =>
    refine quoted?_step ['\\', c]
      ((TextRead.passes_after waiting).comp (TextRead.passes_push _))
      (fun tail => ?_) (fun s rest => closing?_escape c) ih h
    have hcode : c ≠ 'u' := by
      rintro rfl
      cases escape
    rw [List.cons_append, List.singleton_append, quoted?, escape]
    exact fun _ _ _ _ _ heq _ => hcode heq
  | case9 => cases h
  | case10 => cases h
  | case11 waiting c tail quote code escape printable ih =>
    have hbackslash : c ≠ '\\' := by
      rintro rfl
      cases tail with
      | nil =>
        obtain ⟨_, hread, -⟩ :=
          (TextRead.passes_after waiting).comp (TextRead.passes_push _) _ _ _ h
        cases hread
      | cons d tail => exact escape d tail rfl rfl
    refine quoted?_step [c]
      ((TextRead.passes_after waiting).comp (TextRead.passes_push _))
      (fun tail => ?_) (fun s rest => closing?_cons quote hbackslash) ih h
    rw [List.singleton_append, quoted?, if_neg printable]
    · exact quote
    · exact fun _ _ _ _ _ heq _ => hbackslash heq
    · exact fun _ _ heq _ => hbackslash heq

end Quoted

end CacheAside.Json
