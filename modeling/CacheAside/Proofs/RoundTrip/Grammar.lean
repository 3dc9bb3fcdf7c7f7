import CacheAside.Proofs.RoundTrip.Tokens
import Mathlib.Data.List.DropRight

/-!
# The grammar of JSON

`Spells` says which tokens write a value, without any reader.  The reader finds exactly the values
that are written: tokens that write a value are read to it (`value_of_spells`), and what is read
without a complaint is written by its tokens (`reads`).  Each call of the reader does one
of a few things (`valueStep`, `itemsStep`, `membersStep`), and the inductions on the fuel go by
them.
-/

namespace CacheAside.Json

/-! ## Values and the tokens that write them -/

mutual

/-- The tokens write the value. -/
inductive Spells : List Token → Json → Prop where
  | null : Spells [.plain "null".toList] .null
  | true : Spells [.plain "true".toList] (.boolean true)
  | false : Spells [.plain "false".toList] (.boolean false)
  | number {w : List Char} {n : Number} (spelled : number? w = some (n, [])) :
      Spells [.plain w] (.number n)
  | string {s : List Char} {t : Option (List Char)} (spelled : quoted? none s = some (t, [])) :
      Spells [.quoted s] (.string (t.map String.ofList))
  | emptyArray : Spells [.mark '[', .mark ']'] (.array [])
  | array {ts : List Token} {js : List Json} (inside : SpellsItems ts js) :
      Spells (.mark '[' :: ts) (.array js)
  | emptyObject : Spells [.mark '{', .mark '}'] (.object [])
  | object {ts : List Token} {ms : List (Text × Json)} (inside : SpellsMembers ts ms) :
      Spells (.mark '{' :: ts) (.object ms)

/-- The tokens write the items of an array and its closing bracket. -/
inductive SpellsItems : List Token → List Json → Prop where
  | last {ts : List Token} {j : Json} (item : Spells ts j) : SpellsItems (ts ++ [.mark ']']) [j]
  | more {ts us : List Token} {j : Json} {js : List Json} (item : Spells ts j)
      (others : SpellsItems us js) : SpellsItems (ts ++ .mark ',' :: us) (j :: js)

/-- The tokens write the members of an object and its closing brace. -/
inductive SpellsMembers : List Token → List (Text × Json) → Prop where
  | last {s : List Char} {name : Option (List Char)} {ts : List Token} {j : Json}
      (named : quoted? none s = some (name, [])) (value : Spells ts j) :
      SpellsMembers (.quoted s :: .mark ':' :: (ts ++ [.mark '}'])) [(name.map String.ofList, j)]
  | more {s : List Char} {name : Option (List Char)} {ts us : List Token} {j : Json}
      {ms : List (Text × Json)} (named : quoted? none s = some (name, [])) (value : Spells ts j)
      (others : SpellsMembers us ms) :
      SpellsMembers (.quoted s :: .mark ':' :: (ts ++ .mark ',' :: us))
        ((name.map String.ofList, j) :: ms)

end

/-- The text is JSON and writes the value. -/
def IsText (text : String) (j : Json) : Prop :=
  Spells (tokens text.toList) j

/-! ## What one call of the reader does -/

/-- What `value` does, when the values inside are read with less fuel. -/
inductive ValueStep (fuel : Nat) (cs : List Char) : Json → Option (List Char) → Prop where
  | null {rest : List Char} (h : skipSpace cs = "null".toList ++ rest) :
      ValueStep fuel cs .null (some rest)
  | true {rest : List Char} (h : skipSpace cs = "true".toList ++ rest) :
      ValueStep fuel cs (.boolean true) (some rest)
  | false {rest : List Char} (h : skipSpace cs = "false".toList ++ rest) :
      ValueStep fuel cs (.boolean false) (some rest)
  | number {n : Number} {rest : List Char} (h : number? (skipSpace cs) = some (n, rest)) :
      ValueStep fuel cs (.number n) (some rest)
  | string {t : Option (List Char)} {ds rest : List Char} (h : skipSpace cs = '"' :: ds)
      (closed : quoted? none ds = some (t, rest)) :
      ValueStep fuel cs (.string (t.map String.ofList)) (some rest)
  | emptyArray {ds rest : List Char} (h : skipSpace cs = '[' :: ds)
      (closed : skipSpace ds = ']' :: rest) : ValueStep fuel cs (.array []) (some rest)
  | array {ds : List Char} {js : List Json} {left : Option (List Char)}
      (h : skipSpace cs = '[' :: ds) (inside : items fuel ds = (js, left)) :
      ValueStep fuel cs (.array js) left
  | emptyObject {ds rest : List Char} (h : skipSpace cs = '{' :: ds)
      (closed : skipSpace ds = '}' :: rest) : ValueStep fuel cs (.object []) (some rest)
  | object {ds : List Char} {ms : List (Text × Json)} {left : Option (List Char)}
      (h : skipSpace cs = '{' :: ds) (inside : members fuel ds = (ms, left)) :
      ValueStep fuel cs (.object ms) left
  | broken : ValueStep fuel cs .broken none

/-- What `items` does. -/
inductive ItemsStep (fuel : Nat) (cs : List Char) : List Json → Option (List Char) → Prop where
  | stuck {j : Json} (item : value fuel cs = (j, none)) : ItemsStep fuel cs [j] none
  | last {j : Json} {ds rest : List Char} (item : value fuel cs = (j, some ds))
      (closed : skipSpace ds = ']' :: rest) : ItemsStep fuel cs [j] (some rest)
  | more {j : Json} {js : List Json} {ds es : List Char} {left : Option (List Char)}
      (item : value fuel cs = (j, some ds)) (comma : skipSpace ds = ',' :: es)
      (others : items fuel es = (js, left)) : ItemsStep fuel cs (j :: js) left
  | broken {j : Json} : ItemsStep fuel cs [j, .broken] none

/-- What `members` does. -/
inductive MembersStep (fuel : Nat) (cs : List Char) :
    List (Text × Json) → Option (List Char) → Prop where
  | broken {name : Text} : MembersStep fuel cs [(name, .broken)] none
  | stuck {name : Text} {j : Json} {ds : List Char} (value : Json.value fuel ds = (j, none)) :
      MembersStep fuel cs [(name, j)] none
  | last {name : Option (List Char)} {j : Json} {ds es fs gs rest : List Char}
      (h : skipSpace cs = '"' :: ds) (named : quoted? none ds = some (name, es))
      (colon : skipSpace es = ':' :: fs) (value : Json.value fuel fs = (j, some gs))
      (closed : skipSpace gs = '}' :: rest) :
      MembersStep fuel cs [(name.map String.ofList, j)] (some rest)
  | more {name : Option (List Char)} {j : Json} {ds es fs gs hs : List Char}
      {ms : List (Text × Json)} {left : Option (List Char)}
      (h : skipSpace cs = '"' :: ds) (named : quoted? none ds = some (name, es))
      (colon : skipSpace es = ':' :: fs) (value : Json.value fuel fs = (j, some gs))
      (comma : skipSpace gs = ',' :: hs) (others : members fuel hs = (ms, left)) :
      MembersStep fuel cs ((name.map String.ofList, j) :: ms) left
  | unended {member : Text × Json} : MembersStep fuel cs [member, (none, .broken)] none

theorem word_step {letters cs : List Char} {j : Json} :
    word letters j cs = (.broken, none) ∨
      ∃ rest, cs = letters ++ rest ∧ word letters j cs = (j, some rest) := by
  unfold word
  split
  · rename_i hprefix
    obtain ⟨rest, rfl⟩ := List.isPrefixOf_iff_prefix.mp hprefix
    exact .inr ⟨rest, rfl, by rw [List.drop_left]⟩
  · exact .inl rfl

theorem valueStep (fuel : Nat) (cs : List Char) :
    ValueStep fuel cs (value (fuel + 1) cs).1 (value (fuel + 1) cs).2 := by
  rw [value]
  split
  · rename_i rest h
    rcases @word_step "ull".toList rest .null with hword | ⟨rest', rfl, hword⟩
    · rw [hword]
      exact .broken
    · rw [hword]
      exact .null h
  · rename_i rest h
    rcases @word_step "rue".toList rest (.boolean true) with hword | ⟨rest', rfl, hword⟩
    · rw [hword]
      exact .broken
    · rw [hword]
      exact .true h
  · rename_i rest h
    rcases @word_step "alse".toList rest (.boolean false) with hword | ⟨rest', rfl, hword⟩
    · rw [hword]
      exact .broken
    · rw [hword]
      exact .false h
  · rename_i ds h
    split
    · rename_i t rest hclosed
      exact .string h hclosed
    · exact .broken
  · rename_i ds h
    split
    · rename_i rest hclosed
      exact .emptyArray h hclosed
    · exact .array h rfl
  · rename_i ds h
    split
    · rename_i rest hclosed
      exact .emptyObject h hclosed
    · exact .object h rfl
  · split
    · rename_i n rest hnumber
      exact .number hnumber
    · exact .broken

theorem itemsStep (fuel : Nat) (cs : List Char) :
    ItemsStep fuel cs (items (fuel + 1) cs).1 (items (fuel + 1) cs).2 := by
  rw [items]
  split
  · rename_i j hitem
    exact .stuck hitem
  · rename_i j ds hitem
    split
    · rename_i rest hclosed
      exact .last hitem hclosed
    · rename_i es hcomma
      exact .more hitem hcomma rfl
    · exact .broken

theorem membersStep (fuel : Nat) (cs : List Char) :
    MembersStep fuel cs (members (fuel + 1) cs).1 (members (fuel + 1) cs).2 := by
  rw [members]
  split
  · rename_i ds h
    split
    · exact .broken
    · rename_i name es hnamed
      split
      · rename_i fs hcolon
        split
        · rename_i j hvalue
          exact .stuck hvalue
        · rename_i j gs hvalue
          split
          · rename_i rest hclosed
            exact .last h hnamed hcolon hvalue hclosed
          · rename_i hs hcomma
            exact .more h hnamed hcolon hvalue hcomma rfl
          · exact .unended
      · exact .broken
  · exact .broken

/-! ## What is written is read -/

section Reading

variable {fuel : Nat} {cs : List Char} {ts us : List Token} {c : Char}

theorem skipSpace_of_mark_tokens (h : tokens cs = .mark c :: us) :
    ∃ rest, skipSpace cs = c :: rest ∧ tokens rest = us := by
  obtain ⟨rest, hfirst, hrest⟩ := tokens_eq_cons.mp h
  exact ⟨rest, skipSpace_of_mark hfirst, hrest⟩

/-- A quoted token is read as it is by itself. -/
theorem quoted?_of_tokens {s : List Char} {t : Option (List Char)}
    (spelled : quoted? none s = some (t, [])) (h : tokens cs = .quoted s :: us) :
    ∃ ds rest, skipSpace cs = '"' :: ds ∧ quoted? none ds = some (t, rest) ∧ tokens rest = us := by
  obtain ⟨rest, hfirst, hrest⟩ := tokens_eq_cons.mp h
  obtain ⟨s', hclosing, htakes⟩ := quoted?_local spelled
  have hs : s = s' ++ [] := closing?_eq hclosing
  rw [List.append_nil] at hs
  subst hs
  exact ⟨_, rest, skipSpace_of_quoted hfirst, htakes rest, hrest⟩

/-- So is a number. -/
theorem number?_of_tokens {w : List Char} {n : Number} (spelled : number? w = some (n, []))
    (h : tokens cs = .plain w :: us) :
    ∃ rest, number? (skipSpace cs) = some (n, rest) ∧ tokens rest = us := by
  obtain ⟨rest, hfirst, hrest⟩ := tokens_eq_cons.mp h
  obtain ⟨hw, hends⟩ := skipSpace_of_plain hfirst
  obtain ⟨w', heq, -, -, htakes⟩ := number?_local spelled
  rw [List.append_nil] at heq
  subst heq
  refine ⟨rest, ?_, hrest⟩
  rw [hw]
  exact htakes rest hends.endsNumber

theorem word_of_tokens {w : List Char} (h : tokens cs = .plain w :: us) :
    ∃ rest, skipSpace cs = w ++ rest ∧ tokens rest = us := by
  obtain ⟨rest, hfirst, hrest⟩ := tokens_eq_cons.mp h
  exact ⟨rest, (skipSpace_of_plain hfirst).1, hrest⟩

/-- Where another token comes first, the mark does not. -/
theorem skipSpace_ne_mark {t : Token} (h : tokens cs = t :: us) (ne : t ≠ .mark c)
    (mark : isMark c = true) (rest : List Char) : skipSpace cs ≠ c :: rest := by
  intro hspace
  have hfirst := (tokens_of_some (token?_mark hspace mark)).symm.trans h
  exact ne (List.cons.inj hfirst).1.symm

theorem value_skipSpace : value (fuel + 1) (skipSpace cs) = value (fuel + 1) cs := by
  have hagain : skipSpace (skipSpace cs) = skipSpace cs := List.dropWhile_idempotent _ _
  rw [value, value, hagain]

end Reading

/-- The items of an array do not start with the bracket that closes it. -/
theorem SpellsItems.exists_cons {ts : List Token} {js : List Json} (h : SpellsItems ts js) :
    ∃ t us, ts = t :: us ∧ t ≠ .mark ']' := by
  have hvalue {ts : List Token} {j : Json} (h : Spells ts j) :
      ∃ t us, ts = t :: us ∧ t ≠ .mark ']' := by
    cases h <;> exact ⟨_, _, rfl, by simp⟩
  cases h with
  | last item =>
    obtain ⟨t, us, rfl, hne⟩ := hvalue item
    exact ⟨t, _, rfl, hne⟩
  | more item others =>
    obtain ⟨t, us, rfl, hne⟩ := hvalue item
    exact ⟨t, _, rfl, hne⟩

theorem SpellsMembers.exists_cons {ts : List Token} {ms : List (Text × Json)}
    (h : SpellsMembers ts ms) : ∃ t us, ts = t :: us ∧ t ≠ .mark '}' := by
  cases h <;> exact ⟨_, _, rfl, by simp⟩

mutual

/-- Tokens that write a value are read to that value, whatever follows them. -/
theorem value_of_spells : {ts : List Token} → {j : Json} → Spells ts j → (fuel : Nat) →
    (cs : List Char) → (us : List Token) → ts.length ≤ fuel → tokens cs = ts ++ us →
      ∃ rest, value fuel cs = (j, some rest) ∧ tokens rest = us
  | _, _, .null, fuel + 1, cs, us, _, h => by
    obtain ⟨rest, hspace, hrest⟩ := word_of_tokens h
    exact ⟨rest, by simp [value, hspace, word], hrest⟩
  | _, _, .true, fuel + 1, cs, us, _, h => by
    obtain ⟨rest, hspace, hrest⟩ := word_of_tokens h
    exact ⟨rest, by simp [value, hspace, word], hrest⟩
  | _, _, .false, fuel + 1, cs, us, _, h => by
    obtain ⟨rest, hspace, hrest⟩ := word_of_tokens h
    exact ⟨rest, by simp [value, hspace, word], hrest⟩
  | _, _, .number spelled, fuel + 1, cs, us, _, h => by
    obtain ⟨rest, hnumber, hrest⟩ := number?_of_tokens spelled h
    exact ⟨rest, by rw [← value_skipSpace, value_number hnumber], hrest⟩
  | _, _, .string spelled, fuel + 1, cs, us, _, h => by
    obtain ⟨ds, rest, hspace, hquoted, hrest⟩ := quoted?_of_tokens spelled h
    exact ⟨rest, by simp [value, hspace, hquoted], hrest⟩
  | _, _, .emptyArray, fuel + 1, cs, us, _, h => by
    obtain ⟨ds, hspace, hds⟩ := skipSpace_of_mark_tokens h
    obtain ⟨rest, hclosed, hrest⟩ := skipSpace_of_mark_tokens hds
    exact ⟨rest, by simp [value, hspace, hclosed], hrest⟩
  | _, _, .array inside, fuel + 1, cs, us, enough, h => by
    obtain ⟨ds, hspace, hds⟩ := skipSpace_of_mark_tokens h
    obtain ⟨rest, hitems, hrest⟩ := items_of_spells inside fuel ds us (by simpa using enough) hds
    obtain ⟨t, us', rfl, hne⟩ := inside.exists_cons
    have hopen := skipSpace_ne_mark hds hne rfl
    exact ⟨rest, by simp only [value, hspace, hitems], hrest⟩
  | _, _, .emptyObject, fuel + 1, cs, us, _, h => by
    obtain ⟨ds, hspace, hds⟩ := skipSpace_of_mark_tokens h
    obtain ⟨rest, hclosed, hrest⟩ := skipSpace_of_mark_tokens hds
    exact ⟨rest, by simp [value, hspace, hclosed], hrest⟩
  | _, _, .object inside, fuel + 1, cs, us, enough, h => by
    obtain ⟨ds, hspace, hds⟩ := skipSpace_of_mark_tokens h
    obtain ⟨rest, hmembers, hrest⟩ :=
      members_of_spells inside fuel ds us (by simpa using enough) hds
    obtain ⟨t, us', rfl, hne⟩ := inside.exists_cons
    have hopen := skipSpace_ne_mark hds hne rfl
    exact ⟨rest, by simp only [value, hspace, hmembers], hrest⟩

theorem items_of_spells : {ts : List Token} → {js : List Json} → SpellsItems ts js →
    (fuel : Nat) → (cs : List Char) → (us : List Token) → ts.length ≤ fuel →
      tokens cs = ts ++ us → ∃ rest, items fuel cs = (js, some rest) ∧ tokens rest = us
  | _, _, .last item, fuel, cs, us, enough, h => by
    rw [List.length_append, List.length_singleton] at enough
    obtain ⟨fuel, rfl⟩ : ∃ n, fuel = n + 1 := ⟨fuel - 1, by omega⟩
    rw [List.append_assoc] at h
    obtain ⟨ds, hitem, hds⟩ := value_of_spells item fuel cs _ (by omega) h
    obtain ⟨rest, hclosed, hrest⟩ := skipSpace_of_mark_tokens hds
    exact ⟨rest, by simp [items, hitem, hclosed], hrest⟩
  | _, _, .more item others, fuel, cs, us, enough, h => by
    rw [List.length_append, List.length_cons] at enough
    obtain ⟨fuel, rfl⟩ : ∃ n, fuel = n + 1 := ⟨fuel - 1, by omega⟩
    rw [List.append_assoc] at h
    obtain ⟨ds, hitem, hds⟩ := value_of_spells item fuel cs _ (by omega) h
    obtain ⟨es, hcomma, hes⟩ := skipSpace_of_mark_tokens hds
    obtain ⟨rest, hothers, hrest⟩ := items_of_spells others fuel es us (by omega) hes
    exact ⟨rest, by simp [items, hitem, hcomma, hothers], hrest⟩

theorem members_of_spells : {ts : List Token} → {ms : List (Text × Json)} → SpellsMembers ts ms →
    (fuel : Nat) → (cs : List Char) → (us : List Token) → ts.length ≤ fuel →
      tokens cs = ts ++ us → ∃ rest, members fuel cs = (ms, some rest) ∧ tokens rest = us
  | _, _, .last named inside, fuel, cs, us, enough, h => by
    rw [List.length_cons, List.length_cons, List.length_append, List.length_singleton] at enough
    obtain ⟨fuel, rfl⟩ : ∃ n, fuel = n + 1 := ⟨fuel - 1, by omega⟩
    rw [List.cons_append, List.cons_append, List.append_assoc] at h
    obtain ⟨ds, es, hspace, hquoted, hes⟩ := quoted?_of_tokens named h
    obtain ⟨fs, hcolon, hfs⟩ := skipSpace_of_mark_tokens hes
    obtain ⟨gs, hvalue, hgs⟩ := value_of_spells inside fuel fs _ (by omega) hfs
    obtain ⟨rest, hclosed, hrest⟩ := skipSpace_of_mark_tokens hgs
    exact ⟨rest, by simp [members, hspace, hquoted, hcolon, hvalue, hclosed], hrest⟩
  | _, _, .more named inside others, fuel, cs, us, enough, h => by
    rw [List.length_cons, List.length_cons, List.length_append, List.length_cons] at enough
    obtain ⟨fuel, rfl⟩ : ∃ n, fuel = n + 1 := ⟨fuel - 1, by omega⟩
    rw [List.cons_append, List.cons_append, List.append_assoc] at h
    obtain ⟨ds, es, hspace, hquoted, hes⟩ := quoted?_of_tokens named h
    obtain ⟨fs, hcolon, hfs⟩ := skipSpace_of_mark_tokens hes
    obtain ⟨gs, hvalue, hgs⟩ := value_of_spells inside fuel fs _ (by omega) hfs
    obtain ⟨hs, hcomma, hhs⟩ := skipSpace_of_mark_tokens hgs
    obtain ⟨rest, hothers, hrest⟩ := members_of_spells others fuel hs us (by omega) hhs
    exact ⟨rest, by simp [members, hspace, hquoted, hcolon, hvalue, hcomma, hothers], hrest⟩

end

/-! ## What is read is written -/

/-- A word ends before blanks, a mark or nothing. -/
theorem endsWord_of_skipSpace {cs : List Char}
    (h : ∀ c ∈ (skipSpace cs).head?, isMark c = true) : EndsWord cs := by
  intro c hc
  cases cs with
  | nil => cases hc
  | cons d cs =>
    obtain rfl := Option.some.inj hc
    cases hspace : isSpace d with
    | true => simp [isPlain, hspace]
    | false =>
      rw [skipSpace_cons hspace] at h
      simp [isPlain, h d rfl]

theorem endsWord_of_mark {cs rest : List Char} {c : Char} (h : skipSpace cs = c :: rest)
    (mark : isMark c = true) : EndsWord cs := by
  apply endsWord_of_skipSpace
  rw [h]
  rintro d ⟨⟩
  exact mark

/-- The reader has read a value that is written by the tokens up to what is left. -/
structure Reads (fuel : Nat) : Prop where
  value : ∀ (cs : List Char) (j : Json) (rest : List Char), Json.value fuel cs = (j, some rest) →
    EndsWord rest → ∃ ts, tokens cs = ts ++ tokens rest ∧ Spells ts j
  items : ∀ (cs : List Char) (js : List Json) (rest : List Char),
    Json.items fuel cs = (js, some rest) → ∃ ts, tokens cs = ts ++ tokens rest ∧ SpellsItems ts js
  members : ∀ (cs : List Char) (ms : List (Text × Json)) (rest : List Char),
    Json.members fuel cs = (ms, some rest) →
      ∃ ts, tokens cs = ts ++ tokens rest ∧ SpellsMembers ts ms

section Written

variable {fuel : Nat} {cs rest : List Char}

theorem tokens_of_mark {c : Char} (h : skipSpace cs = c :: rest) (mark : isMark c = true) :
    tokens cs = .mark c :: tokens rest :=
  tokens_of_some (token?_mark h mark)

theorem tokens_of_word {w : List Char} (h : skipSpace cs = w ++ rest) (ne : w ≠ [])
    (plain : ∀ c ∈ w, isPlain c = true) (ends : EndsWord rest) :
    tokens cs = [.plain w] ++ tokens rest :=
  tokens_of_some (token?_plain h ne plain ends)

/-- What is read as a quoted text is one token. -/
theorem tokens_of_quoted {ds : List Char} {t : Option (List Char)} (h : skipSpace cs = '"' :: ds)
    (quoted : quoted? none ds = some (t, rest)) :
    ∃ s, tokens cs = .quoted s :: tokens rest ∧ quoted? none s = some (t, []) := by
  obtain ⟨s, hclosing, htakes⟩ := quoted?_local quoted
  have hspelled := htakes []
  rw [List.append_nil] at hspelled
  exact ⟨s, tokens_of_some (token?_quoted h hclosing), hspelled⟩

theorem spells_of_value_succ (inside : Reads fuel) {j : Json}
    (h : value (fuel + 1) cs = (j, some rest)) (ends : EndsWord rest) :
    ∃ ts, tokens cs = ts ++ tokens rest ∧ Spells ts j := by
  have hstep := valueStep fuel cs
  rw [h] at hstep
  cases hstep with
  | null hspace =>
    exact ⟨_, tokens_of_word hspace (by decide) (List.all_eq_true.mp (by decide)) ends, .null⟩
  | true hspace =>
    exact ⟨_, tokens_of_word hspace (by decide) (List.all_eq_true.mp (by decide)) ends, .true⟩
  | false hspace =>
    exact ⟨_, tokens_of_word hspace (by decide) (List.all_eq_true.mp (by decide)) ends, .false⟩
  | number hnumber =>
    obtain ⟨w, hspace, hne, hplain, htakes⟩ := number?_local hnumber
    have hspelled := htakes [] nofun
    rw [List.append_nil] at hspelled
    exact ⟨_, tokens_of_word hspace hne hplain ends, .number hspelled⟩
  | string hspace hquoted =>
    obtain ⟨s, htokens, hspelled⟩ := tokens_of_quoted hspace hquoted
    exact ⟨[.quoted s], htokens, .string hspelled⟩
  | emptyArray hspace hclosed =>
    refine ⟨[.mark '[', .mark ']'], ?_, .emptyArray⟩
    rw [tokens_of_mark hspace rfl, tokens_of_mark hclosed rfl]
    rfl
  | array hspace hitems =>
    obtain ⟨ts, htokens, hspells⟩ := inside.items _ _ _ hitems
    refine ⟨.mark '[' :: ts, ?_, .array hspells⟩
    rw [tokens_of_mark hspace rfl, htokens]
    rfl
  | emptyObject hspace hclosed =>
    refine ⟨[.mark '{', .mark '}'], ?_, .emptyObject⟩
    rw [tokens_of_mark hspace rfl, tokens_of_mark hclosed rfl]
    rfl
  | object hspace hmembers =>
    obtain ⟨ts, htokens, hspells⟩ := inside.members _ _ _ hmembers
    refine ⟨.mark '{' :: ts, ?_, .object hspells⟩
    rw [tokens_of_mark hspace rfl, htokens]
    rfl

theorem spells_of_items_succ (inside : Reads fuel) {js : List Json}
    (h : items (fuel + 1) cs = (js, some rest)) :
    ∃ ts, tokens cs = ts ++ tokens rest ∧ SpellsItems ts js := by
  have hstep := itemsStep fuel cs
  rw [h] at hstep
  cases hstep with
  | last hitem hclosed =>
    have hends := endsWord_of_mark hclosed rfl
    obtain ⟨ts, htokens, hspells⟩ := inside.value _ _ _ hitem hends
    refine ⟨ts ++ [.mark ']'], ?_, .last hspells⟩
    rw [htokens, tokens_of_mark hclosed rfl, List.append_assoc]
    rfl
  | more hitem hcomma hothers =>
    have hends := endsWord_of_mark hcomma rfl
    obtain ⟨ts, htokens, hspells⟩ := inside.value _ _ _ hitem hends
    obtain ⟨us, htokens', hspells'⟩ := inside.items _ _ _ hothers
    refine ⟨ts ++ .mark ',' :: us, ?_, .more hspells hspells'⟩
    rw [htokens, tokens_of_mark hcomma rfl, htokens', List.append_assoc]
    rfl

theorem spells_of_members_succ (inside : Reads fuel) {ms : List (Text × Json)}
    (h : members (fuel + 1) cs = (ms, some rest)) :
    ∃ ts, tokens cs = ts ++ tokens rest ∧ SpellsMembers ts ms := by
  have hstep := membersStep fuel cs
  rw [h] at hstep
  cases hstep with
  | last hspace hnamed hcolon hvalue hclosed =>
    have hends := endsWord_of_mark hclosed rfl
    obtain ⟨s, hname, hspelled⟩ := tokens_of_quoted hspace hnamed
    obtain ⟨ts, htokens, hspells⟩ := inside.value _ _ _ hvalue hends
    refine ⟨.quoted s :: .mark ':' :: (ts ++ [.mark '}']), ?_, .last hspelled hspells⟩
    rw [hname, tokens_of_mark hcolon rfl, htokens, tokens_of_mark hclosed rfl]
    simp
  | more hspace hnamed hcolon hvalue hcomma hothers =>
    have hends := endsWord_of_mark hcomma rfl
    obtain ⟨s, hname, hspelled⟩ := tokens_of_quoted hspace hnamed
    obtain ⟨ts, htokens, hspells⟩ := inside.value _ _ _ hvalue hends
    obtain ⟨us, htokens', hspells'⟩ := inside.members _ _ _ hothers
    refine ⟨.quoted s :: .mark ':' :: (ts ++ .mark ',' :: us), ?_, .more hspelled hspells hspells'⟩
    rw [hname, tokens_of_mark hcolon rfl, htokens, tokens_of_mark hcomma rfl, htokens']
    simp

end Written

/-- Whatever is read is written by its tokens. -/
theorem reads (fuel : Nat) : Reads fuel := by
  induction fuel with
  | zero =>
    refine ⟨fun cs j rest h => ?_, fun cs js rest h => ?_, fun cs ms rest h => ?_⟩
    · rw [value] at h
      cases h
    · rw [items] at h
      cases h
    · rw [members] at h
      cases h
  | succ fuel ih =>
    exact ⟨fun cs j rest h ends => spells_of_value_succ ih h ends,
      fun cs js rest h => spells_of_items_succ ih h,
      fun cs ms rest h => spells_of_members_succ ih h⟩

/-- Where the reader gives up, it has left a broken value behind. -/
theorem broken_of_none (fuel : Nat) :
    (∀ (cs : List Char) (j : Json), value fuel cs = (j, none) → j.intact = false) ∧
    (∀ (cs : List Char) (js : List Json), items fuel cs = (js, none) → intactItems js = false) ∧
    ∀ (cs : List Char) (ms : List (Text × Json)), members fuel cs = (ms, none) →
      intactMembers ms = false := by
  induction fuel with
  | zero =>
    refine ⟨fun cs j h => ?_, fun cs js h => ?_, fun cs ms h => ?_⟩
    · rw [value] at h
      cases h
      rfl
    · rw [items] at h
      cases h
      rfl
    · rw [members] at h
      cases h
      rfl
  | succ fuel ih =>
    obtain ⟨hvalue, hitems, hmembers⟩ := ih
    refine ⟨fun cs j h => ?_, fun cs js h => ?_, fun cs ms h => ?_⟩
    · have hstep := valueStep fuel cs
      rw [h] at hstep
      cases hstep with
      | array _ inside => simp [intact, hitems _ _ inside]
      | object _ inside => simp [intact, hmembers _ _ inside]
      | broken => simp [intact]
    · have hstep := itemsStep fuel cs
      rw [h] at hstep
      cases hstep with
      | stuck item => simp [intactItems, hvalue _ _ item]
      | more _ _ others => simp [intactItems, hitems _ _ others]
      | broken => simp [intactItems, intact]
    · have hstep := membersStep fuel cs
      rw [h] at hstep
      cases hstep with
      | broken => simp [intactMembers, intact]
      | stuck inside => simp [intactMembers, hvalue _ _ inside]
      | more _ _ _ _ _ others => simp [intactMembers, hmembers _ _ others]
      | unended => simp [intactMembers, intact]

mutual

theorem Spells.intact : {ts : List Token} → {j : Json} → Spells ts j → j.intact = true
  | _, _, .null => by simp [Json.intact]
  | _, _, .true => by simp [Json.intact]
  | _, _, .false => by simp [Json.intact]
  | _, _, .number _ => by simp [Json.intact]
  | _, _, .string _ => by simp [Json.intact]
  | _, _, .emptyArray => by simp [Json.intact, intactItems]
  | _, _, .array inside => by simp [Json.intact, inside.intact]
  | _, _, .emptyObject => by simp [Json.intact, intactMembers]
  | _, _, .object inside => by simp [Json.intact, inside.intact]

theorem SpellsItems.intact : {ts : List Token} → {js : List Json} → SpellsItems ts js →
    intactItems js = true
  | _, _, .last item => by simp [intactItems, item.intact]
  | _, _, .more item others => by simp [intactItems, item.intact, others.intact]

theorem SpellsMembers.intact : {ts : List Token} → {ms : List (Text × Json)} →
    SpellsMembers ts ms → intactMembers ms = true
  | _, _, .last _ value => by simp [intactMembers, value.intact]
  | _, _, .more _ value others => by simp [intactMembers, value.intact, others.intact]

end

/-- The reader reads JSON: what is written is read with nothing left over and nothing broken, and
what is read like that is written. -/
theorem isText_iff {text : String} {j : Json} :
    IsText text j ↔ Document.read text = ⟨j, false⟩ ∧ j.intact = true := by
  generalize hcs : text.toList = cs
  simp only [IsText, Document.read, hcs]
  constructor
  · intro h
    have hle := length_tokens_le cs
    obtain ⟨rest, hvalue, hrest⟩ :=
      value_of_spells h (2 * cs.length + 2) cs [] (by omega) (List.append_nil _).symm
    simp only [hvalue, tokens_eq_nil.mp hrest]
    exact ⟨rfl, h.intact⟩
  · rintro ⟨hread, hintact⟩
    split at hread
    · rename_i root rest hvalue
      obtain ⟨rfl, htrailing⟩ := Document.mk.inj hread
      have hspace : skipSpace rest = [] := by simpa using htrailing
      have hends : EndsWord rest := endsWord_of_skipSpace (by simp [hspace])
      obtain ⟨ts, htokens, hspells⟩ := (reads _).value _ _ _ hvalue hends
      rw [tokens_eq_nil.mpr hspace, List.append_nil] at htokens
      rw [htokens]
      exact hspells
    · rename_i root hvalue
      obtain ⟨rfl, -⟩ := Document.mk.inj hread
      have hbroken := (broken_of_none _).1 _ _ hvalue
      rw [hintact] at hbroken
      cases hbroken

/-- Insignificant blanks make no difference to what a text writes. -/
theorem isText_congr {text text' : String} {j : Json}
    (same : tokens text'.toList = tokens text.toList) (h : IsText text j) : IsText text' j := by
  rw [IsText, same]
  exact h

end CacheAside.Json
