import CacheAside.Proofs.RoundTrip.Survey
import CacheAside.Wire.Page

/-!
# Pages read back

A page is written with its offset, which may be any word, but read with an offset that is a signed
integer.  A page can get further than that, since the page after the last one that can be asked for
is a page too.  So the text of a page is read back exactly when its offset is below `halfLimit`, and
refused otherwise (`Page.pages_read_back_iff`); whichever text is read, the page is the one of the
numbers that the text gives (`Page.decode_eq_ok`).
-/

namespace CacheAside.Page

open Json

/-! ## The numbers of a page in a tree -/

/-- The tree gives an offset and a limit: one after the other in an array, or under their names in
an object.  There the offset may be missing, which is zero, neither may come twice, and any other
member only has to keep the rules of JSON. -/
inductive Gives (offset limit : Int64) : Json → Prop where
  | array : Gives offset limit (.array [.int offset.toInt, .int limit.toInt])
  | object {members : List (Json.Text × Json)}
      (others : ∀ member ∈ members, ∃ name, member.1 = some name ∧
        (name ≠ "offset" → name ≠ "limit" → member.2.intact = true))
      (offsets : valuesOf "offset" members = [.int offset.toInt] ∨
        valuesOf "offset" members = [] ∧ offset = 0)
      (limits : valuesOf "limit" members = [.int limit.toInt]) :
      Gives offset limit (.object members)

/-- The text gives an offset and a limit, and nothing follows them. -/
def TextGives (text : String) (offset limit : Int64) : Prop :=
  (Document.read text).trailing = false ∧ Gives offset limit (Document.read text).root

theorem field?_shape (name : String) : shape.field? name =
    if name = "offset" then some (.of "offset" (.plain asInt64) true)
    else if name = "limit" then some (.of "limit" (.plain asInt64)) else none := by
  by_cases hoffset : name = "offset"
  · simp [Shape.field?, shape, hoffset]
  · by_cases hlimit : name = "limit"
    · simp [Shape.field?, shape, hlimit]
    · simp [Shape.field?, shape, hoffset, hlimit, Ne.symm hoffset, Ne.symm hlimit]

theorem isSome_field?_shape {name : String} :
    (shape.field? name).isSome = true ↔ name = "offset" ∨ name = "limit" := by
  rw [field?_shape]
  split
  · simp [*]
  · split <;> simp [*]

variable {source : Source} {members : List (Json.Text × Json)} {offset limit : Int64}

/-- What may stand in the object of a page. -/
theorem admits_shape {member : Json.Text × Json} : shape.Admits source member ↔
    ∃ name, member.1 = some name ∧
      if name = "offset" ∨ name = "limit" then ∃ n : Int64, member.2 = .int n.toInt
      else member.2.intact = true := by
  refine exists_congr fun name => and_congr_right fun _ => ?_
  rw [field?_shape]
  by_cases hoffset : name = "offset"
  · simp [hoffset, Decoder.plain_iff, asInt64_eq_ok]
  · by_cases hlimit : name = "limit"
    · simp [hlimit, Decoder.plain_iff, asInt64_eq_ok]
    · simp [hoffset, hlimit]

/-- The decoder's two steps on an object: the survey, and the numbers under their names. -/
def Reads (source : Source) (j : Json) (offset limit : Int64) : Prop :=
  ∃ fields, shape.fieldsOf source j = .ok fields ∧
    fields.optional source "offset" 0 (.plain asInt64) = .ok offset ∧
    fields.required source "limit" (.plain asInt64) = .ok limit

theorem decode_eq_reads {j : Json} {p : Page} : decode source j = .ok p ↔
    ∃ offset limit : Int64, Reads source j offset limit ∧
      make? offset.toInt limit.toInt = .ok p := by
  simp only [decode, Reads, bind_eq_ok, mapError_eq_ok]
  constructor
  · rintro ⟨fields, hfields, offset, hoffset, limit, hlimit, hmake⟩
    exact ⟨offset, limit, ⟨fields, hfields, hoffset, hlimit⟩, hmake⟩
  · rintro ⟨offset, limit, ⟨fields, hfields, hoffset, hlimit⟩, hmake⟩
    exact ⟨fields, hfields, offset, hoffset, limit, hlimit, hmake⟩

theorem optional_offset (single : (valuesOf "offset" members).length ≤ 1) :
    (shape.kept members).optional source "offset" 0 (.plain asInt64) = .ok offset ↔
      valuesOf "offset" members = [.int offset.toInt] ∨
        valuesOf "offset" members = [] ∧ offset = 0 := by
  rw [Shape.optional_kept_eq_ok (isSome_field?_shape.mpr (.inl rfl)) single]
  simp only [Decoder.plain_iff, asInt64_eq_ok, exists_eq_right]

theorem required_limit (single : (valuesOf "limit" members).length ≤ 1) :
    (shape.kept members).required source "limit" (.plain asInt64) = .ok limit ↔
      valuesOf "limit" members = [.int limit.toInt] := by
  rw [Shape.required_kept_eq_ok (isSome_field?_shape.mpr (.inr rfl)) single]
  simp only [Decoder.plain_iff, asInt64_eq_ok, exists_eq_right]

theorem reads_object : Reads source (.object members) offset limit ↔
    Gives offset limit (.object members) := by
  constructor
  · rintro ⟨fields, hfields, hoffset, hlimit⟩
    obtain ⟨hadmits, hsingle, rfl⟩ := Shape.fieldsOf_object.mp hfields
    rw [optional_offset (hsingle _ (isSome_field?_shape.mpr (.inl rfl)))] at hoffset
    rw [required_limit (hsingle _ (isSome_field?_shape.mpr (.inr rfl)))] at hlimit
    refine .object (fun member hmember => ?_) hoffset hlimit
    obtain ⟨name, hname, hvalue⟩ := admits_shape.mp (hadmits member hmember)
    refine ⟨name, hname, fun hno hnl => ?_⟩
    rwa [if_neg (by simp [hno, hnl])] at hvalue
  · rintro (_ | ⟨others, hoffset, hlimit⟩)
    have hsingle : (valuesOf "offset" members).length ≤ 1 := by
      rcases hoffset with hone | ⟨hnone, -⟩
      · simp [hone]
      · simp [hnone]
    have hsingle' : (valuesOf "limit" members).length ≤ 1 := by simp [hlimit]
    refine ⟨shape.kept members, Shape.fieldsOf_object.mpr ⟨fun member hmember => ?_,
      fun name known => ?_, rfl⟩, (optional_offset hsingle).mpr hoffset,
      (required_limit hsingle').mpr hlimit⟩
    · obtain ⟨name, hname, hother⟩ := others member hmember
      refine admits_shape.mpr ⟨name, hname, ?_⟩
      have hvalue : member.2 ∈ valuesOf name members := mem_valuesOf.mpr (hname ▸ hmember)
      split
      · rename_i hknown
        -- a value under one of the two names is the number that is given
        rcases hknown with rfl | rfl
        · rcases hoffset with hone | ⟨hnone, -⟩
          · exact ⟨offset, List.mem_singleton.mp (hone ▸ hvalue)⟩
          · rw [hnone] at hvalue
            cases hvalue
        · exact ⟨limit, List.mem_singleton.mp (hlimit ▸ hvalue)⟩
      · rename_i hunknown
        obtain ⟨hno, hnl⟩ := not_or.mp hunknown
        exact hother hno hnl
    · rcases isSome_field?_shape.mp known with rfl | rfl
      · exact hsingle
      · exact hsingle'

theorem reads_array {items : List Json} : Reads source (.array items) offset limit ↔
    Gives offset limit (.array items) := by
  constructor
  · rintro ⟨fields, hfields, hoffset, hlimit⟩
    obtain ⟨hlength, -, homissible, rfl⟩ := Shape.align_eq_ok.mp hfields
    match items with
    | [] => simp [shape, Field.of] at homissible
    | [x] => simp [shape, Field.of] at homissible
    | [x, y] =>
      simp only [shape, List.zip_cons_cons, List.zip_nil_right, List.map_cons, List.map_nil,
        Field.name_of, Fields.optional_cons, Fields.required_cons, if_true,
        if_neg (show "offset" ≠ "limit" by decide), Decoder.plain_iff, asInt64_eq_ok]
        at hoffset hlimit
      rw [hoffset, hlimit]
      exact .array
    | x :: y :: z :: items =>
      simp only [shape, List.length_cons, List.length_nil] at hlength
      omega
  · rintro ⟨⟩
    refine ⟨_, Shape.align_eq_ok.mpr ⟨Nat.le_refl 2, ?_, by simp [shape], rfl⟩, ?_, ?_⟩
    · simp [shape]
    · simp [shape]
    · simp [shape]

/-- Nothing but an object or an array gives the numbers of a page. -/
theorem reads_iff {j : Json} : Reads source j offset limit ↔ Gives offset limit j := by
  have hother (hfields : shape.fieldsOf source j = j.mismatch shape.title) :
      ¬ Reads source j offset limit := fun ⟨_, h, _⟩ => mismatch_ne_ok (hfields.symm.trans h)
  cases j with
  | object members => exact reads_object
  | array items => exact reads_array
  | null => exact iff_of_false (hother rfl) nofun
  | boolean b => exact iff_of_false (hother rfl) nofun
  | number n => exact iff_of_false (hother rfl) nofun
  | string s => exact iff_of_false (hother rfl) nofun
  | broken => exact iff_of_false (hother rfl) nofun

/-- A tree is decoded to the page of the numbers that it gives, if there is such a page. -/
theorem decode_eq_ok {j : Json} {p : Page} : decode source j = .ok p ↔
    ∃ offset limit : Int64, Gives offset limit j ∧ make? offset.toInt limit.toInt = .ok p := by
  rw [decode_eq_reads]
  simp only [reads_iff]

/-- When a text gives two numbers, the answer is that of `make?`, be it a page or a refusal. -/
theorem decodeText_of_gives {text : String} (gives : TextGives text offset limit) :
    decodeText decode text = (make? offset.toInt limit.toInt).mapError .page := by
  obtain ⟨htrailing, hroot⟩ := gives
  obtain ⟨fields, hfields, hoffset, hlimit⟩ : Reads (.streamed 0) _ offset limit :=
    reads_iff.mpr hroot
  have hdecode : decode (.streamed 0) (Document.read text).root =
      (make? offset.toInt limit.toInt).mapError .page := by
    simp only [decode, hfields, hoffset, hlimit, ok_bind]
  simp only [decodeText, hdecode, htrailing, bind, Except.bind, pure, Except.pure]
  cases make? offset.toInt limit.toInt <;> rfl

/-- A text that is decoded to a page gives two numbers, and the page is the one of these. -/
theorem gives_of_decodeText {text : String} {p : Page} (decoded : decodeText decode text = .ok p) :
    ∃ offset limit : Int64, TextGives text offset limit ∧
      make? offset.toInt limit.toInt = .ok p := by
  obtain ⟨htrailing, hdecode⟩ := decodeText_eq_ok.mp decoded
  obtain ⟨offset, limit, hgives, hmake⟩ := decode_eq_ok.mp hdecode
  exact ⟨offset, limit, ⟨htrailing, hgives⟩, hmake⟩

/-! ## Pages that can be come to -/

/-- A page that is made of two numbers, the first one, one that was read from a text, or the one
after a page that can be come to, as long as its offset is a word. -/
inductive Reachable : Page → Prop where
  | made {offset limit : Int64} {p : Page} (made : make? offset.toInt limit.toInt = .ok p) :
      Reachable p
  | first : Reachable first
  | read {text : String} {p : Page} (decoded : decodeText decode text = .ok p) : Reachable p
  | next {p : Page} (reached : Reachable p) (word : (p.next.offset : Int) < wordLimit) :
      Reachable p.next

/-- The page of two numbers has these numbers. -/
theorem make?_eq_ok {offset limit : Int} {p : Page} :
    make? offset limit = .ok p ↔ offset = p.offset ∧ limit = p.limit := by
  have hpos := p.limit_pos
  have hle := p.limit_le
  unfold make?
  split
  · simp
    omega
  · split
    · obtain ⟨o, l, _, _⟩ := p
      simp only [Except.ok.injEq, mk.injEq]
      omega
    · simp
      omega

theorem Reachable.offset_lt {p : Page} (h : p.Reachable) : (p.offset : Int) < wordLimit := by
  have hbelow {offset limit : Int64} {p : Page}
      (made : make? offset.toInt limit.toInt = .ok p) : (p.offset : Int) < wordLimit := by
    have hlt := offset.toInt_lt
    have hword : wordLimit = 2 ^ 64 := rfl
    rw [← (make?_eq_ok.mp made).1]
    omega
  cases h with
  | made made => exact hbelow made
  | first => decide
  | read decoded =>
    obtain ⟨offset, limit, -, hmake⟩ := gives_of_decodeText decoded
    exact hbelow hmake
  | next reached word => exact word

/-! ## The text of a page -/

variable {p : Page}

theorem read_compress (word : (p.offset : Int) < wordLimit) :
    Document.read p.toJson.compress = ⟨p.toJson, false⟩ := by
  have hlimit := p.limit_le
  have hword : wordLimit = 2 ^ 64 := rfl
  have hfits : p.toJson.Fits 1 := by
    refine fits_record ?_
    simp only [List.forall_mem_cons]
    exact ⟨fits_word word, fits_word (by omega), nofun⟩
  exact Document.read_compress hfits.writable

/-- A page whose offset is a signed integer is read back. -/
theorem decodeText_toJson (near : (p.offset : Int) < halfLimit) :
    decodeText decode p.toJson.compress = .ok p := by
  have hhalf : halfLimit = 2 ^ 63 := rfl
  have hword : wordLimit = 2 ^ 64 := rfl
  have hlimit := p.limit_le
  have hoffset : (Int64.ofInt p.offset).toInt = p.offset :=
    Int64.toInt_ofInt_of_le (by omega) (by omega)
  have hlimit' : (Int64.ofInt p.limit).toInt = p.limit :=
    Int64.toInt_ofInt_of_le (by omega) (by omega)
  have hgives : TextGives p.toJson.compress (.ofInt p.offset) (.ofInt p.limit) := by
    rw [TextGives, read_compress (by omega)]
    refine ⟨rfl, .object ?_ (.inl ?_) ?_⟩
    · simp
    · simp [valuesOf, hoffset]
    · simp [valuesOf, hlimit']
  rw [decodeText_of_gives hgives, hoffset, hlimit', make?_eq_ok.mpr ⟨rfl, rfl⟩]
  rfl

/-- Any other page is refused, since its offset is no signed integer. -/
theorem decodeText_far (far : halfLimit ≤ p.offset) (word : (p.offset : Int) < wordLimit) :
    decodeText decode p.toJson.compress = .error (.outOfRange p.offset "i64") := by
  have hno : ¬ (-halfLimit ≤ (p.offset : Int) ∧ (p.offset : Int) < halfLimit) := fun h =>
    absurd h.2 (Int.not_lt.mpr far)
  have hknown := field?_shape "offset"
  rw [if_pos rfl] at hknown
  have hplain (source : Source) :
      Decoder.plain asInt64 source (.int p.offset) = .error (.outOfRange p.offset "i64") := by
    rw [Decoder.plain, asInt64_of_far hno]
  have hfields : shape.fieldsOf (.streamed 0) p.toJson = .error (.outOfRange p.offset "i64") := by
    rw [toJson, record, List.map_cons]
    exact Shape.fieldsOf_error hknown (Field.check_error (hplain _))
  simp only [decodeText, read_compress word, decode, hfields, bind, Except.bind]

/-- The text of every page that can be come to is read back exactly if its offset is a signed
integer of 64 bits, and refused for its offset otherwise; the limit is between 1 and 50 in any case.
A text that gives two numbers is answered as `make?` answers these, and any other text is
refused. -/
theorem pages_read_back_iff :
    (∀ p : Page, p.Reachable → 1 ≤ p.limit ∧ p.limit ≤ 50 ∧
      (decodeText decode p.toJson.compress = .ok p ↔ (p.offset : Int) < halfLimit) ∧
      (halfLimit ≤ p.offset →
        decodeText decode p.toJson.compress = .error (.outOfRange p.offset "i64"))) ∧
    (∀ (text : String) (offset limit : Int64), TextGives text offset limit →
      decodeText decode text = (make? offset.toInt limit.toInt).mapError .page) ∧
    ∀ (text : String) (p : Page), decodeText decode text = .ok p →
      ∃ offset limit : Int64, TextGives text offset limit ∧
        make? offset.toInt limit.toInt = .ok p := by
  refine ⟨fun p reached => ⟨p.limit_pos, p.limit_le, ⟨fun decoded => ?_, decodeText_toJson⟩,
    fun far => decodeText_far far reached.offset_lt⟩, fun text offset limit => decodeText_of_gives,
    fun text p => gives_of_decodeText⟩
  rcases Int.lt_or_le p.offset halfLimit with near | far
  · exact near
  · cases decoded.symm.trans (decodeText_far far reached.offset_lt)

/-- The last page of fifty that can be asked for. -/
def farthest : Page :=
  ⟨9223372036854775807, 50, by decide, by decide⟩

theorem make?_farthest : make? Int64.maxValue.toInt (50 : Int64).toInt = .ok farthest :=
  make?_eq_ok.mpr ⟨by decide, by decide⟩

theorem reachable_next_farthest : farthest.next.Reachable :=
  .next (.made make?_farthest) (by decide)

/-- The last page that can be asked for is read back, but not the one after it. -/
theorem farthest_reads_back_but_next_does_not :
    farthest.Reachable ∧ farthest.next.Reachable ∧
      decodeText decode farthest.toJson.compress = .ok farthest ∧
      decodeText decode farthest.next.toJson.compress =
        .error (.outOfRange 9223372036854775857 "i64") ∧
      TextGives "\x7b\"limit\":51,\"more\":[]\x7d" 0 51 ∧
      decodeText decode "\x7b\"limit\":51,\"more\":[]\x7d" = .error (.page (.limit 51 1 50)) ∧
      ∃ offset limit : Int64, TextGives farthest.toJson.compress offset limit ∧
        make? offset.toInt limit.toInt = .ok farthest := by
  have hgives : TextGives "\x7b\"limit\":51,\"more\":[]\x7d" 0 51 := by
    have hfits : (record [("limit", .int 51), ("more", .array [])]).Fits 2 := by
      refine fits_record ?_
      simp only [List.forall_mem_cons]
      exact ⟨fits_word (by decide), fits_texts [], nofun⟩
    have htext : (record [("limit", .int 51), ("more", .array [])]).compress =
        "\x7b\"limit\":51,\"more\":[]\x7d" := by decide
    have hread := Document.read_compress hfits.writable
    rw [htext] at hread
    rw [TextGives, hread]
    exact ⟨rfl, .object (by simp [intact, intactItems]) (.inr ⟨rfl, rfl⟩) rfl⟩
  obtain ⟨hpages, htexts, hback⟩ := pages_read_back_iff
  obtain ⟨-, -, hnear, -⟩ := hpages farthest (.made make?_farthest)
  obtain ⟨-, -, -, hfar⟩ := hpages farthest.next reachable_next_farthest
  have hdecoded := hnear.mpr (by decide)
  exact ⟨.made make?_farthest, reachable_next_farthest, hdecoded, hfar (by decide), hgives,
    htexts _ _ _ hgives, hback _ _ hdecoded⟩

theorem compress_next_farthest :
    farthest.next.toJson.compress = "\x7b\"offset\":9223372036854775857,\"limit\":50\x7d" := by
  -- the digits are worked out by the laws of `Nat.toDigits`: the kernel does not get through them
  have hdigits : digitsOf 9223372036854775857 = "9223372036854775857".toList := by
    simp (disch := decide) only [digitsOf, Nat.toDigits_of_base_le, Nat.toDigits_of_lt_base,
      Nat.reduceDiv, Nat.reduceMod, List.cons_append, List.nil_append]
    rfl
  have hoffset : intChars 9223372036854775857 = "9223372036854775857".toList := by
    rw [intChars, if_neg (by decide)]
    exact hdigits
  have htree : farthest.next.toJson =
      record [("offset", .int 9223372036854775857), ("limit", .int 50)] := rfl
  have hchars : (record [("offset", .int 9223372036854775857), ("limit", .int 50)]).toChars =
      "\x7b\"offset\":".toList ++ (intChars 9223372036854775857 ++ ",\"limit\":50\x7d".toList) := by
    rfl
  rw [compress, htree, hchars, hoffset]
  rfl

/-- Not every page that can be come to is read back: the one after the last that can be asked for is
written and refused. -/
theorem next_of_farthest_is_refused :
    make? Int64.maxValue.toInt (50 : Int64).toInt = .ok farthest ∧ farthest.next.Reachable ∧
      farthest.next.toJson.compress = "\x7b\"offset\":9223372036854775857,\"limit\":50\x7d" ∧
      decodeText decode farthest.next.toJson.compress =
        .error (.outOfRange 9223372036854775857 "i64") ∧
      ¬ ∀ p : Page, p.Reachable → decodeText decode p.toJson.compress = .ok p := by
  have hrefused : decodeText decode farthest.next.toJson.compress =
      .error (.outOfRange 9223372036854775857 "i64") :=
    decodeText_far (by decide) reachable_next_farthest.offset_lt
  refine ⟨make?_farthest, reachable_next_farthest, compress_next_farthest, hrefused, fun h => ?_⟩
  cases hrefused.symm.trans (h _ reachable_next_farthest)

end CacheAside.Page
