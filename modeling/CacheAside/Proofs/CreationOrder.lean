import CacheAside.Ident.Generator
import CacheAside.Proofs.Interleaving.Deletion
import CacheAside.Proofs.Paging
import CacheAside.Proofs.RoundTrip.Identifiers

/-!
# Identifiers in the order of creation

The first digits of an identifier are those of the time at which it was drawn, and the alphabet is
in the order of the values of its digits.  So identifiers, their texts, and their times with the
random bits behind them are all in the same order.

The generator takes the milliseconds of its clock as they are as long as they fit 48 bits.  If the
clock has moved on by a millisecond or more from each creation to the next, the identifiers of the
records come in the order in which the store has taken them in.  That is the order in which it lists
them, and what has been deleted meanwhile is just left out.
-/

namespace CacheAside

/-! ## The order of texts -/

theorem append_lt_append {lead cs ds : List Char} : lead ++ cs < lead ++ ds ↔ cs < ds := by
  induction lead with
  | nil => rfl
  | cons c lead ih => simp [ih]

/-- Of texts of the same length the last character counts least. -/
theorem concat_lt_concat {cs ds : List Char} {c d : Char} (length : cs.length = ds.length) :
    cs ++ [c] < ds ++ [d] ↔ cs < ds ∨ cs = ds ∧ c < d := by
  induction cs generalizing ds with
  | nil =>
    obtain rfl := List.length_eq_zero_iff.mp length.symm
    simp [List.cons_lt_cons_iff]
  | cons a cs ih =>
    cases ds with
    | nil => cases length
    | cons b ds =>
      simp only [List.cons_append, List.cons_lt_cons_iff, ih (Nat.succ.inj length), List.cons.injEq]
      tauto

namespace Base32

theorem encode_inj {width m n : Nat} (hm : m < 32 ^ width) (hn : n < 32 ^ width) :
    encode width m = encode width n ↔ m = n := by
  refine ⟨fun h => ?_, fun h => h ▸ rfl⟩
  have hread (n : Nat) (hn : n < 32 ^ width) : decode? (encode width n) = some n :=
    foldlM_digits (b := 32) (fun _ => rfl) (fun _ _ => rfl) (by decide) width n hn
  exact Option.some.inj ((hread m hm).symm.trans ((congrArg decode? h).trans (hread n hn)))

/-- The alphabet is in the order of the values of its digits. -/
theorem char_lt_char : ∀ d < 32, ∀ e < 32, (char d < char e ↔ d < e) := by
  decide +kernel

/-- Of numbers with as many digits the smaller one comes first as a text, too. -/
theorem encode_lt_encode {width m n : Nat} (hm : m < 32 ^ width) (hn : n < 32 ^ width) :
    encode width m < encode width n ↔ m < n := by
  induction width generalizing m n with
  | zero =>
    rw [Nat.lt_one_iff.mp hm, Nat.lt_one_iff.mp hn]
    simp [encode]
  | succ width ih =>
    rw [Nat.pow_succ] at hm hn
    have hm' : m / 32 < 32 ^ width := by omega
    have hn' : n / 32 < 32 ^ width := by omega
    rw [encode, encode, concat_lt_concat (by rw [length_encode, length_encode]), ih hm' hn',
      encode_inj hm' hn', char_lt_char _ (Nat.mod_lt m (by decide)) _ (Nat.mod_lt n (by decide))]
    omega

end Base32

namespace Ident

variable {kind : IdentKind}

theorem lt_iff_toText_lt (a b : Ident kind) : a < b ↔ a.toText < b.toText := by
  have hsmall (id : Ident kind) : id.number.val < 32 ^ 26 :=
    Nat.lt_trans id.number.isLt (by decide)
  rw [String.lt_iff, toText, toText, String.toList_ofList, String.toList_ofList, toChars, toChars,
    append_lt_append, Base32.encode_lt_encode (hsmall a) (hsmall b)]
  rfl

theorem lt_iff_parts_lt (a b : Ident kind) :
    a < b ↔ a.millis < b.millis ∨ a.millis = b.millis ∧ a.random < b.random := by
  show a.number.val < b.number.val ↔ _
  simp only [millis, random, Nat.pow_eq]
  omega

/-! ## The generator -/

theorem millis_ofParts (time bits : Nat) :
    (ofParts time bits : Ident kind).millis = time % 2 ^ 48 := by
  simp only [millis, ofParts, ofNat, count, Nat.pow_eq]
  omega

theorem random_ofParts (time bits : Nat) :
    (ofParts time bits : Ident kind).random = bits % 2 ^ 80 := by
  simp only [random, ofParts, ofNat, count, Nat.pow_eq]
  omega

theorem isNil_iff (id : Ident kind) : id.isNil = true ↔ id.millis = 0 ∧ id.random = 0 := by
  simp only [isNil, millis, random, beq_iff_eq, Nat.pow_eq]
  omega

theorem millis_stamped (kind : IdentKind) (now : Timestamp) (draw : Nat) :
    ((stamped now draw : Ident kind).millis : Int) = max 0 now.unixMillis % 2 ^ 48 := by
  rw [stamped, millis_ofParts]
  omega

theorem isNil_stamped (kind : IdentKind) {now : Timestamp} {draw : Nat} :
    (stamped now draw : Ident kind).isNil = true ↔
      max 0 now.unixMillis % 2 ^ 48 = 0 ∧ draw % 2 ^ 80 = 0 := by
  rw [isNil_iff, ← millis_stamped kind now draw, stamped, random_ofParts]
  omega

variable {now : Timestamp} {draws rest : List Nat} {id : Ident kind}

/-- The first draw that does not give nil is taken. -/
theorem exists_draw_of_generate? (h : generate? now draws = some (id, rest)) :
    ∃ skipped draw, draws = skipped ++ draw :: rest ∧
      (∀ d ∈ skipped, (stamped now d : Ident kind).isNil = true) ∧
      id = stamped now draw ∧ id.isNil = false := by
  induction draws with
  | nil => cases h
  | cons d draws ih =>
    rw [generate?] at h
    split at h
    · rename_i hnil
      obtain ⟨skipped, draw, rfl, hskipped, hid⟩ := ih h
      exact ⟨d :: skipped, draw, rfl, List.forall_mem_cons.mpr ⟨hnil, hskipped⟩, hid⟩
    · rename_i hnot
      cases h
      exact ⟨[], d, rfl, by simp, rfl, Bool.eq_false_iff.mpr hnot⟩

/-- The generator goes on drawing as long as all that it draws is zero, and the time as well. -/
theorem generate?_eq_none : (generate? now draws : Option (Ident kind × List Nat)) = none ↔
    ∀ d ∈ draws, max 0 now.unixMillis % 2 ^ 48 = 0 ∧ d % 2 ^ 80 = 0 := by
  induction draws with
  | nil => simp [generate?]
  | cons d draws ih =>
    rw [generate?, List.forall_mem_cons, ← isNil_stamped kind, ← ih]
    split
    · rename_i h
      rw [and_iff_right h]
    · rename_i h
      exact iff_of_false (by simp) fun hboth => h hboth.1

end Ident

namespace Store

/-- Records in the order of their identifiers, if they are those that are found. -/
theorem records_eq {s : Store} {l : List Record} (sorted : l.Pairwise fun r r' => r.id < r'.id)
    (mem : ∀ r, r ∈ l ↔ s.find r.id = .ok r) : s.records = l := by
  have hnodup {l : List Record} (h : l.Pairwise fun r r' => r.id < r'.id) : l.Nodup := by
    refine h.imp fun hlt => ?_
    rintro rfl
    exact Ident.lt_irrefl _ hlt
  have hperm : s.records.Perm l :=
    (List.perm_ext_iff_of_nodup (hnodup s.sorted_records) (hnodup sorted)).mpr fun r =>
      mem_records.trans (mem r).symm
  refine hperm.eq_of_pairwise (fun r r' _ _ h h' => ?_) s.sorted_records sorted
  exact absurd (Ident.lt_trans h h') (Ident.lt_irrefl _)

end Store

/-! ## Records in the order of their creation -/

/-- An identifier that was drawn for a record, with what the clock of the generator showed. -/
structure Birth where
  now : Timestamp
  id : RecordId

namespace Birth

/-- The generator gives the identifier out for some random bits. -/
def IsDrawn (x : Birth) : Prop :=
  ∃ draws rest, Ident.generate? x.now draws = some (x.id, rest)

/-- The clock shows a time that an identifier can tell. -/
def IsTimely (x : Birth) : Prop :=
  0 ≤ x.now.unixMillis ∧ x.now.unixMillis < 2 ^ 48

variable {x y : Birth}

theorem millis_of_isTimely (drawn : x.IsDrawn) (timely : x.IsTimely) :
    (x.id.millis : Int) = x.now.unixMillis := by
  obtain ⟨draws, rest, h⟩ := drawn
  obtain ⟨-, draw, -, -, hid, -⟩ := Ident.exists_draw_of_generate? h
  obtain ⟨hfrom, hto⟩ := timely
  rw [hid, Ident.millis_stamped .record]
  omega

/-- Of two identifiers the one that was drawn later comes later. -/
theorem id_lt_id (hx : x.IsDrawn ∧ x.IsTimely) (hy : y.IsDrawn ∧ y.IsTimely)
    (later : x.now.unixMillis < y.now.unixMillis) : x.id < y.id := by
  have hxid := millis_of_isTimely hx.1 hx.2
  have hyid := millis_of_isTimely hy.1 hy.2
  exact (Ident.lt_iff_parts_lt x.id y.id).mpr (.inl (by omega))

end Birth

namespace Simulation.Scene

variable {s₀ s s' : Scene} {allowed : Scene → Scene → Prop}

/-- The identifiers of the records that the store has taken in so far, in this order. -/
def created (s : Scene) : List RecordId :=
  s.changes.filterMap fun
    | .created r => some r.id
    | _ => none

/-- What the store still holds of some records. -/
def remaining (s : Scene) (births : List Birth) : List Record :=
  births.filterMap fun x => (s.world.backend.store.find x.id).toOption

/-- The store holds a record of each identifier that has been created, or nothing under it. -/
def IsNative (s : Scene) : Prop :=
  ∀ id r, s.world.backend.store.find id = .ok r → id ∈ s.created

theorem IsNative.commits (h : s.IsNative) {made : Option DomainEvent}
    (commits : Commits s s' made) : s'.IsNative := by
  intro id r found
  have hcreated : s'.created = s.created ++ made.toList.filterMap fun
      | .created r => some r.id
      | _ => none := by
    rw [created, commits.changes, List.filterMap_append]
    rfl
  rw [hcreated, List.mem_append]
  rw [commits.find] at found
  cases made with
  | none => exact .inl (h id r found)
  | some change =>
    rw [Option.elim_some] at found
    split at found
    · rename_i hid
      cases change with
      | created new => exact .inr (by simp [hid, DomainEvent.recordId])
      | updated new =>
        obtain ⟨old, hold⟩ := commits.updated rfl
        exact .inl (hid ▸ h _ old hold)
      | deleted key => cases found
    · exact .inl (h id r found)

theorem Reaches.isNative (run : Reaches allowed s₀ s) (empty : s₀.world.backend.store = {}) :
    s.IsNative := by
  refine run.induct (fun id r found => ?_) fun s a h _ => ?_
  · rw [empty] at found
    cases found
  · obtain ⟨made, hcommits⟩ := (s.step_act a).commits
    exact h.commits hcommits

/-- The records of the store are those that are left, in the order in which it has taken them in. -/
theorem records_eq_remaining (native : s.IsNative) {births : List Birth}
    (eq : s.created = births.map (·.id)) (known : ∀ x ∈ births, x.IsDrawn ∧ x.IsTimely)
    (later : births.Pairwise fun x y => x.now.unixMillis < y.now.unixMillis) :
    s.world.backend.store.records = s.remaining births := by
  have hfound (x : Birth) (r : Record) :
      (s.world.backend.store.find x.id).toOption = some r ↔
        s.world.backend.store.find x.id = .ok r := by
    cases s.world.backend.store.find x.id <;> simp [Except.toOption]
  have hids : births.Pairwise fun x y => x.id < y.id :=
    later.imp_of_mem fun hx hy => Birth.id_lt_id (known _ hx) (known _ hy)
  refine Store.records_eq (hids.filterMap _ fun x y hlt r hr r' hr' => ?_) fun r => ?_
  · rwa [Store.id_of_find ((hfound x r).mp hr), Store.id_of_find ((hfound y r').mp hr')]
  · rw [remaining, List.mem_filterMap]
    constructor
    · rintro ⟨x, -, hx⟩
      have hr := (hfound x r).mp hx
      rwa [Store.id_of_find hr]
    · intro hr
      have hmem := native r.id r hr
      rw [eq] at hmem
      obtain ⟨x, hx, hid⟩ := List.mem_map.mp hmem
      exact ⟨x, hx, (hfound x r).mpr (hid ▸ hr)⟩

/-- Of two identifiers of a kind the smaller one comes first as a text, and so does its time, or if
they have the same time its random part.

Whatever the clock shows and whatever is drawn, the generator gives out no identifier but one that
is not nil and has the milliseconds of the clock, zero before 1970, as far as there is room for
them; it goes on drawing only as long as that would be nil.

In any interleaving of any requests over a store that was empty at first: if the clock of the
generator has moved on by a millisecond or more from each record that the store has taken in to the
next, and all of its times have room in an identifier, the store holds what is left of these records
in the order in which it has taken them in, and lists them so, page by page. -/
theorem identifiers_follow_time :
    (∀ (kind : IdentKind) (a b : Ident kind), (a < b ↔ a.toText < b.toText) ∧
      (a < b ↔ a.millis < b.millis ∨ a.millis = b.millis ∧ a.random < b.random)) ∧
    (∀ (kind : IdentKind) (now : Timestamp) (draws : List Nat),
      (∀ (id : Ident kind) rest, Ident.generate? now draws = some (id, rest) →
        id.isNil = false ∧ (id.millis : Int) = max 0 now.unixMillis % 2 ^ 48) ∧
      ((Ident.generate? now draws : Option (Ident kind × List Nat)) = none ↔
        ∀ d ∈ draws, max 0 now.unixMillis % 2 ^ 48 = 0 ∧ d % 2 ^ 80 = 0)) ∧
    ∀ (s₀ s : Scene) (births : List Birth), s₀.world.backend.store = {} → s₀.Runs s →
      s.created = births.map (·.id) → (∀ x ∈ births, x.IsDrawn ∧ x.IsTimely) →
      (births.Pairwise fun x y => x.now.unixMillis < y.now.unixMillis) →
        s.world.backend.store.records = s.remaining births ∧
        ∀ (service : Service) (c : Conditions) (page : Page), c.refuses (.findAll page) = none →
          (service.run c.ports s.world.backend (.list page)).outcome =
            some (.ok (.records (((s.remaining births).drop page.offset).take page.limit))) := by
  refine ⟨fun kind a b => ⟨a.lt_iff_toText_lt b, a.lt_iff_parts_lt b⟩,
    fun kind now draws => ⟨fun id rest h => ?_, Ident.generate?_eq_none⟩,
    fun s₀ s births empty run eq known later => ?_⟩
  · obtain ⟨-, draw, -, -, rfl, hne⟩ := Ident.exists_draw_of_generate? h
    exact ⟨hne, Ident.millis_stamped kind now draw⟩
  · have hrecords := records_eq_remaining (run.isNative empty) eq known later
    refine ⟨hrecords, fun service c page answered => ?_⟩
    rw [(Service.run_list answered).1, Store.findAll, hrecords]

/-- A record of a minute, with fewer random bits from minute to minute. -/
def ofMinute (n : Nat) : Record :=
  { Record.draft n with id := .stamped (.minute n) (9 - n) }

/-- Two records are created, the second one is deleted, and while its deletion goes on a third one
is created. -/
def birthsOfMinutes : List Act :=
  [.setClock (.minute 1), .start {} (.create (ofMinute 1)), .look 0 .cache,
    .setClock (.minute 2), .start {} (.create (ofMinute 2)), .look 1 .cache, .look 0 .cache,
    .start {} (.delete (ofMinute 2).id), .look 2 .cache,
    .setClock (.minute 3), .start {} (.create (ofMinute 3)), .look 3 .cache]

/-- The two records that are left are listed in the order of their minutes. -/
theorem identifiers_follow_birthsOfMinutes :
    let s := withNothing.perform birthsOfMinutes
    let births : List Birth := [1, 2, 3].map fun n => ⟨.minute n, (ofMinute n).id⟩
    s.created = births.map (·.id) ∧ (∀ x ∈ births, x.IsDrawn ∧ x.IsTimely) ∧
      (births.Pairwise fun x y => x.now.unixMillis < y.now.unixMillis) ∧
      (({} : Service).run Service.uncached.ports s.world.backend (.list (Service.pair 0))).outcome =
        some (.ok (.records [ofMinute 1, ofMinute 3])) := by
  intro s births
  have hcreated : s.created = births.map (·.id) := by decide +kernel
  have hdrawn : ∀ n ∈ [1, 2, 3],
      Ident.generate? (.minute n) [9 - n] = some ((ofMinute n).id, []) := by
    decide +kernel
  have htimely : ∀ x ∈ births, 0 ≤ x.now.unixMillis ∧ x.now.unixMillis < 2 ^ 48 := by
    decide +kernel
  have hknown : ∀ x ∈ births, x.IsDrawn ∧ x.IsTimely := by
    refine fun x hx => ⟨?_, htimely x hx⟩
    obtain ⟨n, hn, rfl⟩ := List.mem_map.mp hx
    exact ⟨[9 - n], [], hdrawn n hn⟩
  have hlater : births.Pairwise fun x y => x.now.unixMillis < y.now.unixMillis := by decide +kernel
  obtain ⟨-, -, hruns⟩ := identifiers_follow_time
  obtain ⟨-, hlist⟩ :=
    hruns withNothing s births rfl (runs_perform withNothing birthsOfMinutes) hcreated hknown hlater
  refine ⟨hcreated, hknown, hlater, (hlist {} Service.uncached (Service.pair 0) rfl).trans ?_⟩
  decide +kernel

end Simulation.Scene

end CacheAside
