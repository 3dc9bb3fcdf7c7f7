import CacheAside.Proofs.Validation
import CacheAside.Proofs.Views

/-!
# Updates of a record, one after another

An update replaces all fields of a record or patches some of them, and either form may come in the
union in which updates are sent.  Whatever its form, it does what one patch does
(`Edit.merger_eq`).  Some updates are carried out and some are not: they may be for another record,
their result may break the rules, or the store may refuse it (`Service.carries_iff`).  Those that
are carried out may fail to be published all the same.

What is left in the end goes by the updates that were carried out: each field has the value of the
last one that supplied it, or else the value with which the record was created
(`Service.last_supplier_wins`).  The induction is on the updates, since one update either leaves
everything alone or applies its patch to the record that it finds.
-/

namespace CacheAside

/-! ## What an update supplies -/

/-- The fields that callers set. -/
def Record.content (r : Record) : NewRecord :=
  ⟨r.label, r.value, r.weight, r.tags⟩

/-- The patch in which every field is there. -/
def FullReplace.toPatch (u : FullReplace) : SparsePatch :=
  ⟨u.id, .present u.label, .present u.value, .present u.weight, .present u.tags⟩

/-- An update in any of its forms. -/
inductive Edit where
  | replace (update : FullReplace)
  | patch (update : SparsePatch)
  /-- Either of the two, in the union in which updates are sent. -/
  | sent (update : RecordUpdate)

namespace Edit

def merger : Edit → Merger
  | .replace u => u.merger
  | .patch u => u.merger
  | .sent u => u.merger

/-- The fields that the update supplies. -/
def supplied : Edit → SparsePatch
  | .replace u => u.toPatch
  | .patch u => u
  | .sent (.replace u) => u.toPatch
  | .sent (.patch u) => u

/-- An update does what the patch of its fields does. -/
theorem merger_eq (e : Edit) : e.merger = e.supplied.merger := by
  cases e with
  | replace u => rfl
  | patch u => rfl
  | sent u => cases u <;> rfl

end Edit

namespace Patch

variable {α : Type}

theorem apply_apply (p : Patch α) (x : α) : p.apply (p.apply x) = p.apply x := by
  cases p <;> rfl

theorem apply_of_isAbsent {p : Patch α} (absent : p.isAbsent = true) (x : α) : p.apply x = x := by
  cases p with
  | absent => rfl
  | present value => cases absent

end Patch

namespace SparsePatch

variable {p : SparsePatch} {r new : Record}

/-- The record with the fields of the patch. -/
def applied (p : SparsePatch) (r : Record) : Record :=
  { r with
    label := p.label.apply r.label
    value := p.value.apply r.value
    weight := p.weight.apply r.weight
    tags := p.tags.apply r.tags }

theorem merge_eq_ok : p.merge r = .ok new ↔ p.id = r.id ∧ new = p.applied r := by
  unfold merge ensureTarget
  by_cases h : p.id = r.id
  · simp only [h, true_and]
    exact ⟨fun heq => (Except.ok.inj heq).symm, fun heq => congrArg Except.ok heq.symm⟩
  · simp [h, bind, Except.bind]

/-- The patch that supplies nothing changes nothing. -/
theorem applied_of_isEmpty (empty : p.isEmpty = true) (r : Record) : p.applied r = r := by
  simp only [isEmpty, Bool.and_eq_true] at empty
  obtain ⟨⟨⟨hlabel, hvalue⟩, hweight⟩, htags⟩ := empty
  simp only [applied, Patch.apply_of_isAbsent, hlabel, hvalue, hweight, htags]

/-- To apply a patch twice sets the fields as once, whatever the clock shows in between. -/
theorem content_applied_twice (p : SparsePatch) (r : Record) (now : Timestamp) :
    (p.applied ((p.applied r).touch now)).content = (p.applied r).content := by
  simp only [applied, Record.touch, Record.content, Patch.apply_apply]

end SparsePatch

/-- The value of a field that the last of some patches supplies, or `first` if none of them does. -/
def lastSupplied {α : Type} (field : SparsePatch → Patch α) (patches : List SparsePatch)
    (first : α) : α :=
  (patches.filterMap fun p => (field p).toOption).getLastD first

/-- What the first patch supplies is what the others start from. -/
theorem lastSupplied_cons {α : Type} (field : SparsePatch → Patch α) (p : SparsePatch)
    (patches : List SparsePatch) (first : α) :
    lastSupplied field (p :: patches) first =
      lastSupplied field patches ((field p).apply first) := by
  unfold lastSupplied
  rw [List.filterMap_cons]
  cases field p with
  | absent => rfl
  | present value =>
    show (value :: _).getLastD first = _
    rw [List.getLastD_cons]
    rfl

/-! ## One update -/

/-- An update that is asked for, with what its calls meet. -/
structure Attempt where
  edit : Edit
  conditions : Conditions

namespace Service

variable {s : Service} {c : Conditions} {b b₁ : Backend} {id : RecordId} {a : Attempt}
  {r : Record}

/-- What is left of an update of a record. -/
def update (s : Service) (id : RecordId) (b : Backend) (a : Attempt) : Backend :=
  (s.run a.conditions.ports b (.update id a.edit.merger)).state

/-- The store commits the update. -/
def Carries (s : Service) (id : RecordId) (b : Backend) (a : Attempt) : Prop :=
  ∃ change b₁, s.Commits a.conditions b (.update id a.edit.merger) change b₁

/-- To tell of a change does not change the store again. -/
theorem store_announce (c : Conditions) (b : Backend) (change : DomainEvent) :
    (announce c.ports b change).state.store = b.store := by
  unfold announce
  split
  · rename_i b₁ hcache
    exact Conditions.store_ports hcache fun _ _ => rfl
  · rename_i written b₁ hcache
    have htold : b₁.store = b.store := Conditions.store_ports hcache fun _ _ => rfl
    split
    · rename_i b₂ hbus
      exact (Conditions.store_ports hbus fun _ _ => rfl).trans htold
    · rename_i published b₂ hbus
      exact (Conditions.store_ports hbus fun _ _ => rfl).trans htold

/-- An update that is not carried out fails and leaves everything as it was. -/
theorem failsAt_of_not_carries (not : ¬ s.Carries id b a) :
    FailsAt b (s.run a.conditions.ports b (.update id a.edit.merger)) := by
  have hwrite : (Request.update id a.edit.merger).IsWrite := trivial
  rcases s.commits_or_fails a.conditions b hwrite with ⟨change, b₁, h⟩ | fails
  · exact absurd ⟨change, b₁, h⟩ not
  · exact fails

theorem update_of_not_carries (not : ¬ s.Carries id b a) : s.update id b a = b := by
  obtain ⟨e, -, -, hstate⟩ := failsAt_of_not_carries not
  exact hstate

/-- An update is carried out exactly if the store holds its record, the record with the patch
applied keeps the rules, and neither of the two calls of the store is refused. -/
theorem carries_iff : s.Carries id b a ↔ ∃ r, b.store.find id = .ok r ∧
    a.edit.supplied.id = id ∧ s.limits.check (a.edit.supplied.applied r) = .ok () ∧
      a.conditions.refuses (.find id) = none ∧
      a.conditions.refuses (.replace (a.edit.supplied.applied r)) = none := by
  unfold Carries
  rw [a.edit.merger_eq]
  constructor
  · rintro ⟨change, b₁, h⟩
    cases h with
    | @updates _ _ stored new r b₁ target loaded merged same valid replaced =>
      obtain ⟨-, rfl⟩ := SparsePatch.merge_eq_ok.mp merged
      refine ⟨stored, Conditions.find_ports loaded, target, valid, ?_, ?_⟩
      · cases hrefuses : a.conditions.refuses (.find id) with
        | none => rfl
        | some e => cases (Conditions.ports_of_refused hrefuses).symm.trans loaded
      · cases hrefuses : a.conditions.refuses (.replace (a.edit.supplied.applied stored)) with
        | none => rfl
        | some e => cases (Conditions.ports_of_refused hrefuses).symm.trans replaced
  · rintro ⟨r, found, target, valid, loads, replaces⟩
    have hid : r.id = id := Store.id_of_find found
    have hloaded : a.conditions.ports b (.find id) = (some (.ok r), b) := by
      rw [Conditions.ports_of_not_refused loads]
      simp only [Backend.serve, found]
    have hmerged : a.edit.supplied.merge r = .ok (a.edit.supplied.applied r) :=
      SparsePatch.merge_eq_ok.mpr ⟨target.trans hid.symm, rfl⟩
    have hreplaced : ∃ stored b₁, a.conditions.ports b
        (.replace (a.edit.supplied.applied r)) = (some (.ok stored), b₁) := by
      obtain ⟨row, hrow, -⟩ := Store.find_eq_ok.mp found
      have hsame : (a.edit.supplied.applied r).id = id := hid
      rw [Conditions.ports_of_not_refused replaces]
      simp only [Backend.serve, Store.update, hsame, hrow]
      exact ⟨_, _, rfl⟩
    obtain ⟨stored, b₁, hreplaced⟩ := hreplaced
    exact ⟨_, _, .updates target hloaded hmerged hid valid hreplaced⟩

/-- A change that the store has committed is the last one of its request. -/
theorem store_of_commits {request : Request} {change : DomainEvent}
    (h : s.Commits c b request change b₁) :
    (s.run c.ports b request).state.store = b₁.store := by
  rw [run_of_commits h]
  exact store_announce c b₁ change

/-- An update that is carried out applies its patch to the record that it has found, and leaves
every other record alone. -/
theorem update_of_carries (carries : s.Carries id b a) (found : b.store.find id = .ok r)
    (key : RecordId) : (s.update id b a).store.find key =
      if key = id then .ok ((a.edit.supplied.applied r).touch
        (a.conditions.circumstances (.replace (a.edit.supplied.applied r))).now)
      else b.store.find key := by
  obtain ⟨change, b₁, h⟩ := carries
  have hstore : (s.update id b a).store = b₁.store := store_of_commits h
  cases h with
  | @updates _ _ stored new _ b₁ target loaded merged same valid replaced =>
    have hstored : stored = r := Except.ok.inj ((Conditions.find_ports loaded).symm.trans found)
    subst hstored
    rw [a.edit.merger_eq] at merged
    obtain ⟨-, rfl⟩ := SparsePatch.merge_eq_ok.mp merged
    obtain ⟨store, hupdate, rfl⟩ := Conditions.ports_replace replaced
    obtain ⟨old, hold, rfl, hfind⟩ := Store.update_eq_ok hupdate
    subst same
    have hsame : old = stored := Except.ok.inj (hold.symm.trans found)
    subst hsame
    rw [hstore]
    exact hfind key

theorem found_of_carries (carries : s.Carries id b a) (found : b.store.find id = .ok r) :
    (s.update id b a).store.find id = .ok ((a.edit.supplied.applied r).touch
      (a.conditions.circumstances (.replace (a.edit.supplied.applied r))).now) :=
  (update_of_carries carries found id).trans (if_pos rfl)

/-- What keeps the rules goes on to keep them when the store has stamped it. -/
theorem check_touch (valid : s.limits.check r = .ok ()) (now : Timestamp) :
    s.limits.check (r.touch now) = .ok () := by
  apply Limits.check_of_times valid
  intro t ht
  rw [← Option.some.inj ht]
  exact Timestamp.not_latest_lt now r.createdAt

/-- The second of two equal updates leaves the fields as the first, unless only the second could
have been carried out. -/
theorem content_of_twice (a : Attempt) (c : Conditions)
    (h : s.Carries id b ⟨a.edit, c⟩ → s.Carries id b a) :
    ((s.update id (s.update id b a) ⟨a.edit, c⟩).store.find id).map Record.content =
      ((s.update id b a).store.find id).map Record.content := by
  by_cases hfirst : s.Carries id b a
  · obtain ⟨r, hfound, -⟩ := carries_iff.mp hfirst
    have hleft := found_of_carries hfirst hfound
    by_cases hsecond : s.Carries id (s.update id b a) ⟨a.edit, c⟩
    · rw [found_of_carries hsecond hleft, hleft]
      exact congrArg Except.ok (a.edit.supplied.content_applied_twice r _)
    · rw [update_of_not_carries hsecond]
  · -- the first has changed nothing, so the second meets what the first has met
    have hsecond : ¬ s.Carries id b ⟨a.edit, c⟩ := fun carries => hfirst (h carries)
    rw [update_of_not_carries hfirst, update_of_not_carries hsecond]

/-- A patch that supplies nothing is carried out unless the store refuses it, and changes nothing
but the time of the last update. -/
theorem update_of_isEmpty (found : b.store.find id = .ok r) (valid : s.limits.check r = .ok ())
    {p : SparsePatch} (empty : p.isEmpty = true) (target : p.id = id) (c : Conditions) :
    (s.Carries id b ⟨.patch p, c⟩ ↔
      c.refuses (.find id) = none ∧ c.refuses (.replace r) = none) ∧
    (s.Carries id b ⟨.patch p, c⟩ → ∀ key, (s.update id b ⟨.patch p, c⟩).store.find key =
      if key = id then .ok (r.touch (c.circumstances (.replace r)).now)
      else b.store.find key) := by
  have happlied : p.applied r = r := p.applied_of_isEmpty empty r
  have hrefuses (new : Record) (h : new = r) :
      c.refuses (.replace new) = none ↔ c.refuses (.replace r) = none := by rw [h]
  constructor
  · rw [carries_iff]
    simp only [found, Edit.supplied, Except.ok.injEq, exists_eq_left', hrefuses _ happlied]
    rw [happlied]
    exact ⟨fun h => h.2.2, fun h => ⟨target, valid, h⟩⟩
  · intro carries key
    have hleft := update_of_carries carries found key
    simp only [Edit.supplied, happlied] at hleft
    exact hleft

/-! ## Many updates -/

/-- The patches of those updates, out of a series of them, that are carried out. -/
inductive Carried (s : Service) (id : RecordId) :
    Backend → List Attempt → List SparsePatch → Prop where
  | nil {b : Backend} : Carried s id b [] []
  | done {b : Backend} {a : Attempt} {attempts : List Attempt} {patches : List SparsePatch}
      (carries : s.Carries id b a) (rest : Carried s id (s.update id b a) attempts patches) :
      Carried s id b (a :: attempts) (a.edit.supplied :: patches)
  | failed {b : Backend} {a : Attempt} {attempts : List Attempt} {patches : List SparsePatch}
      (not : ¬ s.Carries id b a) (rest : Carried s id (s.update id b a) attempts patches) :
      Carried s id b (a :: attempts) patches

namespace Carried

variable {attempts : List Attempt} {patches patches' : List SparsePatch}

theorem exists_patches (s : Service) (id : RecordId) (b : Backend) (attempts : List Attempt) :
    ∃ patches, s.Carried id b attempts patches := by
  induction attempts generalizing b with
  | nil => exact ⟨[], .nil⟩
  | cons a attempts ih =>
    obtain ⟨patches, hrest⟩ := ih (s.update id b a)
    by_cases hcarries : s.Carries id b a
    · exact ⟨_, .done hcarries hrest⟩
    · exact ⟨_, .failed hcarries hrest⟩

theorem unique (h : s.Carried id b attempts patches) (h' : s.Carried id b attempts patches') :
    patches' = patches := by
  induction h generalizing patches' with
  | nil =>
    cases h'
    rfl
  | done carries rest ih =>
    cases h' with
    | done carries' rest' => rw [ih rest']
    | failed not rest' => exact absurd carries not
  | failed not rest ih =>
    cases h' with
    | done carries rest' => exact absurd carries not
    | failed not' rest' => exact ih rest'

/-- The record that is left keeps the rules, and each field is as the last update that was carried
out and supplied it has set it. -/
theorem last (h : s.Carried id b attempts patches) (found : b.store.find id = .ok r)
    (valid : s.limits.check r = .ok ()) :
    ∃ r', (attempts.foldl (s.update id) b).store.find id = .ok r' ∧
      s.limits.check r' = .ok () ∧
      r'.label = lastSupplied (·.label) patches r.label ∧
      r'.value = lastSupplied (·.value) patches r.value ∧
      r'.weight = lastSupplied (·.weight) patches r.weight ∧
      r'.tags = lastSupplied (·.tags) patches r.tags := by
  induction h generalizing r with
  | nil => exact ⟨r, found, valid, rfl, rfl, rfl, rfl⟩
  | done carries rest ih =>
    obtain ⟨old, hfound, -, hvalid, -⟩ := carries_iff.mp carries
    have hsame : old = r := Except.ok.inj (hfound.symm.trans found)
    subst hsame
    rw [List.foldl_cons]
    simp only [lastSupplied_cons]
    exact ih (found_of_carries carries found) (check_touch hvalid _)
  | @failed b a _ _ not rest ih =>
    rw [List.foldl_cons]
    have hleft : (s.update id b a).store.find id = .ok r := by
      rw [update_of_not_carries not]
      exact found
    exact ih hleft valid

end Carried

/-- A creation that is carried out leaves the record with the fields that it was asked for. -/
theorem found_of_created {input : NewRecord} {made : Timestamp} {change : DomainEvent}
    (created : s.Commits c b (.create (.ofNew id input made)) change b₁) :
    ∃ r, (s.run c.ports b (.create (.ofNew id input made))).state.store.find id = .ok r ∧
      s.limits.check r = .ok () ∧ r.content = input := by
  have hstore := store_of_commits created
  cases created with
  | @creates _ stored b₁ valid inserted =>
    obtain ⟨store, hcreate, rfl⟩ := Conditions.ports_insert inserted
    have hvalid := Store.check_of_create hcreate valid
    obtain ⟨-, rfl, hfind⟩ := Store.create_eq_ok hcreate
    refine ⟨_, ?_, hvalid, rfl⟩
    rw [hstore]
    exact (hfind id).trans (if_pos rfl)

/-- A record is created, and then updates of it are asked for, in any form and meeting anything.
Each of its fields is in the end as the last update that was carried out and supplied it has set it,
or as it was created if there was none.  An update is carried out exactly if it is for the record,
keeps the rules with what the earlier ones have left, and is not refused by the store; otherwise it
fails and leaves everything as it was.

A patch that supplies nothing changes nothing but the time of the last update.  The same update once
more leaves the fields as they are, unless the store has refused the first and not the second.  To
replace all fields is the same as a patch that supplies them all, and the union in which an update
is sent makes no difference. -/
theorem last_supplier_wins {input : NewRecord} {made : Timestamp} {change : DomainEvent}
    (created : s.Commits c b (.create (.ofNew id input made)) change b₁)
    (attempts : List Attempt) :
    let start := (s.run c.ports b (.create (.ofNew id input made))).state
    let reached := attempts.foldl (s.update id) start
    (∃ patches r, s.Carried id start attempts patches ∧
      (∀ patches', s.Carried id start attempts patches' → patches' = patches) ∧
      reached.store.find id = .ok r ∧
      r.label = lastSupplied (·.label) patches input.label ∧
      r.value = lastSupplied (·.value) patches input.value ∧
      r.weight = lastSupplied (·.weight) patches input.weight ∧
      r.tags = lastSupplied (·.tags) patches input.tags ∧
      (∀ a : Attempt, s.Carries id reached a ↔ a.edit.supplied.id = id ∧
        s.limits.check (a.edit.supplied.applied r) = .ok () ∧
        a.conditions.refuses (.find id) = none ∧
        a.conditions.refuses (.replace (a.edit.supplied.applied r)) = none) ∧
      ∀ (p : SparsePatch) (c' : Conditions), p.isEmpty = true → p.id = id →
        (s.Carries id reached ⟨.patch p, c'⟩ ↔
          c'.refuses (.find id) = none ∧ c'.refuses (.replace r) = none) ∧
        (s.Carries id reached ⟨.patch p, c'⟩ →
          ∀ key, (s.update id reached ⟨.patch p, c'⟩).store.find key =
            if key = id then .ok (r.touch (c'.circumstances (.replace r)).now)
            else reached.store.find key)) ∧
    (∀ a : Attempt, ¬ s.Carries id reached a →
      FailsAt reached (s.run a.conditions.ports reached (.update id a.edit.merger))) ∧
    (∀ (a : Attempt) (c' : Conditions),
      (s.Carries id reached ⟨a.edit, c'⟩ → s.Carries id reached a) →
      ((s.update id (s.update id reached a) ⟨a.edit, c'⟩).store.find id).map Record.content =
        ((s.update id reached a).store.find id).map Record.content) ∧
    ∀ (σ : Type) (ports : Ports σ) (state : σ),
      (∀ u : FullReplace, s.run ports state (.update id u.merger) =
        s.run ports state (.update id u.toPatch.merger)) ∧
      (∀ u : FullReplace, s.run ports state (.update id (RecordUpdate.replace u).merger) =
        s.run ports state (.update id u.merger)) ∧
      ∀ u : SparsePatch, s.run ports state (.update id (RecordUpdate.patch u).merger) =
        s.run ports state (.update id u.merger) := by
  intro start reached
  refine ⟨?_, fun a not => failsAt_of_not_carries not, fun a c' h => content_of_twice a c' h,
    fun σ ports state => ⟨fun u => rfl, fun u => rfl, fun u => rfl⟩⟩
  obtain ⟨r₀, hfound₀, hvalid₀, rfl⟩ := found_of_created created
  obtain ⟨patches, hcarried⟩ := Carried.exists_patches s id start attempts
  obtain ⟨r, hfound, hvalid, hlabel, hvalue, hweight, htags⟩ := hcarried.last hfound₀ hvalid₀
  refine ⟨patches, r, hcarried, fun patches' h => hcarried.unique h, hfound, hlabel, hvalue,
    hweight, htags, fun a => ?_, fun p c' empty target => ?_⟩
  · rw [carries_iff]
    constructor
    · rintro ⟨r', hfound', h⟩
      rw [← Except.ok.inj (hfound'.symm.trans hfound)]
      exact h
    · intro h
      exact ⟨r, hfound, h⟩
  · exact update_of_isEmpty hfound hvalid empty target c'

/-- An update that is asked for in some minute. -/
def attemptInMinute (n : Nat) (edit : Edit)
    (refuses : (call : PortCall) → Option call.Failure := fun _ => none) : Attempt :=
  ⟨edit, (atTime (.minute n) (60 * nanosPerSecond) (.list .first) refuses).conditions⟩

/-- A patch that is not published, an update for another record, one that breaks the rules, one that
replaces all fields, one that the store refuses, and a patch on a clock that has gone back. -/
def editsOfDraft : List Attempt :=
  [attemptInMinute 4 (.patch { id := .ofNat 5, label := .present "one", value := .present 1 }) fun
      | .publish _ => some (.backend "full")
      | _ => none,
    attemptInMinute 5 (.sent (.patch { id := .ofNat 6, value := .present 9 })),
    attemptInMinute 6 (.replace ⟨.ofNat 5, " ", 2, .ofRank false 0, []⟩),
    attemptInMinute 7 (.sent (.replace ⟨.ofNat 5, "two", 2, .ofRank false 0, ["b"]⟩)),
    attemptInMinute 8 (.patch { id := .ofNat 5, tags := .present [] }) fun
      | .replace _ => some (.backend "lost")
      | _ => none,
    attemptInMinute 2 (.patch { id := .ofNat 5, value := .present 3 })]

/-- Three of the updates are carried out. -/
theorem carried_editsOfDraft {b : Backend} (found : b.store.find (.ofNat 5) = .ok (.draft 3)) :
    Service.Carried {} (.ofNat 5) b editsOfDraft
      [{ id := .ofNat 5, label := .present "one", value := .present 1 },
        ⟨.ofNat 5, .present "two", .present 2, .present (.ofRank false 0), .present ["b"]⟩,
        { id := .ofNat 5, value := .present 3 }] := by
  have h₁ : Service.Carries {} (.ofNat 5) b editsOfDraft[0] :=
    carries_iff.mpr ⟨_, found, rfl, rfl, rfl, rfl⟩
  have hother (b : Backend) : ¬ Service.Carries {} (.ofNat 5) b editsOfDraft[1] := by
    intro h
    obtain ⟨r, -, target, -⟩ := carries_iff.mp h
    exact absurd target (by decide)
  have hblank (b : Backend) : ¬ Service.Carries {} (.ofNat 5) b editsOfDraft[2] := by
    intro h
    obtain ⟨r, found, -, valid, -⟩ := carries_iff.mp h
    obtain ⟨-, label, -⟩ := Limits.check_eq_ok.mp valid
    have hfails : Limits.checkLabel {} " " = .error (.field "label" "must not be blank") := rfl
    cases hfails.symm.trans label
  have hrefused (b : Backend) : ¬ Service.Carries {} (.ofNat 5) b editsOfDraft[4] := by
    intro h
    obtain ⟨r, -, -, -, -, replaces⟩ := carries_iff.mp h
    cases replaces
  have hfound₁ := found_of_carries h₁ found
  apply Carried.done h₁
  apply Carried.failed (hother _)
  rw [update_of_not_carries (hother _)]
  apply Carried.failed (hblank _)
  rw [update_of_not_carries (hblank _)]
  have h₂ : Service.Carries {} (.ofNat 5) _ editsOfDraft[3] :=
    carries_iff.mpr ⟨_, hfound₁, rfl, rfl, rfl, rfl⟩
  have hfound₂ := found_of_carries h₂ hfound₁
  apply Carried.done h₂
  apply Carried.failed (hrefused _)
  rw [update_of_not_carries (hrefused _)]
  have h₃ : Service.Carries {} (.ofNat 5) _ editsOfDraft[5] :=
    carries_iff.mpr ⟨_, hfound₂, rfl, rfl, rfl, rfl⟩
  exact Carried.done h₃ .nil

/-- The fields that the three updates have set. -/
theorem last_supplier_in_editsOfDraft :
    let c := (attemptInMinute 3 (.patch { id := .ofNat 5 })).conditions
    let request := Request.create (.ofNew (.ofNat 5) oldInput (.minute 2))
    let start := (Service.run {} c.ports {} request).state
    (∃ change b₁, Service.Commits {} c {} request change b₁) ∧
      ∃ r, (editsOfDraft.foldl (Service.update {} (.ofNat 5)) start).store.find (.ofNat 5) = .ok r ∧
        r.content = ⟨"two", 3, .ofRank false 0, ["b"]⟩ := by
  intro c request start
  have hcreated : Service.Commits {} c {} request (.created (.draft 3)) _ := .creates rfl rfl
  have hstart : start.store.find (.ofNat 5) = .ok (.draft 3) := by
    rw [show start.store = _ from store_of_commits hcreated]
    rfl
  obtain ⟨⟨patches, r, -, hunique, hfound, hlabel, hvalue, hweight, htags, -⟩, -⟩ :=
    last_supplier_wins hcreated editsOfDraft
  rw [← hunique _ (carried_editsOfDraft hstart)] at hlabel hvalue hweight htags
  refine ⟨⟨_, _, hcreated⟩, r, hfound, ?_⟩
  rw [Record.content, hlabel, hvalue, hweight, htags]
  rfl

end Service

end CacheAside
