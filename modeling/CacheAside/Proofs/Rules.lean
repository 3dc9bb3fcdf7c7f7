import CacheAside.Proofs.Store
import CacheAside.Validation
import Mathlib.Data.List.Basic

/-!
# The rules one by one

The checks of a record follow a list of rules: six for the record as a whole, two for each of its
tags from left to right, and one for its times.  A check of any part of the record reports on a part
of the list (`Reports`): it passes if all of these rules are kept, and otherwise it gives the error
of the first one that is broken.  Checks that are made one after the other report on the two lists
put together.
-/

namespace CacheAside

/-- Some character of the text is not blank. -/
def Text.Shows (s : String) : Prop :=
  ∃ c ∈ s.toList, isBlank c = false

theorem Text.shows_iff {s : String} : Shows s ↔ ¬ allBlank s = true := by
  simp [Shows, allBlank]

/-- What is asked of a record, or of one of its tags. -/
inductive Rule where
  | idNotNil
  | labelShows
  | labelFits
  | weightFinite
  | weightNotNegative
  | tagsFit
  | tagShows (tag : String)
  | tagFits (tag : String)
  | timesInOrder

namespace Rule

/-- The record keeps the rule. -/
def Kept (limits : Limits) (r : Record) : Rule → Prop
  | idNotNil => r.id.isNil = false
  | labelShows => Text.Shows r.label
  | labelFits => r.label.length ≤ limits.maxLabelLength
  | weightFinite => r.weight.isFinite = true
  | weightNotNegative => r.weight.isNegative = false
  | tagsFit => r.tags.length ≤ limits.maxTags
  | tagShows tag => Text.Shows tag
  | tagFits tag => tag.length ≤ limits.maxTagLength
  | timesInOrder => ∀ t, r.updatedAt = some t → ¬ t < r.createdAt

/-- The error of a record that breaks the rule. -/
def error (limits : Limits) (r : Record) : Rule → ValidationError
  | idNotNil => .nilIdentifier
  | labelShows => .field "label" "must not be blank"
  | labelFits => .field "label" s!"is {r.label.length} chars, max {limits.maxLabelLength}"
  | weightFinite => .field "weight" "must be finite"
  | weightNotNegative => .field "weight" "must be >= 0"
  | tagsFit => .field "tags" s!"has {r.tags.length} entries, max {limits.maxTags}"
  | tagShows _ => .field "tags" "must not contain blank tags"
  | tagFits tag => .field "tags" s!"tag `{tag}` exceeds {limits.maxTagLength} chars"
  | timesInOrder => .field "updated_at" "must not precede created_at"

/-- The rules that come before those for the tags. -/
def leading : List Rule :=
  [idNotNil, labelShows, labelFits, weightFinite, weightNotNegative, tagsFit]

def ofTag (tag : String) : List Rule :=
  [tagShows tag, tagFits tag]

/-- The rules for a record in their order. -/
def all (r : Record) : List Rule :=
  leading ++ (r.tags.flatMap ofTag ++ [timesInOrder])

end Rule

namespace Limits

variable {limits : Limits} {r : Record} {rule : Rule} {rules rules' : List Rule}
  {result : Except ValidationError Unit} {e : ValidationError}

/-- The record breaks this rule of a list and none before it. -/
def FirstBroken (limits : Limits) (r : Record) (rules : List Rule) (rule : Rule) : Prop :=
  ∃ before after, rules = before ++ rule :: after ∧ (∀ x ∈ before, x.Kept limits r) ∧
    ¬ rule.Kept limits r

open Classical in
theorem firstBroken_iff : limits.FirstBroken r rules rule ↔
    rules.find? (fun x => ¬ x.Kept limits r) = some rule := by
  simp [FirstBroken, List.find?_eq_some_iff_append, and_comm, and_left_comm]

theorem FirstBroken.mem (h : limits.FirstBroken r rules rule) :
    rule ∈ rules ∧ ¬ rule.Kept limits r := by
  obtain ⟨before, after, rfl, -, hbroken⟩ := h
  exact ⟨by simp, hbroken⟩

theorem FirstBroken.unique {other : Rule} (h : limits.FirstBroken r rules rule)
    (h' : limits.FirstBroken r rules other) : rule = other :=
  Option.some.inj ((firstBroken_iff.mp h).symm.trans (firstBroken_iff.mp h'))

theorem FirstBroken.append_left (h : limits.FirstBroken r rules rule) {lead : List Rule}
    (kept : ∀ x ∈ lead, x.Kept limits r) : limits.FirstBroken r (lead ++ rules) rule := by
  obtain ⟨before, after, rfl, hbefore, hbroken⟩ := h
  exact ⟨lead ++ before, after, (List.append_assoc ..).symm,
    List.forall_mem_append.mpr ⟨kept, hbefore⟩, hbroken⟩

theorem FirstBroken.append_right (h : limits.FirstBroken r rules rule) (more : List Rule) :
    limits.FirstBroken r (rules ++ more) rule := by
  obtain ⟨before, after, rfl, hbefore, hbroken⟩ := h
  exact ⟨before, after ++ more, by simp, hbefore, hbroken⟩

/-- Where a rule comes for the first time, it is the first one to be broken only if all before it
are kept. -/
theorem FirstBroken.kept (h : limits.FirstBroken r rules rule) {first rest : List Rule}
    (split : rules = first ++ rule :: rest) (new : rule ∉ first) :
    ∀ x ∈ first, x.Kept limits r := by
  obtain ⟨before, after, hrules, hbefore, -⟩ := h
  have hupto : before ++ [rule] <+: rules := ⟨after, by simp [hrules]⟩
  intro x hx
  obtain hshorter | hlonger := List.prefix_or_prefix_of_prefix hupto ⟨_, split.symm⟩
  · exact absurd (hshorter.subset (by simp)) new
  · obtain hkept | hlast := List.mem_append.mp (hlonger.subset hx)
    · exact hbefore x hkept
    · exact absurd (List.mem_singleton.mp hlast ▸ hx) new

/-- The result of a check that knows these rules: success if all of them are kept, or else the error
of the first one that is broken. -/
def Reports (limits : Limits) (r : Record) (rules : List Rule)
    (result : Except ValidationError Unit) : Prop :=
  (∀ rule ∈ rules, rule.Kept limits r) ∧ result = .ok () ∨
    ∃ rule, limits.FirstBroken r rules rule ∧ result = .error (rule.error limits r)

namespace Reports

theorem ok : limits.Reports r [] (.ok ()) :=
  .inl ⟨by simp, rfl⟩

/-- A rule is checked, and then the others. -/
theorem cons (rule : Rule) {P : Prop} [Decidable P] (kept : rule.Kept limits r ↔ ¬ P)
    (rest : limits.Reports r rules result) :
    limits.Reports r (rule :: rules) (if P then .error (rule.error limits r) else result) := by
  by_cases h : P
  · rw [if_pos h]
    exact .inr ⟨rule, ⟨[], rules, rfl, by simp, fun hkept => kept.mp hkept h⟩, rfl⟩
  · rw [if_neg h]
    have hkept := kept.mpr h
    obtain ⟨hall, hok⟩ | ⟨first, hfirst, herror⟩ := rest
    · exact .inl ⟨List.forall_mem_cons.mpr ⟨hkept, hall⟩, hok⟩
    · exact .inr ⟨first, hfirst.append_left (List.forall_mem_singleton.mpr hkept), herror⟩

/-- One check is made after the other. -/
theorem bind {next : Except ValidationError Unit} (first : limits.Reports r rules result)
    (rest : limits.Reports r rules' next) :
    limits.Reports r (rules ++ rules') (result >>= fun _ => next) := by
  obtain ⟨hall, rfl⟩ | ⟨rule, hrule, rfl⟩ := first
  · obtain ⟨hall', hok⟩ | ⟨rule, hrule, herror⟩ := rest
    · exact .inl ⟨List.forall_mem_append.mpr ⟨hall, hall'⟩, hok⟩
    · exact .inr ⟨rule, hrule.append_left hall, herror⟩
  · exact .inr ⟨rule, hrule.append_right rules', rfl⟩

theorem eq_ok_iff (h : limits.Reports r rules result) :
    result = .ok () ↔ ∀ rule ∈ rules, rule.Kept limits r := by
  obtain ⟨hall, rfl⟩ | ⟨rule, hfirst, rfl⟩ := h
  · exact iff_of_true rfl hall
  · exact iff_of_false (by simp) fun hall => hfirst.mem.2 (hall rule hfirst.mem.1)

theorem eq_error_iff (h : limits.Reports r rules result) :
    result = .error e ↔ ∃ rule, limits.FirstBroken r rules rule ∧ e = rule.error limits r := by
  obtain ⟨hall, rfl⟩ | ⟨first, hfirst, rfl⟩ := h
  · refine iff_of_false (by simp) ?_
    rintro ⟨rule, hfirst, -⟩
    exact hfirst.mem.2 (hall rule hfirst.mem.1)
  · constructor
    · rintro ⟨⟩
      exact ⟨first, hfirst, rfl⟩
    · rintro ⟨rule, hrule, rfl⟩
      rw [hfirst.unique hrule]

end Reports

section

variable (limits : Limits) (r : Record)

theorem reports_checkLabel :
    limits.Reports r [.labelShows, .labelFits] (limits.checkLabel r.label) :=
  .cons .labelShows Text.shows_iff (.cons .labelFits Nat.not_lt.symm .ok)

theorem reports_checkWeight :
    limits.Reports r [.weightFinite, .weightNotNegative] (checkWeight r.weight) :=
  .cons .weightFinite (by simp [Rule.Kept]) (.cons .weightNotNegative (by simp [Rule.Kept]) .ok)

theorem reports_checkTag (tag : String) :
    limits.Reports r (Rule.ofTag tag) (limits.checkTag tag) :=
  .cons (.tagShows tag) Text.shows_iff (.cons (.tagFits tag) Nat.not_lt.symm .ok)

theorem reports_checkTags (tags : List String) :
    limits.Reports r (tags.flatMap Rule.ofTag) (limits.checkTags tags) := by
  induction tags with
  | nil => exact .ok
  | cons tag tags ih =>
    have hsteps : limits.checkTags (tag :: tags) =
        (limits.checkTag tag >>= fun _ => limits.checkTags tags) := by
      rw [checkTags]
      cases limits.checkTag tag <;> rfl
    rw [hsteps]
    exact (reports_checkTag limits r tag).bind ih

theorem reports_checkTimes :
    limits.Reports r [.timesInOrder] (checkTimes r.createdAt r.updatedAt) := by
  unfold checkTimes
  cases hupdated : r.updatedAt with
  | none => exact .inl ⟨by simp [Rule.Kept, hupdated], rfl⟩
  | some t => exact .cons .timesInOrder (by simp [Rule.Kept, hupdated]) .ok

/-- The check of a record knows all of its rules. -/
theorem reports_check : limits.Reports r (Rule.all r) (limits.check r) := by
  have htags := (reports_checkTags limits r r.tags).bind (reports_checkTimes limits r)
  have hcount := htags.cons .tagsFit Nat.not_lt.symm
  have hweight := (reports_checkWeight limits r).bind hcount
  have hlabel := (reports_checkLabel limits r).bind hweight
  exact hlabel.cons .idNotNil (P := r.id.isNil = true) (by simp [Rule.Kept])

end

/-! ## What passes -/

/-- All that is asked of a record. -/
structure Accepts (limits : Limits) (r : Record) : Prop where
  idNotNil : r.id.isNil = false
  labelShows : Text.Shows r.label
  labelFits : r.label.length ≤ limits.maxLabelLength
  /-- A weight below zero is a negative one that is not zero. -/
  weight : ∃ negative rank, r.weight = .finite negative rank ∧ (negative = true → rank.val = 0)
  tagsFit : r.tags.length ≤ limits.maxTags
  tags : ∀ tag ∈ r.tags, Text.Shows tag ∧ tag.length ≤ limits.maxTagLength
  timesInOrder : ∀ t, r.updatedAt = some t → ¬ t < r.createdAt

theorem kept_of_tags (tags : List String) :
    (∀ rule ∈ tags.flatMap Rule.ofTag, rule.Kept limits r) ↔
      ∀ tag ∈ tags, Text.Shows tag ∧ tag.length ≤ limits.maxTagLength := by
  rw [List.forall_mem_flatMap]
  refine forall₂_congr fun tag _ => ?_
  simp only [Rule.ofTag, List.forall_mem_cons, List.not_mem_nil, false_implies, implies_true,
    and_true]
  rfl

theorem weight_accepted {weight : Binary64} :
    weight.isFinite = true ∧ weight.isNegative = false ↔
      ∃ negative rank, weight = .finite negative rank ∧ (negative = true → rank.val = 0) := by
  cases weight <;> simp [Binary64.isFinite, Binary64.isNegative]

theorem accepts_iff : (∀ rule ∈ Rule.all r, rule.Kept limits r) ↔ limits.Accepts r := by
  simp only [Rule.all, Rule.leading, List.forall_mem_append, kept_of_tags, List.forall_mem_cons,
    List.not_mem_nil, false_implies, implies_true, and_true]
  constructor
  · rintro ⟨⟨hid, hlabel, hlabelLength, hfinite, hnegative, hcount⟩, htags, htimes⟩
    have hweight := weight_accepted.mp ⟨hfinite, hnegative⟩
    exact ⟨hid, hlabel, hlabelLength, hweight, hcount, htags, htimes⟩
  · rintro ⟨hid, hlabel, hlabelLength, hweight, hcount, htags, htimes⟩
    obtain ⟨hfinite, hnegative⟩ := weight_accepted.mpr hweight
    exact ⟨⟨hid, hlabel, hlabelLength, hfinite, hnegative, hcount⟩, htags, htimes⟩

theorem check_eq_ok_iff : limits.check r = .ok () ↔ limits.Accepts r :=
  (reports_check limits r).eq_ok_iff.trans accepts_iff

/-- Greater limits let pass what smaller ones do. -/
theorem Accepts.mono {limits' : Limits} (h : limits.Accepts r)
    (label : limits.maxLabelLength ≤ limits'.maxLabelLength)
    (count : limits.maxTags ≤ limits'.maxTags)
    (tag : limits.maxTagLength ≤ limits'.maxTagLength) : limits'.Accepts r :=
  { h with
    labelFits := Nat.le_trans h.labelFits label
    tagsFit := Nat.le_trans h.tagsFit count
    tags := fun t ht => ⟨(h.tags t ht).1, Nat.le_trans (h.tags t ht).2 tag⟩ }

/-- A record can do without any of its tags. -/
theorem Accepts.of_sublist (h : limits.Accepts r) {tags : List String}
    (fewer : tags.Sublist r.tags) : limits.Accepts { r with tags } :=
  { h with
    tagsFit := Nat.le_trans fewer.length_le h.tagsFit
    tags := fun t ht => h.tags t (fewer.subset ht) }

/-! ## Tags that are too long -/

/-- The error for a tag that is too long is not that of any other rule, nor that of another tag. -/
theorem eq_tagFits_of_error {tag : String}
    (same : rule.error limits r = (Rule.tagFits tag).error limits r) : rule = .tagFits tag := by
  have htext (s : String) : toString s = s := rfl
  cases rule <;> simp only [Rule.error, ValidationError.field.injEq, reduceCtorEq, htext] at same
  case labelShows | labelFits | weightFinite | weightNotNegative | timesInOrder =>
    exact absurd same.1 (by decide)
  case tagsFit | tagShows =>
    -- the first characters of the messages are different
    have hfirst := congrArg (fun s : String => s.toList.head?) same.2
    simp [String.toList_append] at hfirst
  case tagFits other =>
    obtain rfl : other = tag := by simpa using same
    rfl

theorem all_of_tags {before after : List String} {tag : String}
    (tags : r.tags = before ++ tag :: after) :
    Rule.all r = (Rule.leading ++ before.flatMap Rule.ofTag ++ [.tagShows tag]) ++
      .tagFits tag :: (after.flatMap Rule.ofTag ++ [.timesInOrder]) := by
  simp [Rule.all, tags, Rule.ofTag]

/-- The first tag that breaks a rule is named when it is too long. -/
theorem check_eq_tagFits {tag : String} :
    limits.check r = .error ((Rule.tagFits tag).error limits r) ↔
      (∀ rule ∈ Rule.leading, rule.Kept limits r) ∧
      ∃ before after, r.tags = before ++ tag :: after ∧
        (∀ t ∈ before, Text.Shows t ∧ t.length ≤ limits.maxTagLength) ∧
        Text.Shows tag ∧ limits.maxTagLength < tag.length := by
  rw [(reports_check limits r).eq_error_iff]
  constructor
  · rintro ⟨rule, hfirst, herror⟩
    obtain rfl := eq_tagFits_of_error herror.symm
    obtain ⟨hmem, hbroken⟩ := hfirst.mem
    have htag : tag ∈ r.tags := by simpa [Rule.all, Rule.leading, Rule.ofTag] using hmem
    obtain ⟨tags, tags', htags, hnew⟩ := List.eq_append_cons_of_mem htag
    have hkept := hfirst.kept (all_of_tags htags)
      (by simpa [Rule.leading, Rule.ofTag] using hnew)
    simp only [List.forall_mem_append, List.forall_mem_singleton, kept_of_tags] at hkept
    obtain ⟨⟨hleading, htags_kept⟩, hshows⟩ := hkept
    exact ⟨hleading, tags, tags', htags, htags_kept, hshows, Nat.not_le.mp hbroken⟩
  · rintro ⟨hleading, tags, tags', htags, hkept, hshows, hlong⟩
    refine ⟨.tagFits tag, ⟨_, _, all_of_tags htags, ?_, Nat.not_le.mpr hlong⟩, rfl⟩
    simp only [List.forall_mem_append, List.forall_mem_singleton, kept_of_tags]
    exact ⟨⟨hleading, hkept⟩, hshows⟩

/-- A record passes if and only if it keeps all the rules, and otherwise the error is that of the
first rule that it breaks.  A tag that is too long is named if all that comes before it is in order.
What passes goes on to pass when a limit is raised, and when any of its tags are taken away. -/
theorem first_broken_rule_is_reported (limits : Limits) (r : Record) :
    (limits.check r = .ok () ↔ limits.Accepts r) ∧
    (∀ e, limits.check r = .error e ↔
      ∃ rule, limits.FirstBroken r (Rule.all r) rule ∧ e = rule.error limits r) ∧
    (∀ tag, limits.check r = .error ((Rule.tagFits tag).error limits r) ↔
      (∀ rule ∈ Rule.leading, rule.Kept limits r) ∧
      ∃ before after, r.tags = before ++ tag :: after ∧
        (∀ t ∈ before, Text.Shows t ∧ t.length ≤ limits.maxTagLength) ∧
        Text.Shows tag ∧ limits.maxTagLength < tag.length) ∧
    (∀ limits' : Limits, limits.maxLabelLength ≤ limits'.maxLabelLength →
      limits.maxTags ≤ limits'.maxTags → limits.maxTagLength ≤ limits'.maxTagLength →
        limits.check r = .ok () → limits'.check r = .ok ()) ∧
    ∀ tags : List String, tags.Sublist r.tags →
      limits.check r = .ok () → limits.check { r with tags } = .ok () := by
  refine ⟨check_eq_ok_iff, fun e => (reports_check limits r).eq_error_iff,
    fun tag => check_eq_tagFits, fun limits' label count tag h => ?_, fun tags fewer h => ?_⟩
  · exact check_eq_ok_iff.mpr ((check_eq_ok_iff.mp h).mono label count tag)
  · exact check_eq_ok_iff.mpr ((check_eq_ok_iff.mp h).of_sublist fewer)

/-- Limits that are soon reached. -/
def narrow : Limits :=
  ⟨3, 4, 4⟩

/-- A record with a tag that is too long, a blank tag, a second long tag and times out of order.
Its weight is negative zero. -/
def crowded : Record :=
  { Record.draft 7 with
    weight := .finite true ⟨0, by decide⟩
    tags := ["blue", "purple", "", "orange"]
    updatedAt := some (.minute 6) }

/-- The first of the long tags is named; without these faults the record passes. -/
theorem crowded_is_refused :
    narrow.check crowded = .error (.field "tags" "tag `purple` exceeds 4 chars") ∧
      narrow.FirstBroken crowded (Rule.all crowded) (.tagFits "purple") ∧
      ¬ narrow.Accepts crowded ∧
      narrow.Accepts { crowded with tags := ["blue"], updatedAt := none } := by
  have hcheck : narrow.check crowded = .error ((Rule.tagFits "purple").error narrow crowded) := by
    rfl
  obtain ⟨hok, herror, -⟩ := first_broken_rule_is_reported narrow crowded
  obtain ⟨rule, hfirst, hrule⟩ := (herror _).mp hcheck
  obtain rfl := eq_tagFits_of_error hrule.symm
  obtain ⟨hok', -, -, -, hfewer⟩ := first_broken_rule_is_reported narrow
    { crowded with tags := ["blue", "red"], updatedAt := none }
  obtain ⟨hok'', -⟩ := first_broken_rule_is_reported narrow
    { crowded with tags := ["blue"], updatedAt := none }
  refine ⟨hcheck, hfirst, fun h => ?_, hok''.mp (hfewer ["blue"] (by simp) (by rfl))⟩
  cases (hok.mpr h).symm.trans hcheck

end Limits

end CacheAside
