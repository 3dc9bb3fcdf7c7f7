import CacheAside.Config
import CacheAside.Proofs.Fallible
import Mathlib.Data.List.TakeWhile

/-!
# What the variables of the configuration say

Blanks around the text of a variable do not count.  A number is written with digits of ASCII, as
many as one likes, with or without a plus sign in front; it has to fit a word, and two of the
variables must not be zero.  A refresh mode is one of two words in any case of ASCII letters.

The variables are read one after another, and none of them has a say in what another one sets.  So
the fields of a configuration can be told one by one, and the first variable whose text says nothing
ends the reading.
-/

namespace CacheAside

namespace Text

/-- The text is `core` with nothing but blanks around it, and `core` has no blank at either end. -/
def HasCore (cs core : List Char) : Prop :=
  ∃ before after, cs = before ++ core ++ after ∧
    (∀ c ∈ before, isBlank c = true) ∧ (∀ c ∈ after, isBlank c = true) ∧
    (∀ c ∈ core.head?, isBlank c = false) ∧ ∀ c ∈ core.getLast?, isBlank c = false

theorem trimStart_eq_iff {cs core : List Char} : trimStart cs = core ↔
    ∃ before, cs = before ++ core ∧ (∀ c ∈ before, isBlank c = true) ∧
      ∀ c ∈ core.head?, isBlank c = false := by
  constructor
  · rintro rfl
    refine ⟨cs.takeWhile isBlank, List.takeWhile_append_dropWhile.symm,
      fun c hc => List.mem_takeWhile_imp hc, fun c hc => ?_⟩
    have hhead := List.head?_dropWhile_not isBlank cs
    rwa [show (cs.dropWhile isBlank).head? = some c from hc] at hhead
  · rintro ⟨before, rfl, hbefore, hhead⟩
    rw [trimStart, List.dropWhile_append_of_pos hbefore]
    cases core with
    | nil => rfl
    | cons c core => rw [List.dropWhile_cons_of_neg (by simp [hhead c rfl])]

theorem trim_eq_iff {cs core : List Char} : trim cs = core ↔ HasCore cs core := by
  constructor
  · rintro rfl
    obtain ⟨before, hcs, hbefore, hhead⟩ := trimStart_eq_iff.mp (Eq.refl (trimStart cs))
    obtain ⟨after, hrest, hafter, hlast⟩ :=
      trimStart_eq_iff.mp (Eq.refl (trimStart (trimStart cs).reverse))
    rw [List.reverse_eq_append_iff] at hrest
    refine ⟨before, after.reverse, ?_, hbefore, fun c hc => hafter c (List.mem_reverse.mp hc),
      fun c hc => hhead c ?_, fun c hc => hlast c ?_⟩
    · rw [List.append_assoc, trim, ← hrest, ← hcs]
    · rw [hrest, Option.mem_def, List.head?_append, ← trim, hc]
      rfl
    · rwa [trim, List.getLast?_reverse] at hc
  · rintro ⟨before, after, rfl, hbefore, hafter, hhead, hlast⟩
    cases core with
    | nil =>
      have hall : trimStart (before ++ [] ++ after) = [] :=
        trimStart_eq_iff.mpr ⟨before ++ after, by simp,
          List.forall_mem_append.mpr ⟨hbefore, hafter⟩, by simp⟩
      rw [trim, hall]
      rfl
    | cons c cs =>
      have hstart : trimStart (before ++ (c :: cs) ++ after) = (c :: cs) ++ after :=
        trimStart_eq_iff.mpr ⟨before, List.append_assoc .., hbefore, hhead⟩
      have hend : trimStart ((c :: cs) ++ after).reverse = (c :: cs).reverse :=
        trimStart_eq_iff.mpr ⟨after.reverse, List.reverse_append,
          fun d hd => hafter d (List.mem_reverse.mp hd), by rwa [List.head?_reverse]⟩
      rw [trim, hstart, hend, List.reverse_reverse]

end Text

open Text

/-! ## Numbers and modes -/

/-- The text is the digits of a number, after a plus sign or not. -/
def IsNumeral (cs : List Char) (n : Nat) : Prop :=
  ∃ digits, (cs = digits ∨ cs = '+' :: digits) ∧ digits ≠ [] ∧
    (∀ c ∈ digits, c.isDigit = true) ∧ Nat.ofDigitChars 10 digits 0 = n

theorem isNumeral_plus {digits : List Char} {n : Nat} : IsNumeral ('+' :: digits) n ↔
    digits ≠ [] ∧ (∀ c ∈ digits, c.isDigit = true) ∧ Nat.ofDigitChars 10 digits 0 = n := by
  have hplus : '+'.isDigit = false := by decide
  constructor
  · rintro ⟨ds, rfl | heq, hne, hdigits, hvalue⟩
    · rw [hdigits '+' List.mem_cons_self] at hplus
      cases hplus
    · obtain ⟨-, rfl⟩ := List.cons.inj heq
      exact ⟨hne, hdigits, hvalue⟩
  · rintro ⟨hne, hdigits, hvalue⟩
    exact ⟨digits, .inr rfl, hne, hdigits, hvalue⟩

theorem isNumeral_of_no_plus {cs : List Char} {n : Nat} (other : ∀ digits, cs ≠ '+' :: digits) :
    IsNumeral cs n ↔
      cs ≠ [] ∧ (∀ c ∈ cs, c.isDigit = true) ∧ Nat.ofDigitChars 10 cs 0 = n := by
  constructor
  · rintro ⟨ds, rfl | heq, hds⟩
    · exact hds
    · exact absurd heq (other ds)
  · exact fun h => ⟨cs, .inl rfl, h⟩

/-- The word for a refresh mode. -/
def CacheRefresh.word : CacheRefresh → String
  | .background => "background"
  | .inlined => "inline"

namespace Config

theorem le_ofDigitChars (value : Nat) (cs : List Char) : value ≤ Nat.ofDigitChars 10 cs value := by
  induction cs generalizing value with
  | nil => exact Nat.le_refl value
  | cons c cs ih =>
    rw [Nat.ofDigitChars_cons]
    exact Nat.le_trans (by omega) (ih _)

/-- The digits are read as long as what they amount to fits. -/
theorem readDigits_eq_ok {cs : List Char} {value n : Nat} (fits : value < Nat.pow 2 64) :
    readDigits value cs = .ok n ↔
      (∀ c ∈ cs, c.isDigit = true) ∧ Nat.ofDigitChars 10 cs value = n ∧ n < Nat.pow 2 64 := by
  induction cs generalizing value with
  | nil =>
    simp only [readDigits, Except.ok.injEq, List.not_mem_nil, false_implies, implies_true, true_and]
    exact ⟨fun h => ⟨h, h ▸ fits⟩, fun h => h.1⟩
  | cons c cs ih =>
    simp only [readDigits, List.forall_mem_cons, Nat.ofDigitChars_cons]
    split
    · rename_i hdigit
      rw [and_iff_right hdigit]
      split
      · rename_i hnext
        exact ih hnext
      · rename_i hlarge
        refine iff_of_false (by simp) fun h => hlarge ?_
        obtain ⟨-, hvalue, hn⟩ := h
        exact Nat.lt_of_le_of_lt (le_ofDigitChars _ cs) (hvalue ▸ hn)
    · rename_i hother
      exact iff_of_false (by simp) fun h => hother h.1.1

theorem readNumber_eq_ok {cs : List Char} {n : Nat} :
    readNumber cs = .ok n ↔ IsNumeral cs n ∧ n < Nat.pow 2 64 := by
  fun_cases readNumber cs with
  | case1 => simp [IsNumeral]
  | case2 => simp [isNumeral_plus]
  | case3 digits hne =>
    rw [readDigits_eq_ok (by decide), isNumeral_plus, and_assoc, and_assoc, and_iff_right hne]
  | case4 cs hnil hsign hplus =>
    rw [readDigits_eq_ok (by decide), isNumeral_of_no_plus hplus, and_assoc, and_assoc,
      and_iff_right hnil]

theorem numberOf_eq_ok {raw : String} {n : Nat} :
    numberOf raw = .ok n ↔ IsNumeral (trim raw.toList) n ∧ n < Nat.pow 2 64 := by
  rw [numberOf, mapError_eq_ok, readNumber_eq_ok]

theorem readRefresh_eq_ok {raw : String} {mode : CacheRefresh} :
    readRefresh raw = .ok mode ↔ (trim raw.toList).map Char.toLower = mode.word.toList := by
  have htext (cs : List Char) : cs = mode.word.toList ↔ String.ofList cs = mode.word := by
    rw [← String.toList_inj, String.toList_ofList]
  rw [htext]
  unfold readRefresh
  generalize String.ofList ((trim raw.toList).map Char.toLower) = got
  have hwords : "inline" ≠ "background" := by decide
  by_cases hbackground : got = "background"
  · cases mode <;> simp [hbackground, CacheRefresh.word]
  · by_cases hinline : got = "inline"
    · cases mode <;> simp [hinline, CacheRefresh.word]
    · cases mode <;> simp [hbackground, hinline, CacheRefresh.word]

end Config

/-! ## What a variable sets -/

namespace Variable

/-- The values of the field that a variable sets. -/
abbrev Setting : Variable → Type
  | .cacheTtl => Nat
  | .cacheRefresh => CacheRefresh
  | .defaultTimeout => Option Nat
  | .refreshTimeout => Nat

/-- What the text of a variable stands for when there are no blanks around it. -/
def Means : (var : Variable) → List Char → var.Setting → Prop
  | .cacheTtl, core, (secs : Nat) => IsNumeral core secs ∧ secs < Nat.pow 2 64 ∧ secs ≠ 0
  | .cacheRefresh, core, mode => core.map Char.toLower = mode.word.toList
  | .defaultTimeout, core, timeout =>
    ∃ ms, IsNumeral core ms ∧ ms < Nat.pow 2 64 ∧ timeout = if ms = 0 then none else some ms
  | .refreshTimeout, core, (ms : Nat) => IsNumeral core ms ∧ ms < Nat.pow 2 64 ∧ ms ≠ 0

end Variable

namespace Config

/-- The field that a variable sets. -/
def field (config : Config) : (var : Variable) → var.Setting
  | .cacheTtl => config.cacheTtl
  | .cacheRefresh => config.cacheRefresh
  | .defaultTimeout => config.defaultTimeout
  | .refreshTimeout => config.refreshTimeout

/-- The configuration with another value in the field of a variable. -/
def put (config : Config) : (var : Variable) → var.Setting → Config
  | .cacheTtl, secs => { config with cacheTtl := secs }
  | .cacheRefresh, mode => { config with cacheRefresh := mode }
  | .defaultTimeout, timeout => { config with defaultTimeout := timeout }
  | .refreshTimeout, ms => { config with refreshTimeout := ms }

variable {config config' : Config} {var other : Variable}

@[simp]
theorem field_put (config : Config) (var : Variable) (value : var.Setting) :
    (config.put var value).field var = value := by
  cases var <;> rfl

theorem field_put_of_ne (ne : other ≠ var) (value : var.Setting) :
    (config.put var value).field other = config.field other := by
  cases var <;> cases other <;> first | rfl | exact absurd rfl ne

@[simp]
theorem put_field (config : Config) (var : Variable) :
    config.put var (config.field var) = config := by
  cases var <;> rfl

theorem eq_of_field (same : ∀ var, config.field var = config'.field var) : config = config' := by
  have httl : config.cacheTtl = config'.cacheTtl := same .cacheTtl
  have hrefresh : config.cacheRefresh = config'.cacheRefresh := same .cacheRefresh
  have hdefault : config.defaultTimeout = config'.defaultTimeout := same .defaultTimeout
  have htimeout : config.refreshTimeout = config'.refreshTimeout := same .refreshTimeout
  cases config
  cases config'
  simp_all

theorem unless_zero_eq_ok {n : Nat} {e : ConfigFault} :
    (if n = 0 then throw e else return config : Except ConfigFault Config) = .ok config' ↔
      n ≠ 0 ∧ config = config' := by
  by_cases h : n = 0 <;> simp [h, throw, throwThe, MonadExceptOf.throw, pure, Except.pure]

/-- The text of a variable is put into its field, and into no other. -/
theorem set_eq_ok {raw : String} : config.set raw var = .ok config' ↔
    ∃ value, var.Means (trim raw.toList) value ∧ config.put var value = config' := by
  have hreturn (c : Config) : (return c : Except ConfigFault Config) = .ok config' ↔ c = config' :=
    Except.ok.injEq c config' ▸ Iff.rfl
  cases var with
  | cacheTtl | refreshTimeout =>
    simp only [set, bind_eq_ok, numberOf_eq_ok, unless_zero_eq_ok, Variable.Means, put, and_assoc]
  | cacheRefresh =>
    simp only [set, bind_eq_ok, readRefresh_eq_ok, hreturn, Variable.Means, put]
  | defaultTimeout =>
    simp only [set, bind_eq_ok, numberOf_eq_ok, hreturn, Variable.Means, put]
    constructor
    · rintro ⟨ms, ⟨hms, hfits⟩, hput⟩
      exact ⟨_, ⟨ms, hms, hfits, rfl⟩, hput⟩
    · rintro ⟨_, ⟨ms, hms, hfits, rfl⟩, hput⟩
      exact ⟨ms, ⟨hms, hfits⟩, hput⟩

end Config

namespace Variable

/-- A variable sets what its text says when there is nothing but blanks around it.  One that is not
set leaves its field as it is in the configuration. -/
def Sets (var : Variable) (config : Config) (text : Option String) (value : var.Setting) : Prop :=
  match text with
  | none => value = config.field var
  | some raw => ∃ core, HasCore raw.toList core ∧ var.Means core value

/-- A variable is good when it is not set or its text says something. -/
def IsGood (var : Variable) (text : Option String) : Prop :=
  ∀ raw, text = some raw → ∃ core value, HasCore raw.toList core ∧ var.Means core value

variable {config : Config} {var : Variable} {text : Option String} {value value' : var.Setting}

theorem sets_some {raw : String} :
    var.Sets config (some raw) value ↔ var.Means (trim raw.toList) value := by
  simp only [Sets, ← trim_eq_iff, exists_eq_left']

theorem isGood_iff (config : Config) : var.IsGood text ↔ ∃ value, var.Sets config text value := by
  cases text with
  | none => exact iff_of_true (fun _ h => nomatch h) ⟨_, rfl⟩
  | some raw =>
    simp only [IsGood, Option.some.injEq, forall_eq', sets_some, ← trim_eq_iff, exists_and_left,
      exists_eq_left']

/-- A text says one thing only. -/
theorem Sets.unique (h : var.Sets config text value) (h' : var.Sets config text value') :
    value = value' := by
  cases text with
  | none => exact h.trans h'.symm
  | some raw =>
    have hset : config.set raw var = .ok (config.put var value) :=
      Config.set_eq_ok.mpr ⟨value, sets_some.mp h, rfl⟩
    have hset' : config.set raw var = .ok (config.put var value') :=
      Config.set_eq_ok.mpr ⟨value', sets_some.mp h', rfl⟩
    have hput : config.put var value = config.put var value' :=
      Except.ok.inj (hset.symm.trans hset')
    rw [← config.field_put var value, hput, config.field_put]

/-- What is set was there before, or a text says it. -/
theorem Sets.before_or_said (h : var.Sets config text value) :
    value = config.field var ∨ ∃ core, var.Means core value := by
  cases text with
  | none => exact .inl h
  | some raw => exact .inr ⟨_, sets_some.mp h⟩

/-- A configuration counts only with the field of the variable. -/
theorem sets_congr {config' : Config} (same : config.field var = config'.field var) :
    var.Sets config text value ↔ var.Sets config' text value := by
  cases text with
  | none => rw [Sets, Sets, same]
  | some raw => rfl

end Variable

/-! ## One variable after another -/

namespace Config

variable {config config' : Config} {var : Variable} {vars asked : List Variable}
  {lookup : Variable → Option String}

theorem readAll_cons_of_sets {value : var.Setting} (sets : var.Sets config (lookup var) value) :
    readAll lookup config (var :: vars) =
      (var :: (readAll lookup (config.put var value) vars).1,
        (readAll lookup (config.put var value) vars).2) := by
  rw [readAll]
  cases htext : lookup var with
  | none =>
    rw [htext] at sets
    obtain rfl : value = config.field var := sets
    rw [put_field]
  | some raw =>
    rw [htext, Variable.sets_some] at sets
    simp only [set_eq_ok.mpr ⟨value, sets, rfl⟩]

theorem readAll_cons_of_bad (bad : ¬ var.IsGood (lookup var)) :
    ∃ fault, readAll lookup config (var :: vars) = ([var], .error ⟨var, fault⟩) := by
  rw [Variable.isGood_iff config] at bad
  cases htext : lookup var with
  | none =>
    rw [htext] at bad
    exact absurd ⟨_, rfl⟩ bad
  | some raw =>
    rw [htext] at bad
    cases hset : config.set raw var with
    | ok config' =>
      obtain ⟨value, hmeans, -⟩ := set_eq_ok.mp hset
      exact absurd ⟨value, Variable.sets_some.mpr hmeans⟩ bad
    | error fault =>
      refine ⟨fault, ?_⟩
      rw [readAll, htext]
      simp only [hset]

/-- Good variables are all asked for, each of them sets its field, and the other fields stay. -/
theorem readAll_of_good (config : Config) (good : ∀ var ∈ vars, var.IsGood (lookup var))
    (nodup : vars.Nodup) :
    ∃ config', readAll lookup config vars = (vars, .ok config') ∧
      (∀ var ∈ vars, var.Sets config (lookup var) (config'.field var)) ∧
      ∀ var ∉ vars, config'.field var = config.field var := by
  induction vars generalizing config with
  | nil => exact ⟨config, rfl, by simp, fun _ _ => rfl⟩
  | cons var vars ih =>
    obtain ⟨hgood, hrest⟩ := List.forall_mem_cons.mp good
    obtain ⟨hnew, hnodup⟩ := List.nodup_cons.mp nodup
    obtain ⟨value, hvalue⟩ := (Variable.isGood_iff config).mp hgood
    obtain ⟨config', hread, hsets, hstay⟩ := ih (config.put var value) hrest hnodup
    have hother {v : Variable} (hv : v ≠ var) := config.field_put_of_ne hv value
    refine ⟨config', ?_, List.forall_mem_cons.mpr ⟨?_, fun v hv => ?_⟩, fun v hv => ?_⟩
    · rw [readAll_cons_of_sets hvalue, hread]
    · rwa [hstay var hnew, field_put]
    · exact (Variable.sets_congr (hother (ne_of_mem_of_not_mem hv hnew))).mp (hsets v hv)
    · obtain ⟨hne, hv⟩ := not_or.mp (mt List.mem_cons.mpr hv)
      rw [hstay v hv, hother hne]

/-- After good variables a bad one is the last to be asked for. -/
theorem readAll_of_bad (config : Config) {before : List Variable} (after : List Variable)
    (good : ∀ v ∈ before, v.IsGood (lookup v)) (bad : ¬ var.IsGood (lookup var)) :
    ∃ fault, readAll lookup config (before ++ var :: after) =
      (before ++ [var], .error ⟨var, fault⟩) := by
  induction before generalizing config with
  | nil => exact readAll_cons_of_bad bad
  | cons v before ih =>
    obtain ⟨hgood, hrest⟩ := List.forall_mem_cons.mp good
    obtain ⟨value, hvalue⟩ := (Variable.isGood_iff config).mp hgood
    obtain ⟨fault, hread⟩ := ih (config.put v value) hrest
    exact ⟨fault, by rw [List.cons_append, readAll_cons_of_sets hvalue, hread]; rfl⟩

/-- Either all variables are good or there is a first bad one. -/
theorem good_or_bad (lookup : Variable → Option String) (vars : List Variable) :
    (∀ var ∈ vars, var.IsGood (lookup var)) ∨
      ∃ before var after, vars = before ++ var :: after ∧
        (∀ v ∈ before, v.IsGood (lookup v)) ∧ ¬ var.IsGood (lookup var) := by
  induction vars with
  | nil => exact .inl (by simp)
  | cons var vars ih =>
    by_cases hgood : var.IsGood (lookup var)
    · obtain hrest | ⟨before, v, after, rfl, hbefore, hbad⟩ := ih
      · exact .inl (List.forall_mem_cons.mpr ⟨hgood, hrest⟩)
      · exact .inr ⟨var :: before, v, after, rfl, List.forall_mem_cons.mpr ⟨hgood, hbefore⟩, hbad⟩
    · exact .inr ⟨[], var, vars, rfl, by simp, hgood⟩

theorem mem_order (var : Variable) : var ∈ order := by
  cases var <;> decide

section

variable {lookup : String → Option String}

theorem read_of_good (good : ∀ var : Variable, var.IsGood (lookup var.name)) :
    ∃ config, read lookup = (order, .ok config) ∧
      ∀ var : Variable, var.Sets {} (lookup var.name) (config.field var) := by
  obtain ⟨config, hread, hsets, -⟩ :=
    readAll_of_good {} (fun var _ => good var) (show order.Nodup by decide)
  exact ⟨config, hread, fun var => hsets var (mem_order var)⟩

/-- The reading ends with a configuration if all variables are good, and else with the first bad
one. -/
theorem read_cases (lookup : String → Option String) :
    (∃ config, read lookup = (order, .ok config) ∧
      ∀ var : Variable, var.Sets {} (lookup var.name) (config.field var)) ∨
    ∃ before var after fault, order = before ++ var :: after ∧
      (∀ v ∈ before, v.IsGood (lookup v.name)) ∧ ¬ var.IsGood (lookup var.name) ∧
      read lookup = (before ++ [var], .error ⟨var, fault⟩) := by
  obtain hgood | ⟨before, var, after, horder, hgood, hbad⟩ :=
    good_or_bad (fun var => lookup var.name) order
  · exact .inl (read_of_good fun var => hgood var (mem_order var))
  · obtain ⟨fault, hread⟩ := readAll_of_bad {} after hgood hbad
    rw [← horder] at hread
    exact .inr ⟨before, var, after, fault, horder, hgood, hbad, hread⟩

theorem read_eq_ok {asked : List Variable} {config : Config} :
    read lookup = (asked, .ok config) ↔
      asked = order ∧ ∀ var : Variable, var.Sets {} (lookup var.name) (config.field var) := by
  constructor
  · intro hread
    obtain ⟨config', hread', hsets⟩ | ⟨_, _, _, _, -, -, -, hread'⟩ := read_cases lookup
    · cases hread.symm.trans hread'
      exact ⟨rfl, hsets⟩
    · cases hread.symm.trans hread'
  · rintro ⟨rfl, hsets⟩
    obtain ⟨config', hread, hsets'⟩ :=
      read_of_good fun var => (Variable.isGood_iff {}).mpr ⟨_, hsets var⟩
    rw [hread, eq_of_field fun var => (hsets' var).unique (hsets var)]

theorem read_eq_error {asked : List Variable} {var : Variable} :
    (∃ fault, read lookup = (asked, .error ⟨var, fault⟩)) ↔
      ∃ before after, order = before ++ var :: after ∧ asked = before ++ [var] ∧
        (∀ v ∈ before, v.IsGood (lookup v.name)) ∧ ¬ var.IsGood (lookup var.name) := by
  constructor
  · rintro ⟨fault, hread⟩
    obtain ⟨_, hread', -⟩ | ⟨before, v, after, _, horder, hgood, hbad, hread'⟩ := read_cases lookup
    · cases hread.symm.trans hread'
    · cases hread.symm.trans hread'
      exact ⟨before, after, horder, rfl, hgood, hbad⟩
  · rintro ⟨before, after, horder, rfl, hgood, hbad⟩
    obtain ⟨fault, hread⟩ := readAll_of_bad {} after hgood hbad
    rw [← horder] at hread
    exact ⟨fault, hread⟩

/-- The times of a configuration fit a word, and none of them is zero. -/
theorem bounds_of_read {config : Config} (accepted : (read lookup).2 = .ok config) :
    (0 < config.cacheTtl ∧ config.cacheTtl < Nat.pow 2 64) ∧
      (0 < config.refreshTimeout ∧ config.refreshTimeout < Nat.pow 2 64) ∧
      ∀ ms, config.defaultTimeout = some ms → 0 < ms ∧ ms < Nat.pow 2 64 := by
  obtain ⟨-, hsets⟩ := read_eq_ok.mp (Prod.ext rfl accepted)
  refine ⟨?_, ?_, fun ms hms => ?_⟩
  · obtain hdefault | ⟨core, -, hfits, hne⟩ := (hsets .cacheTtl).before_or_said
    · rw [show config.cacheTtl = 300 from hdefault]
      decide
    · exact ⟨Nat.pos_of_ne_zero hne, hfits⟩
  · obtain hdefault | ⟨core, -, hfits, hne⟩ := (hsets .refreshTimeout).before_or_said
    · rw [show config.refreshTimeout = 5000 from hdefault]
      decide
    · exact ⟨Nat.pos_of_ne_zero hne, hfits⟩
  · obtain hdefault | ⟨core, n, -, hfits, hsome⟩ := (hsets .defaultTimeout).before_or_said
    · cases hms.symm.trans hdefault
    · have heq := hms.symm.trans hsome
      split at heq
      · cases heq
      · rename_i hne
        cases heq
        exact ⟨Nat.pos_of_ne_zero hne, hfits⟩

end

/-- The reading ends well if and only if all variables are good.  Then it has asked for all of them
in their order, and each field is what its variable sets: two lookups that agree on the variable
agree on the field, whatever they say of the others.  No time to live and no timeout is zero.
Otherwise the reading ends with the first bad variable, and asks for none after it. -/
theorem variables_are_read_exactly (lookup : String → Option String) :
    (∀ asked config, read lookup = (asked, .ok config) ↔
      asked = order ∧ ∀ var : Variable, var.Sets {} (lookup var.name) (config.field var)) ∧
    ((∃ config, read lookup = (order, .ok config)) ↔
      ∀ var : Variable, var.IsGood (lookup var.name)) ∧
    (∀ asked var, (∃ fault, read lookup = (asked, .error ⟨var, fault⟩)) ↔
      ∃ before after, order = before ++ var :: after ∧ asked = before ++ [var] ∧
        (∀ v ∈ before, v.IsGood (lookup v.name)) ∧ ¬ var.IsGood (lookup var.name)) ∧
    (∀ lookup' config config', (read lookup).2 = .ok config → (read lookup').2 = .ok config' →
      ∀ var : Variable, lookup var.name = lookup' var.name →
        config.field var = config'.field var) ∧
    ∀ config, (read lookup).2 = .ok config →
      1 ≤ config.cacheTtl ∧ 1 ≤ config.refreshTimeout ∧ config.defaultTimeout ≠ some 0 := by
  refine ⟨fun _ _ => read_eq_ok, ⟨?_, fun hgood => ?_⟩, fun _ _ => read_eq_error,
    fun lookup' config config' hread hread' var hsame => ?_, fun config hread => ?_⟩
  · rintro ⟨config, hread⟩ var
    exact (Variable.isGood_iff {}).mpr ⟨_, (read_eq_ok.mp hread).2 var⟩
  · obtain ⟨config, hread, -⟩ := read_of_good hgood
    exact ⟨config, hread⟩
  · have hsets := (read_eq_ok.mp (Prod.ext rfl hread)).2 var
    have hsets' := (read_eq_ok.mp (Prod.ext rfl hread')).2 var
    rw [hsame] at hsets
    exact hsets.unique hsets'
  · obtain ⟨httl, htimeout, hdefault⟩ := bounds_of_read hread
    exact ⟨httl.1, htimeout.1, fun hzero => Nat.lt_irrefl 0 (hdefault 0 hzero).1⟩

/-- Texts for three of the variables, and maybe one for the timeout of a refresh. -/
def rough (refreshTimeout : Option String) (name : String) : Option String :=
  if name = Variable.refreshTimeout.name then refreshTimeout
  else [(Variable.cacheTtl.name, " +0060\t"), (Variable.cacheRefresh.name, "InLine"),
    (Variable.defaultTimeout.name, "000")].lookup name

/-- The rough texts are read; nothing and 2^64 - 1 will do for the timeout of a refresh, zero,
2^64 and a second sign will not. -/
theorem rough_is_read :
    read (rough none) = (order, .ok ⟨60, .inlined, none, 5000⟩) ∧
      Variable.cacheTtl.Sets {} (some " +0060\t") 60 ∧
      (∃ config, read (rough (some "18446744073709551615")) = (order, .ok config)) ∧
      (∀ text ∈ ["0", "18446744073709551616", "+-1"],
        ¬ Variable.refreshTimeout.IsGood (some text)) := by
  have hread : read (rough none) = (order, .ok ⟨60, .inlined, none, 5000⟩) := by rfl
  obtain ⟨hok, -⟩ := variables_are_read_exactly (rough none)
  refine ⟨hread, ((hok order _).mp hread).2 .cacheTtl, ⟨⟨60, .inlined, none, 2 ^ 64 - 1⟩, by rfl⟩,
    fun text htext => ?_⟩
  obtain ⟨-, -, herror, -⟩ := variables_are_read_exactly (rough (some text))
  have hfault : ∃ fault, read (rough (some text)) = (order, .error ⟨.refreshTimeout, fault⟩) := by
    simp only [List.mem_cons, List.not_mem_nil, or_false] at htext
    obtain rfl | rfl | rfl := htext <;> exact ⟨_, rfl⟩
  obtain ⟨before, after, horder, -, -, hbad⟩ := (herror order .refreshTimeout).mp hfault
  exact hbad

end Config

end CacheAside
