import CacheAside.Proofs.Interleaving.Finality

/-!
# What a request returns

A request is followed through a run from one of its moments to any later one: where its strides keep
it in some set of points, it stays there (`Scene.kept`), and one that does not break down is under
way until its caller leaves (`Scene.remains`).  So it returns one outcome at most
(`Scene.Returns.unique`).  If the store is atomic, what the store says is what the request goes on
with in the same act (`Scene.answered_of_effect`).
-/

namespace CacheAside

/-- The call is one of the store. -/
def Port.isStore : Port → Bool
  | .storeFindAll | .storeFindById | .storeCreate | .storeUpdate | .storeDeleteById => true
  | _ => false

/-- The call tells the cache or the event bus something. -/
def PortCall.isTelling : PortCall → Bool
  | .writeCache _ => true
  | .publish _ => true
  | _ => false

namespace Simulation

open World (Strode)

/-- The strides of a request that stands in `P` leave it there. -/
def Lasting (P : Point → Prop) : Prop :=
  ∀ ⦃w w' : World⦄ ⦃ctx : Context⦄ ⦃spans : List Span⦄ ⦃p p' : Point⦄,
    Strode w ctx spans p w' (some p') → P p → P p'

/-- A request that stands in `P` does not break down. -/
def Firm (P : Point → Prop) : Prop :=
  ∀ ⦃w w' : World⦄ ⦃ctx : Context⦄ ⦃spans : List Span⦄ ⦃p : Point⦄,
    P p → ¬ Strode w ctx spans p w' none

namespace Scene

variable {s₀ s s' : Scene} {acts before more : List Act} {key : Nat}

/-! ## Parts of a run -/

theorem perform_append (s : Scene) (acts more : List Act) :
    s.perform (acts ++ more) = (s.perform acts).perform more :=
  List.foldl_append ..

theorem allows_append {allowed : Scene → Scene → Prop} :
    s.Allows allowed (acts ++ more) ↔
      s.Allows allowed acts ∧ (s.perform acts).Allows allowed more := by
  induction acts generalizing s with
  | nil => exact (and_iff_right trivial).symm
  | cons a acts ih =>
    show (_ ∧ (s.act a).Allows allowed (acts ++ more)) ↔ (_ ∧ _) ∧ _
    rw [ih, and_assoc]
    rfl

/-- What holds of each act of a run holds of the acts up to one of them, and of that one. -/
theorem Allows.split {allowed : Scene → Scene → Prop} (h : s.Allows allowed acts) {a : Act}
    (part : before ++ [a] <+: acts) :
    s.Allows allowed before ∧ allowed (s.perform before) ((s.perform before).act a) := by
  obtain ⟨rest, rfl⟩ := part
  obtain ⟨hfirst, -⟩ := allows_append.mp h
  obtain ⟨hbefore, hact, -⟩ := allows_append.mp hfirst
  exact ⟨hbefore, hact⟩

/-- A moment of a run comes before an act of it or after it. -/
theorem before_or_after {moment : List Act} {a : Act} (hmoment : moment <+: acts)
    (part : before ++ [a] <+: acts) : moment <+: before ∨ before ++ [a] <+: moment := by
  rcases List.prefix_or_prefix_of_prefix hmoment part with h | h
  · rcases List.prefix_concat_iff.mp h with rfl | h
    · exact .inr (List.prefix_refl _)
    · exact .inl h
  · exact .inr h

/-- What takes effect in a run, and on whose behalf. -/
def effects (s : Scene) (acts : List Act) : List (Party × PortCall) :=
  s.collect (fun s a => (s.effect? a).toList) acts

theorem mem_effects {effect : Party × PortCall} :
    effect ∈ s.effects acts ↔
      ∃ before a, before ++ [a] <+: acts ∧ (s.perform before).effect? a = some effect := by
  induction acts generalizing s with
  | nil => simp [effects, collect]
  | cons b acts ih =>
    have hsplit : effect ∈ s.effects (b :: acts) ↔
        s.effect? b = some effect ∨ effect ∈ (s.act b).effects acts := by
      simp [effects, collect]
    rw [hsplit, ih]
    constructor
    · rintro (hnow | ⟨before, a, hprefix, heffect⟩)
      · exact ⟨[], b, ⟨acts, rfl⟩, hnow⟩
      · exact ⟨b :: before, a, List.cons_prefix_cons.mpr ⟨rfl, hprefix⟩, heffect⟩
    · rintro ⟨before, a, hprefix, heffect⟩
      cases before with
      | nil =>
        obtain ⟨rfl, -⟩ := List.cons_prefix_cons.mp hprefix
        exact .inl heffect
      | cons c before =>
        obtain ⟨rfl, hrest⟩ := List.cons_prefix_cons.mp hprefix
        exact .inr ⟨before, a, hrest, heffect⟩

/-! ## One request on its way -/

/-- Where the strides of a request keep it, no act of anyone takes it away. -/
theorem Step.kept {P : Point → Prop} (step : Step s s') (lasting : Lasting P)
    (known : key < s.asked.length) (h : ∀ t ∈ s.threads, t.key = key → P t.point) :
    ∀ t ∈ s'.threads, t.key = key → P t.point := by
  intro u hu hkey
  cases step with
  | start ctx request =>
    rcases List.mem_append.mp hu with hold | hnew
    · exact h u hold hkey
    · obtain rfl := List.mem_singleton.mp hnew
      exact absurd known (hkey ▸ Nat.lt_irrefl _)
  | stride side mem eq =>
    rcases mem_put hu with rfl | ⟨hold, -⟩
    · exact lasting (World.strode eq) (h _ mem hkey)
    · exact h u hold hkey
  | breakDown => exact h u (List.mem_filter.mp hu).1 hkey
  | leave => exact h u (List.mem_filter.mp hu).1 hkey
  | turn => exact h u hu hkey
  | elapse => exact h u hu hkey

/-- Where the strides of a request keep it, it stays in the whole run. -/
theorem kept {P : Point → Prop} (lasting : Lasting P) (known : key < s.asked.length)
    (h : ∀ t ∈ s.threads, t.key = key → P t.point)
    (more : List Act) : ∀ t ∈ (s.perform more).threads, t.key = key → P t.point := by
  induction more generalizing s with
  | nil => exact h
  | cons a more ih =>
    have hstep := s.step_act a
    exact ih (Nat.lt_of_lt_of_le known hstep.asked_kept.length_le) (hstep.kept lasting known h)

/-- A request that cannot break down is under way until its caller leaves. -/
theorem remains_act {P : Point → Prop} (firm : Firm P)
    (h : ∀ t ∈ s.threads, t.key = key → P t.point) (mem : ∃ t ∈ s.threads, t.key = key) {a : Act}
    (stays : a ≠ .leave key) : ∃ t ∈ (s.act a).threads, t.key = key := by
  obtain ⟨t, ht, hkey⟩ := mem
  have hfilter {other : Nat} (hne : other ≠ key) : t ∈ s.threads.filter (·.key ≠ other) := by
    have hother : t.key ≠ other := hkey ▸ hne.symm
    simp [ht, hother]
  cases a with
  | start ctx request => exact ⟨t, List.mem_append_left _ ht, hkey⟩
  | look other side =>
    simp only [act]
    split
    · exact ⟨t, ht, hkey⟩
    · rename_i u hfind
      have hother : u.key = other := by simpa using List.find?_some hfind
      have hu := List.mem_of_find?_eq_some hfind
      split
      · rename_i w p hstride
        by_cases hsame : other = key
        · exact ⟨u.goTo p, mem_put_self hu rfl, hother.trans hsame⟩
        · refine ⟨t, mem_put_of_ne ht ?_, hkey⟩
          show t.key ≠ u.key
          rw [hkey, hother]
          exact fun h => hsame h.symm
      · rename_i w hstride
        have hne : other ≠ key := fun hsame =>
          firm (h u hu (hother.trans hsame)) (World.strode hstride)
        exact ⟨t, hfilter hne, hkey⟩
  | leave other =>
    simp only [act]
    split
    · exact ⟨t, ht, hkey⟩
    · exact ⟨t, hfilter fun hsame => stays (hsame ▸ rfl), hkey⟩
  | turn ticket =>
    simp only [act]
    split <;> exact ⟨t, ht, hkey⟩
  | pass now => exact ⟨t, ht, hkey⟩
  | setClock clock => exact ⟨t, ht, hkey⟩
  | setFaults faults => exact ⟨t, ht, hkey⟩
  | give signal => exact ⟨t, ht, hkey⟩

theorem remains {P : Point → Prop} (lasting : Lasting P) (firm : Firm P)
    (known : key < s.asked.length) (h : ∀ t ∈ s.threads, t.key = key → P t.point)
    (mem : ∃ t ∈ s.threads, t.key = key) (stays : .leave key ∉ more) :
    ∃ t ∈ (s.perform more).threads, t.key = key := by
  induction more generalizing s with
  | nil => exact mem
  | cons a more ih =>
    rw [List.mem_cons, not_or] at stays
    obtain ⟨hnow, hlater⟩ := stays
    have hstep := s.step_act a
    exact ih (Nat.lt_of_lt_of_le known hstep.asked_kept.length_le) (hstep.kept lasting known h)
      (remains_act firm h mem fun hleave => hnow hleave.symm) hlater

/-! ## Outcomes -/

/-- At some moment of the run the request has come to this end. -/
def Returns (s₀ : Scene) (acts : List Act) (key : Nat) (outcome : Outcome) : Prop :=
  ∃ before, before <+: acts ∧
    ∃ t ∈ (s₀.perform before).threads, t.key = key ∧ t.point = .finished outcome

/-- A request that has come to its end stays there. -/
theorem lasting_finished (outcome : Outcome) : Lasting (· = .finished outcome) := by
  rintro w w' ctx spans p p' h rfl
  cases h
  rfl

/-- What all requests of a number are one of them is. -/
theorem Numbered.of_one (h : s.Numbered) {t : Thread} (mem : t ∈ s.threads) {P : Point → Prop}
    (hP : P t.point) : ∀ u ∈ s.threads, u.key = t.key → P u.point := by
  intro u hu hkey
  rwa [h.eq_of_key hu mem hkey]

/-- What is true of a request at some moment and is kept by its strides is true of it later. -/
theorem later_of_kept {P : Point → Prop} (fresh : s₀.IsFresh) (lasting : Lasting P) {t : Thread}
    (mem : t ∈ (s₀.perform before).threads) (hP : P t.point) (more : before <+: acts) :
    ∀ u ∈ (s₀.perform acts).threads, u.key = t.key → P u.point := by
  obtain ⟨rest, rfl⟩ := more
  have hnumbered := (runs_perform s₀ before).numbered fresh
  rw [perform_append]
  exact kept lasting (hnumbered.key_lt mem) (hnumbered.of_one mem hP) rest

/-- A request returns one outcome at most. -/
theorem Returns.unique {outcome outcome' : Outcome} (h : s₀.Returns acts key outcome)
    (h' : s₀.Returns acts key outcome') (fresh : s₀.IsFresh) : outcome = outcome' := by
  obtain ⟨moment, hmoment, t, ht, hkey, hended⟩ := h
  obtain ⟨moment', hmoment', t', ht', hkey', hended'⟩ := h'
  have hsame : t'.key = t.key := hkey'.trans hkey.symm
  rcases List.prefix_or_prefix_of_prefix hmoment hmoment' with hfirst | hfirst
  · have hstill := later_of_kept fresh (lasting_finished outcome) ht hended hfirst t' ht' hsame
    exact Point.finished.inj (hstill.symm.trans hended')
  · have hstill :=
      later_of_kept fresh (lasting_finished outcome') ht' hended' hfirst t ht hsame.symm
    exact Point.finished.inj (hended.symm.trans hstill)

/-! ## Telling others -/

end Scene

/-- The request has asked its last question, or fills the cache. -/
def Point.IsPastAsking : Point → Prop
  | .asking ask _ => ask.call.isTelling = true
  | _ => True

theorem lasting_isPastAsking : Lasting Point.IsPastAsking := by
  intro w w' ctx spans p p' h past
  cases h with
  | asksOn => exact past
  | resumes visit resumed =>
    cases resumed with
    | asks calm quiet next =>
      -- nothing is asked after the cache was filled
      cases Service.follows_of_resume next <;> cases past
    | finishes => trivial
    | spawns => trivial
    | announces => trivial
    | settles => trivial
  | _ => trivial

namespace Scene

variable {s₀ s : Scene} {a : Act} {party : Party} {call : PortCall}

/-- Who tells the cache or the event bus something has asked its last question. -/
theorem isPastAsking_of_effect {key : Nat} (h : s.effect? a = some (.request key, call))
    (telling : call.isTelling = true) :
    ∃ t ∈ s.threads, t.key = key ∧ t.point.isFinished = false ∧ t.point.IsPastAsking := by
  generalize hparty : Party.request key = party at h
  cases takesEffect h with
  | @look t side _ find effect =>
    obtain rfl := Party.request.inj hparty
    refine ⟨t, List.mem_of_find?_eq_some find, rfl, ?_⟩
    generalize t.point = p at effect
    cases effect with
    | asking => exact ⟨rfl, telling⟩
    | cache => exact ⟨rfl, trivial⟩
    | bus => exact ⟨rfl, trivial⟩
  | turn => cases hparty

/-! ## An atomic store -/

/-- A call of the store that has an effect replies in the moment of its effect, and one that fails
has none. -/
def StoreIsAtomic (s _s' : Scene) : Prop :=
  ∀ f ∈ s.world.faults, f.1.isStore = true → f.2.isPrompt = true

instance (s s' : Scene) : Decidable (s.StoreIsAtomic s') :=
  inferInstanceAs (Decidable (∀ f ∈ s.world.faults, f.1.isStore = true → f.2.isPrompt = true))

end Scene

/-- A call of the store that is waited for has had no effect yet. -/
def Point.IsAtomic : Point → Prop
  | .asking ask g => ask.call.port.isStore = true → ∀ g₀ ∈ g, g₀.IsPrompt
  | _ => True

namespace World

variable {w w' : World} {ctx : Context} {spans : List Span} {p p' : Point}

theorem Strode.isAtomic (h : Strode w ctx spans p w' (some p'))
    (atomic : ∀ f ∈ w.faults, f.1.isStore = true → f.2.isPrompt = true) (before : p.IsAtomic) :
    p'.IsAtomic := by
  cases h with
  | @asksOn ask g _ g' visit =>
    rintro hstore _ ⟨⟩
    have hport : w.IsPromptAt ask.call.port := fun f hf hsame => atomic f hf (hsame ▸ hstore)
    cases visited_promptly hport (before hstore) visit with
    | waits calm prompt => exact prompt
  | resumes visit resumed =>
    cases resumed with
    | asks => exact fun _ _ hnone => by cases hnone
    | finishes => trivial
    | spawns => trivial
    | announces => trivial
    | settles => trivial
  | _ => trivial

end World

namespace Scene

variable {s₀ s s' : Scene} {acts : List Act}

theorem Step.isAtomic (step : Step s s') (atomic : s.StoreIsAtomic s')
    (h : ∀ t ∈ s.threads, t.point.IsAtomic) : ∀ t ∈ s'.threads, t.point.IsAtomic := by
  intro u hu
  cases step with
  | start ctx request =>
    rcases List.mem_append.mp hu with hold | hnew
    · exact h u hold
    · obtain rfl := List.mem_singleton.mp hnew
      rcases (s.world.openCall_spec ctx request).2 with ⟨ask, -, hask⟩ | ⟨outcome, -, hfinished⟩
      · rw [Thread.point, hask]
        exact fun _ _ hnone => by cases hnone
      · rw [Thread.point, hfinished]
        trivial
  | @stride t w p side mem eq =>
    rcases mem_put hu with rfl | ⟨hold, -⟩
    · exact (World.strode eq).isAtomic atomic (h t mem)
    · exact h u hold
  | breakDown => exact h u (List.mem_filter.mp hu).1
  | leave => exact h u (List.mem_filter.mp hu).1
  | turn => exact h u hu
  | elapse => exact h u hu

theorem Reaches.isAtomic (fresh : s₀.IsFresh) (run : Reaches StoreIsAtomic s₀ s) :
    ∀ t ∈ s.threads, t.point.IsAtomic :=
  run.induct (by simp [fresh.threads]) fun s a h atomic => (s.step_act a).isAtomic atomic h

/-- Only requests call the store, and they wait for the reply. -/
theorem asking_of_effect {a : Act} {party : Party} {call : PortCall}
    (h : s.effect? a = some (party, call)) (store : call.port.isStore = true) :
    ∃ t ∈ s.threads, ∃ side ask g, s.threads.find? (·.key = t.key) = some t ∧
      a = .look t.key side ∧ party = .request t.key ∧ t.point = .asking ask g ∧ ask.call = call ∧
      s.world.acts t.call.ctx g = true := by
  have hnotStore {other : PortCall} (htelling : other.isTelling = true) :
      other.port.isStore = false := by
    cases other with
    | writeCache write => cases write <;> rfl
    | publish event => cases event <;> rfl
    | _ => cases htelling
  cases takesEffect h with
  | @look t side _ find effect =>
    generalize hpoint : t.point = p at effect
    cases effect with
    | @asking _ ask g acts =>
      exact ⟨t, List.mem_of_find?_eq_some find, side, ask, g, find, rfl, rfl, hpoint, rfl, acts⟩
    | cache => cases (hnotStore rfl).symm.trans store
    | bus => cases (hnotStore rfl).symm.trans store
  | turn => cases (hnotStore rfl).symm.trans store

/-- What an atomic store says is what the request goes on with in the same act. -/
theorem answered_of_effect {a : Act} {party : Party} {call : PortCall}
    (h : s.effect? a = some (party, call)) (store : call.port.isStore = true)
    (atomic : s.StoreIsAtomic (s.act a)) (before : ∀ t ∈ s.threads, t.point.IsAtomic) :
    ∃ t ∈ s.threads, ∃ ask g, party = .request t.key ∧ t.point = .asking ask g ∧ ask.call = call ∧
      ∀ reply, (s.world.servedNow ask.call).reply = some reply →
        ∃ w : World,
          t.goTo (w.reach (s.world.service.resume ask reply).2).2 ∈ (s.act a).threads := by
  obtain ⟨t, mem, side, ask, g, hfind, rfl, hparty, hpoint, hcall, hacts⟩ :=
    asking_of_effect h store
  refine ⟨t, mem, ask, g, hparty, hpoint, hcall, fun reply hserved => ?_⟩
  have hprompt := before t mem
  rw [hpoint] at hprompt
  have hstore : ask.call.port.isStore = true := hcall ▸ store
  have hport : s.world.IsPromptAt ask.call.port := fun f hf hsame => atomic f hf (hsame ▸ hstore)
  have hfault := World.isPrompt_faultOf hport (hprompt hstore)
  rcases hvisit : s.world.visit none t.call.ctx t.call.spans g with ⟨w, poll⟩
  have hready : poll = .ready reply := by
    cases World.visited hvisit with
    | waits calm still => cases hacts.symm.trans still
    | fails calm still => cases hacts.symm.trans still
    | awaits calm still => cases hacts.symm.trans still
    | replies calm still => cases hacts.symm.trans still
    | breaks calm acted broken => cases broken.symm.trans hserved
    | answers alike acted fresh backend served decided ready =>
      obtain rfl := Option.some.inj (served.symm.trans hserved)
      have hfaultActs : (s.world.faultOf g).acts = true := by
        simp only [World.acts, Bool.and_eq_true] at hacts
        exact hacts.2
      rw [ready (Fault.delayAfter_of_isPrompt hfault), Fault.cover_of_isPrompt hfault hfaultActs]
  subst hready
  have hservice : w.service = s.world.service := (World.visited hvisit).alike.service
  have hstride := World.stride_of_ready side hvisit
  rw [hservice, ← hpoint] at hstride
  refine ⟨w.noteAll t.call.ctx t.call.spans (s.world.service.resume ask reply).1, ?_⟩
  simp only [act, hfind, hstride]
  exact mem_put_self mem rfl

end Scene

end Simulation

end CacheAside
