import CacheAside.Proofs.Mishaps
import CacheAside.Proofs.Staleness

/-!
# What a blind cache has no say in

A cache that never finds a record is blind.  It may still answer in any way that it likes: a look-up
misses or fails, a write is done or fails, and what it does next may depend on all that it was asked
before.  Whatever it answers, and whenever the service fills it, the results of all requests, the
store, the event bus and the reports about publications are the same
(`Service.blind_caches_have_no_say`).

Two services are followed side by side, each with a cache of its own.  They may take different
stages only where a read fills the cache before it ends or afterwards; everywhere else they ask the
store and the event bus the same and get the same replies (`Service.alike_follow`).
-/

namespace CacheAside

/-! ## Blind caches -/

/-- A cache that finds no record.  What it remembers is of type `τ`. -/
structure BlindCache (τ : Type) where
  /-- A look-up misses, or fails with a message. -/
  lookUp : τ → RecordId → Option String × τ
  /-- A write for some nanoseconds is done or fails. -/
  write : τ → (ttl : Nat) → CacheWrite → Except CacheError Unit × τ

/-- What a blind cache replies to a look-up. -/
def missOr : Option String → Except CacheError (Option Record)
  | none => .ok none
  | some message => .error (.backend message)

/-- The ports `base` of a store and an event bus, together with a blind cache. -/
def BlindCache.ports {β τ : Type} (cache : BlindCache τ) (ttl : Nat) (base : Ports β) :
    Ports (β × τ) := fun state call =>
  match call with
  | .lookUp id =>
    let (failed, t) := cache.lookUp state.2 id
    (some (missOr failed), (state.1, t))
  | .writeCache write =>
    let (written, t) := cache.write state.2 ttl write
    (some written, (state.1, t))
  | call =>
    let (reply, b) := base state.1 call
    (reply, (b, state.2))

/-- A failed publication that no caller sees. -/
def Failure.isEvent : Failure → Bool
  | .cache _ _ _ _ => false
  | .event _ _ _ => true

/-- The failures of publications among some notes. -/
def lostEvents (notes : List Note) : List Failure :=
  (notes.filterMap Note.failure?).filter Failure.isEvent

@[simp] theorem lostEvents_append (notes notes' : List Note) :
    lostEvents (notes ++ notes') = lostEvents notes ++ lostEvents notes' := by
  simp [lostEvents]

/-- What can be seen of two runs over blind caches is the same: the outcome, the store and the event
bus, and the failed publications that were noted. -/
structure Run.Alike {β τ τ' : Type} (run : Run (β × τ)) (run' : Run (β × τ')) : Prop where
  outcome : run'.outcome = run.outcome
  state : run'.state.1 = run.state.1
  lost : lostEvents run'.notes = lostEvents run.notes

/-- Notes about other things than publications make no difference. -/
theorem Run.Alike.after {β τ τ' : Type} {run : Run (β × τ)} {run' : Run (β × τ')}
    (h : run.Alike run') {notes notes' : List Note} (same : lostEvents notes' = lostEvents notes) :
    (run.after notes).Alike (run'.after notes') := by
  refine ⟨h.outcome, h.state, ?_⟩
  show lostEvents (notes' ++ run'.notes) = lostEvents (notes ++ run.notes)
  rw [lostEvents_append, lostEvents_append, same, h.lost]

/-! ## What the replies of a cache change -/

section Replies

variable (s : Service)

/-- Whatever a blind cache replies to a look-up, the service goes to the store. -/
theorem resume_missOr (id : RecordId) (failed : Option String) :
    (s.resume (.lookingUp id) (missOr failed)).2 = .asking (.fetching id) ∧
      lostEvents (s.resume (.lookingUp id) (missOr failed)).1 = [] := by
  cases failed with
  | none => exact ⟨rfl, rfl⟩
  | some message => exact ⟨rfl, rfl⟩

/-- Whatever it replies to a fill, the read is answered. -/
theorem resume_refilling (r : Record) (written : Except CacheError Unit) :
    (s.resume (.refilling r) written).2 = .finished (.ok (.record r)) ∧
      lostEvents (s.resume (.refilling r) written).1 = [] := by
  refine ⟨rfl, ?_⟩
  cases written <;> rfl

/-- Two services with the same rules go on in the same way, unless a read has come back from the
store: then one may fill the cache at once, and the other later. -/
theorem resume_of_limits {s s' : Service} (limits : s'.limits = s.limits) {q : Ask}
    (other : ∀ id, q ≠ .fetching id) (reply : q.call.Reply) :
    s'.resume q reply = s.resume q reply := by
  cases q with
  | fetching id => exact absurd rfl (other id)
  | loading id merger =>
    cases reply with
    | ok stored => simp only [Service.resume, Service.merged, Service.accept, limits]
    | error e => rfl
  | lookingUp id => rcases reply with (message | cause) | (_ | r) <;> rfl
  | removing id => rcases reply with e | ⟨⟩ <;> rfl
  | listing page => cases reply <;> rfl
  | refilling r => rfl
  | inserting candidate => cases reply <;> rfl
  | replacing new => cases reply <;> rfl

/-- The cache's reply to a change decides nothing but what is noted of the cache. -/
theorem conclude_of_written (change : DomainEvent) (written written' : Except CacheError Unit)
    (published : Except EventError Unit) :
    (change.conclude written' published).2 = (change.conclude written published).2 ∧
      lostEvents (change.cacheNotes written' ++ (change.conclude written' published).1) =
        lostEvents (change.cacheNotes written ++ (change.conclude written published).1) := by
  cases change <;> cases written <;> cases written' <;> cases published <;> exact ⟨rfl, rfl⟩

end Replies

/-! ## Two services side by side -/

namespace BlindCache

variable {β τ : Type} (cache : BlindCache τ) (ttl : Nat) (base : Ports β) (b : β) (t : τ)

/-- The store and the event bus do not notice the cache. -/
theorem ports_uncached {call : PortCall} (h : call.isUncached = true) :
    cache.ports ttl base (b, t) call = ((base b call).1, ((base b call).2, t)) := by
  cases call with
  | lookUp id => cases h
  | writeCache write => cases h
  | _ => rfl

/-- A look-up misses or fails, and leaves the store and the event bus alone. -/
theorem ports_lookUp (id : RecordId) :
    ∃ failed t', cache.ports ttl base (b, t) (.lookUp id) = (some (missOr failed), (b, t')) :=
  ⟨_, _, rfl⟩

/-- A write to the cache is answered, and leaves the store and the event bus alone. -/
theorem ports_write (write : CacheWrite) :
    ∃ written t', cache.ports ttl base (b, t) (.writeCache write) = (some written, (b, t')) :=
  ⟨_, _, rfl⟩

/-- The cache answers every call. -/
theorem isUncached_of_broken {call : PortCall} {state : β × τ}
    (broken : cache.ports ttl base (b, t) call = (none, state)) : call.isUncached = true := by
  cases call with
  | lookUp id => cases congrArg Prod.fst broken
  | writeCache write => cases congrArg Prod.fst broken
  | _ => rfl

end BlindCache

namespace Service

variable {β τ τ' : Type} {base : Ports β} {s s' : Service} {cache : BlindCache τ}
  {cache' : BlindCache τ'} {ttl ttl' : Nat}

/-- A change is announced in the same way. -/
theorem alike_announce (change : DomainEvent) (b : β) (t : τ) (t' : τ') :
    (announce (cache.ports ttl base) (b, t) change).Alike
      (announce (cache'.ports ttl' base) (b, t') change) := by
  obtain ⟨written, t₁, hwrite⟩ := cache.ports_write ttl base b t change.cacheWrite
  obtain ⟨written', t₁', hwrite'⟩ := cache'.ports_write ttl' base b t' change.cacheWrite
  have hpublish := cache.ports_uncached ttl base b t₁
    (rfl : (PortCall.publish change).isUncached = true)
  have hpublish' := cache'.ports_uncached ttl' base b t₁'
    (rfl : (PortCall.publish change).isUncached = true)
  simp only [announce, hwrite, hwrite', hpublish, hpublish']
  cases (base b (.publish change)).1 with
  | none =>
    refine ⟨rfl, rfl, ?_⟩
    cases change <;> cases written <;> cases written' <;> rfl
  | some published =>
    obtain ⟨houtcome, hlost⟩ := conclude_of_written change written written' published
    exact ⟨congrArg some houtcome, rfl, hlost⟩

/-- When a read has come back from the store with a record, it returns it, whether the cache is to
be filled at once or later. -/
theorem follow_refill (s : Service) (cache : BlindCache τ) (ttl : Nat) (base : Ports β) (b : β)
    (t : τ) (r : Record) :
    let run := (s.follow (cache.ports ttl base) (b, t) (s.refill r).2).after (s.refill r).1
    run.outcome = some (.ok (.record r)) ∧ run.state.1 = b ∧ lostEvents run.notes = [] := by
  intro run
  cases hmode : s.config.cacheRefresh with
  | background =>
    have hrun : run = (Run.mk (some (.ok (.record r))) [] (b, t)).after [.refresh r] := by
      show (s.follow _ _ (s.refill r).2).after (s.refill r).1 = _
      rw [refill, hmode]
      exact congrArg (Run.after _) (follow_finished _ _ _)
    rw [hrun]
    exact ⟨rfl, rfl, rfl⟩
  | inlined =>
    obtain ⟨written, t₁, hwrite⟩ := cache.ports_write ttl base b t (.keep r)
    have hrun : run = (Run.mk (some (.ok (.record r))) [] (b, t₁)).after
        (refillNotes r written) := by
      show (s.follow _ _ (s.refill r).2).after (s.refill r).1 = _
      rw [refill, hmode]
      show (s.follow _ _ (.asking (.refilling r))).after [] = _
      rw [follow_asking (q := .refilling r) hwrite]
      exact congrArg (Run.after _) (follow_finished _ _ _)
    rw [hrun]
    refine ⟨rfl, rfl, ?_⟩
    cases written <;> rfl

/-- A call of the store or the event bus has the same reply in both runs. -/
theorem replied_alike (cache' : BlindCache τ') (ttl' : Nat) {call : PortCall}
    (uncached : call.isUncached = true) {b : β} {t : τ} {reply : Option call.Reply} {state : β × τ}
    (replied : cache.ports ttl base (b, t) call = (reply, state)) (t' : τ') :
    state = (state.1, t) ∧ cache'.ports ttl' base (b, t') call = (reply, (state.1, t')) := by
  rw [cache.ports_uncached ttl base b t uncached] at replied
  obtain ⟨rfl, rfl⟩ := Prod.mk.inj replied
  exact ⟨rfl, cache'.ports_uncached ttl' base b t' uncached⟩

/-- A read that goes to the store ends in the same way. -/
theorem alike_fetching (id : RecordId) (b : β) (t : τ) (t' : τ') :
    (s.follow (cache.ports ttl base) (b, t) (.asking (.fetching id))).Alike
      (s'.follow (cache'.ports ttl' base) (b, t') (.asking (.fetching id))) := by
  rcases hbase : base b (.find id) with ⟨reply, b₁⟩
  have hports : cache.ports ttl base (b, t) (.find id) = (reply, (b₁, t)) := by
    rw [cache.ports_uncached ttl base b t rfl, hbase]
  have hports' : cache'.ports ttl' base (b, t') (.find id) = (reply, (b₁, t')) := by
    rw [cache'.ports_uncached ttl' base b t' rfl, hbase]
  match reply with
  | none =>
    rw [follow, follow]
    simp only [Ask.call, hports, hports']
    exact ⟨rfl, rfl, rfl⟩
  | some (.error e) =>
    rw [follow_asking (q := .fetching id) hports, follow_asking (q := .fetching id) hports']
    simp only [resume, follow_finished]
    exact ⟨rfl, rfl, rfl⟩
  | some (.ok r) =>
    -- one may fill the cache before it ends, and the other later
    rw [follow_asking (q := .fetching id) hports, follow_asking (q := .fetching id) hports']
    obtain ⟨houtcome, hstate, hlost⟩ := s.follow_refill cache ttl base b₁ t r
    obtain ⟨houtcome', hstate', hlost'⟩ := s'.follow_refill cache' ttl' base b₁ t' r
    exact ⟨houtcome'.trans houtcome.symm, hstate'.trans hstate.symm, hlost'.trans hlost.symm⟩

/-- A read that asks its cache first goes to the store next. -/
theorem alike_lookingUp (id : RecordId) (b : β) (t : τ) (t' : τ') :
    (s.follow (cache.ports ttl base) (b, t) (.asking (.lookingUp id))).Alike
      (s'.follow (cache'.ports ttl' base) (b, t') (.asking (.lookingUp id))) := by
  obtain ⟨failed, t₁, hports⟩ := cache.ports_lookUp ttl base b t id
  obtain ⟨failed', t₁', hports'⟩ := cache'.ports_lookUp ttl' base b t' id
  obtain ⟨hnext, hlost⟩ := resume_missOr s id failed
  obtain ⟨hnext', hlost'⟩ := resume_missOr s' id failed'
  rw [follow_asking (q := .lookingUp id) hports, follow_asking (q := .lookingUp id) hports',
    hnext, hnext']
  apply (alike_fetching id b t₁ t₁').after
  exact hlost'.trans hlost.symm

/-- A read that has filled its cache is answered. -/
theorem alike_refilling (r : Record) (b : β) (t : τ) (t' : τ') :
    (s.follow (cache.ports ttl base) (b, t) (.asking (.refilling r))).Alike
      (s'.follow (cache'.ports ttl' base) (b, t') (.asking (.refilling r))) := by
  obtain ⟨written, t₁, hports⟩ := cache.ports_write ttl base b t (.keep r)
  obtain ⟨written', t₁', hports'⟩ := cache'.ports_write ttl' base b t' (.keep r)
  obtain ⟨hnext, hlost⟩ := resume_refilling s r written
  obtain ⟨hnext', hlost'⟩ := resume_refilling s' r written'
  rw [follow_asking (q := .refilling r) hports, follow_asking (q := .refilling r) hports',
    hnext, hnext', follow_finished, follow_finished]
  have hsame : Run.Alike (Run.mk (some (.ok (.record r))) [] (b, t₁))
      (Run.mk (some (.ok (.record r))) [] (b, t₁')) := ⟨rfl, rfl, rfl⟩
  exact hsame.after (hlost'.trans hlost.symm)

/-- Any other question is asked of the store, and both services go on with the same reply. -/
theorem alike_asking (limits : s'.limits = s.limits) {q : Ask} (uncached : q.call.isUncached = true)
    (other : ∀ id, q ≠ .fetching id) {state state₁ : β × τ} {reply : q.call.Reply}
    (replied : cache.ports ttl base state q.call = (some reply, state₁))
    (next : ∀ t', (s.follow (cache.ports ttl base) state₁ (s.resume q reply).2).Alike
      (s'.follow (cache'.ports ttl' base) (state₁.1, t') (s.resume q reply).2)) (t' : τ') :
    (s.follow (cache.ports ttl base) state (.asking q)).Alike
      (s'.follow (cache'.ports ttl' base) (state.1, t') (.asking q)) := by
  obtain ⟨-, hports'⟩ := replied_alike cache' ttl' uncached replied t'
  rw [follow_asking replied, follow_asking hports', resume_of_limits limits other reply]
  exact (next t').after rfl

/-- Two services with the same rules, over any blind caches, follow a request to the same end. -/
theorem alike_follow (limits : s'.limits = s.limits) (state : β × τ) (stage : Stage) (t' : τ') :
    (s.follow (cache.ports ttl base) state stage).Alike
      (s'.follow (cache'.ports ttl' base) (state.1, t') stage) := by
  -- the induction follows the first service from stage to stage
  induction state, stage using follow.induct s (cache.ports ttl base) generalizing t' with
  | case1 state q state₁ broken =>
    have huncached := cache.isUncached_of_broken ttl base state.1 state.2 broken
    obtain ⟨-, hports'⟩ := replied_alike cache' ttl' huncached broken t'
    rw [follow, follow]
    simp only [broken, hports']
    exact ⟨rfl, rfl, rfl⟩
  | case2 state q reply state₁ replied closer ih =>
    cases q with
    | lookingUp id => exact alike_lookingUp id state.1 state.2 t'
    | fetching id => exact alike_fetching id state.1 state.2 t'
    | refilling r => exact alike_refilling r state.1 state.2 t'
    | listing page => exact alike_asking limits rfl (by simp) replied ih t'
    | inserting candidate => exact alike_asking limits rfl (by simp) replied ih t'
    | loading id merger => exact alike_asking limits rfl (by simp) replied ih t'
    | replacing new => exact alike_asking limits rfl (by simp) replied ih t'
    | removing id => exact alike_asking limits rfl (by simp) replied ih t'
  | case3 state change =>
    rw [follow, follow]
    exact alike_announce change state.1 state.2 t'
  | case4 state change =>
    rw [follow, follow]
    exact alike_announce change state.1 state.2 t'
  | case5 state outcome =>
    rw [follow_finished, follow_finished]
    exact ⟨rfl, rfl, rfl⟩

/-- Filling the cache in the background shows nowhere but in the cache. -/
theorem fillAll_blind (cache : BlindCache τ) (ttl : Nat) (base : Ports β) (run : Run (β × τ))
    (records : List Record) :
    (fillAll (cache.ports ttl base) run records).outcome = run.outcome ∧
      (fillAll (cache.ports ttl base) run records).state.1 = run.state.1 ∧
      lostEvents (fillAll (cache.ports ttl base) run records).notes = lostEvents run.notes := by
  induction records generalizing run with
  | nil => exact ⟨rfl, rfl, rfl⟩
  | cons r records ih =>
    obtain ⟨written, t, hwrite⟩ := cache.ports_write ttl base run.state.1 run.state.2 (.keep r)
    have hfill : fill (cache.ports ttl base) run.state r =
        (refillNotes r written, (run.state.1, t)) := by
      simp only [fill, hwrite]
    have hquiet : lostEvents (refillNotes r written) = [] := by
      cases written <;> rfl
    rw [fillAll_cons, hfill]
    obtain ⟨houtcome, hstate, hlost⟩ :=
      ih ⟨run.outcome, run.notes ++ refillNotes r written, (run.state.1, t)⟩
    refine ⟨houtcome, hstate, ?_⟩
    rw [hlost, lostEvents_append, hquiet, List.append_nil]

/-- Two services with the same rules, over any blind caches, run a request to the same end, whatever
their caches are filled with afterwards. -/
theorem alike_run (cache : BlindCache τ) (cache' : BlindCache τ') (ttl ttl' : Nat)
    (base : Ports β) (limits : s'.limits = s.limits) (request : Request) (b : β) (t : τ) (t' : τ')
    (due due' : List Record) :
    (fillAll (cache.ports ttl base) (s.run (cache.ports ttl base) (b, t) request) due).Alike
      (fillAll (cache'.ports ttl' base) (s'.run (cache'.ports ttl' base) (b, t') request)
        due') := by
  have hbegin : s'.begin request = s.begin request := by
    cases request with
    | create candidate => simp only [begin, accept, limits]
    | _ => rfl
  have hrun : (s.run (cache.ports ttl base) (b, t) request).Alike
      (s'.run (cache'.ports ttl' base) (b, t') request) := by
    rw [run, run, hbegin]
    exact alike_follow limits (b, t) (s.begin request) t'
  obtain ⟨houtcome, hstate, hlost⟩ :=
    fillAll_blind cache ttl base (s.run (cache.ports ttl base) (b, t) request) due
  obtain ⟨houtcome', hstate', hlost'⟩ :=
    fillAll_blind cache' ttl' base (s'.run (cache'.ports ttl' base) (b, t') request) due'
  constructor
  · rw [houtcome', hrun.outcome, houtcome]
  · rw [hstate', hrun.state, hstate]
  · rw [hlost', hrun.lost, hlost]

end Service

/-! ## One request after another -/

/-- A request, with the ports of the store and the event bus that it meets. -/
structure BlindTurn (β : Type) where
  request : Request
  base : Ports β

/-- A turn in memory, without its cache. -/
def Turn.blind (t : Turn) : BlindTurn Backend :=
  ⟨t.request, t.conditions.ports⟩

/-- Which of the refreshes under way run after a turn, and which are left for later.  The others are
called off. -/
abbrev RefreshPlan := (turn : Nat) → List Record → List Record × List Record

/-- What can be seen of a request over a blind cache: its outcome, what it has left of the store and
the event bus, and the failed publications that were noted. -/
structure Episode (β : Type) where
  outcome : Option Outcome
  state : β
  lost : List Failure

namespace Service

/-- What can be seen of some requests, one after another, the first of which is number `n`, while
some refreshes are under way. -/
def episodes {β τ : Type} (s : Service) (cache : BlindCache τ) (plan : RefreshPlan) :
    (n : Nat) → (under : List Record) → β → τ → List (BlindTurn β) → List (Episode β)
  | _, _, _, _, [] => []
  | n, under, b, t, turn :: turns =>
    let ports := cache.ports (s.config.cacheTtl * nanosPerSecond) turn.base
    let run := s.run ports (b, t) turn.request
    let (due, under) := plan n (under ++ run.refreshes)
    let run := fillAll ports run due
    ⟨run.outcome, run.state.1, lostEvents run.notes⟩ ::
      s.episodes cache plan (n + 1) under run.state.1 run.state.2 turns

/-- Ports that always answer bring every request to its end. -/
theorem answered_follow {σ : Type} (s : Service) {ports : Ports σ}
    (answers : ∀ state call, (ports state call).1.isSome = true) (state : σ) (stage : Stage) :
    (s.follow ports state stage).outcome.isSome = true := by
  have hannounce (state : σ) (change : DomainEvent) :
      (announce ports state change).outcome.isSome = true := by
    have hwritten := answers state (.writeCache change.cacheWrite)
    rcases hwrite : ports state (.writeCache change.cacheWrite) with ⟨_ | written, state₁⟩
    · rw [hwrite] at hwritten
      cases hwritten
    · have hpublished := answers state₁ (.publish change)
      rcases hpublish : ports state₁ (.publish change) with ⟨_ | published, state₂⟩
      · rw [hpublish] at hpublished
        cases hpublished
      · simp only [announce, hwrite, hpublish]
        rfl
  induction state, stage using follow.induct s ports with
  | case1 state q state₁ broken =>
    have hsome := answers state q.call
    rw [broken] at hsome
    cases hsome
  | case2 state q reply state₁ replied closer ih =>
    rw [follow_asking replied]
    exact ih
  | case3 state change =>
    rw [follow]
    exact hannounce state change
  | case4 state change =>
    rw [follow]
    exact hannounce state change
  | case5 state outcome =>
    rw [follow_finished]
    rfl

theorem answered_episodes {β τ : Type} (s : Service) (cache : BlindCache τ) (plan : RefreshPlan)
    {turns : List (BlindTurn β)} (answers : ∀ turn ∈ turns, ∀ b call, call.isUncached = true →
      (turn.base b call).1.isSome = true) (n : Nat) (under : List Record) (b : β) (t : τ) :
    ∀ e ∈ s.episodes cache plan n under b t turns, e.outcome.isSome = true := by
  induction turns generalizing n under b t with
  | nil => simp [episodes]
  | cons turn turns ih =>
    obtain ⟨hturn, hturns⟩ := List.forall_mem_cons.mp answers
    rw [episodes, List.forall_mem_cons]
    refine ⟨?_, ih hturns _ _ _ _⟩
    show (fillAll _ _ _).outcome.isSome = true
    rw [(fillAll_blind cache _ turn.base _ _).1]
    apply s.answered_follow
    intro state call
    cases huncached : call.isUncached with
    | true =>
      rw [cache.ports_uncached _ turn.base state.1 state.2 huncached]
      exact hturn state.1 call huncached
    | false =>
      cases call with
      | lookUp id => rfl
      | writeCache write => rfl
      | _ => cases huncached

/-- Two services with the same rules are given the same requests, one after another, over the same
store and the same event bus, which may also fail.  Each has a blind cache of its own, and fills it
in its own mode, at its own moments and for its own time.  Then all that can be seen of them is the
same: the outcome of each request, what it has left of the store and the event bus, and the reports
of failed publications.  If the store and the event bus answer, every request has an outcome. -/
theorem blind_caches_have_no_say {β τ τ' : Type} {s s' : Service} (limits : s'.limits = s.limits)
    (cache : BlindCache τ) (cache' : BlindCache τ') (plan plan' : RefreshPlan) (b : β) (t : τ)
    (t' : τ') (turns : List (BlindTurn β)) :
    s'.episodes cache' plan' 0 [] b t' turns = s.episodes cache plan 0 [] b t turns ∧
      ((∀ turn ∈ turns, ∀ b call, call.isUncached = true →
          (turn.base b call).1.isSome = true) →
        ∀ e ∈ s.episodes cache plan 0 [] b t turns, e.outcome.isSome = true) := by
  refine ⟨?_, fun answers => s.answered_episodes cache plan answers 0 [] b t⟩
  have hsame (n n' : Nat) (under under' : List Record) :
      s'.episodes cache' plan' n' under' b t' turns = s.episodes cache plan n under b t turns := by
    induction turns generalizing n n' under under' b t t' with
    | nil => rfl
    | cons turn turns ih =>
      simp only [episodes]
      generalize (plan n _).1 = due
      generalize (plan' n' _).1 = due'
      obtain ⟨houtcome, hstate, hlost⟩ := alike_run cache cache'
        (s.config.cacheTtl * nanosPerSecond) (s'.config.cacheTtl * nanosPerSecond) turn.base limits
        turn.request b t t' due due'
      rw [houtcome, hstate, hlost, ih]
  exact hsame 0 0 [] []

/-- A cache that never does what it is asked for; the number of calls decides how it fails. -/
def failingCache : BlindCache Nat where
  lookUp calls _ := (some "lost", calls + 1)
  write calls _ _ :=
    (.error (if calls % 2 = 0 then .backend "full" else .interrupted .cancelled), calls + 1)

/-- A cache that forgets everything at once. -/
def forgetfulCache : BlindCache Unit where
  lookUp _ _ := (none, ())
  write _ _ _ := (.ok (), ())

/-- Nothing can be published. -/
def unheard : (call : PortCall) → Option call.Failure
  | .publish _ => some (.backend "down")
  | _ => none

/-- A turn in a minute, without its cache. -/
def inBlindMinute (n : Nat) (request : Request)
    (refuses : (call : PortCall) → Option call.Failure := fun _ => none) : BlindTurn Backend :=
  (atTime (.minute n) nanosPerSecond request refuses).blind

/-- A record is created and read, updated and then deleted while nothing can be published, and read
again. -/
def unheardLife : List (BlindTurn Backend) :=
  [inBlindMinute 3 (.create draft),
    inBlindMinute 4 (.get draft.id),
    inBlindMinute 8
      (.update draft.id (SparsePatch.merger { id := draft.id, label := .present "new" })) unheard,
    inBlindMinute 9 (.delete draft.id) unheard,
    inBlindMinute 9 (.get draft.id)]

/-- A service that fills a failing cache before reads end, and one that would fill a forgetful cache
later but never comes to it. -/
theorem caches_have_no_say_in_unheardLife :
    let s : Service := {}
    let failing := inlining.episodes failingCache (fun _ under => (under, [])) 0 [] {} 0 unheardLife
    let forgetful := s.episodes forgetfulCache (fun _ under => ([], under)) 0 [] {} () unheardLife
    s.limits = inlining.limits ∧ forgetful = failing ∧
      failing.map (·.outcome) = [some (.ok (.record draft)), some (.ok (.record draft)),
        some (.error (.ofPublish .update draft.id (.backend "down"))), some (.ok .done),
        some (.error (.notFound draft.id))] ∧
      failing.map (·.lost) = [[], [], [], [.event .delete draft.id (.backend "down")], []] := by
  intro s failing forgetful
  have hlimits : s.limits = inlining.limits := rfl
  have hsame : forgetful = failing :=
    (blind_caches_have_no_say hlimits failingCache forgetfulCache (fun _ under => (under, []))
      (fun _ under => ([], under)) {} 0 () unheardLife).1
  refine ⟨hlimits, hsame, ?_, ?_⟩
  · with_unfolding_all rfl
  · with_unfolding_all rfl

end Service

end CacheAside
