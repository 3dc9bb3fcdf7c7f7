import CacheAside.Proofs.Interleaving.Stride

/-!
# Where records come from

Every record in the cache, in the journal or with a refresh was in the store before, and every
record in the store was put there by a request.  So there is no record anywhere that is not the
outcome of a change that the store has made (`Scene.Reaches.vouched`), whatever faults the calls of
the ports meet and however long their replies are under way.
-/

namespace CacheAside

/-- The record that a call brings to a port that keeps it. -/
def PortCall.brings? : PortCall → Option Record
  | .writeCache (.keep r) => some r
  | .publish event => event.record?
  | _ => none

@[simp] theorem DomainEvent.brings?_cacheWrite (change : DomainEvent) :
    (PortCall.writeCache change.cacheWrite).brings? = change.record? := by
  cases change <;> rfl

/-- The record with which a request goes on after a reply. -/
def Ask.yields? : (ask : Ask) → ask.call.Reply → Option Record
  | .fetching _, .ok r => some r
  | .inserting _, .ok r => some r
  | .replacing _, .ok r => some r
  | _, _ => none

@[simp] theorem Ask.yields?_error {ask : Ask} (e : ask.call.Failure) :
    ask.yields? (.error e) = none := by
  cases ask <;> rfl

/-- A request goes on with the record that a change has left. -/
theorem Ask.yields?_of_change? {ask : Ask} {reply : ask.call.Reply} {change : DomainEvent}
    (h : ask.call.change? reply = some change) : ask.yields? reply = change.record? := by
  cases ask with
  | inserting candidate =>
    cases reply with
    | ok r => cases h; rfl
    | error e => cases h
  | replacing merged =>
    cases reply with
    | ok r => cases h; rfl
    | error e => cases h
  | removing id =>
    match reply with
    | .ok () => cases h; rfl
    | .error e => cases h
  | _ => cases h

namespace Backend

/-- Every record at the ports has the property, and the cache files each record under its own
identifier. -/
structure HoldsOnly (b : Backend) (M : Record → Prop) : Prop where
  store : ∀ id r, b.store.find id = .ok r → M r
  cache : ∀ id r, b.cache.stored? id = some r → M r ∧ r.id = id
  journal : ∀ e ∈ b.journal.events, ∀ r, e.event.record? = some r → M r

variable {b : Backend} {c : Circumstances} {M M' : Record → Prop}

theorem HoldsOnly.mono (h : b.HoldsOnly M) (more : ∀ r, M r → M' r) : b.HoldsOnly M' where
  store := fun id r hr => more r (h.store id r hr)
  cache := fun id r hr => (h.cache id r hr).imp_left (more r)
  journal := fun e he r hr => more r (h.journal e he r hr)

/-- Only a publication writes into the journal. -/
theorem journal_serve {call : PortCall} (h : ∀ event, call ≠ .publish event) :
    (b.serve c call).backend.journal = b.journal := by
  cases call with
  | insert r => simp only [serve]; split <;> rfl
  | replace r => simp only [serve]; split <;> rfl
  | remove id => simp only [serve]; split <;> rfl
  | writeCache write => exact journal_serve_write
  | publish event => exact absurd rfl (h event)
  | _ => rfl

/-- A call keeps the property if the record that it brings has it, and the one that it leaves in
the store. -/
theorem HoldsOnly.serve {call : PortCall} (h : b.HoldsOnly M)
    (brings : ∀ r, call.brings? = some r → M r)
    (made : ∀ reply change r, (b.serve c call).reply = some reply →
      call.change? reply = some change → change.record? = some r → M r) :
    (b.serve c call).backend.HoldsOnly M where
  store := fun id r hr => by
    by_cases hchange : ∃ reply change, (b.serve c call).reply = some reply ∧
        call.change? reply = some change
    · obtain ⟨reply, change, hreply, hchange⟩ := hchange
      rw [find_serve hreply hchange] at hr
      split at hr
      · exact made reply change r hreply hchange (DomainEvent.found_eq_ok.mp hr)
      · exact h.store id r hr
    · -- without a change the store is what it was
      refine h.store id r ?_
      rw [← hr, store_serve fun reply hreply => ?_]
      exact Option.eq_none_iff_forall_ne_some.mpr fun change hsome =>
        hchange ⟨reply, change, hreply, hsome⟩
  cache := fun id r hr => by
    have hkept (hold : b.cache.stored? id = some r ∨ (none : Option Record) = some r) :
        M r ∧ r.id = id := by
      rcases hold with hold | hnone
      · exact h.cache id r hold
      · cases hnone
    cases call with
    | writeCache write =>
      cases write with
      | keep x =>
        rcases stored?_serve_keep hr with hold | ⟨rfl, hid⟩
        · exact h.cache id r hold
        · exact ⟨brings x rfl, hid⟩
      | evict x =>
        rw [stored?_serve_write rfl] at hr
        dsimp only at hr
        split at hr
        · cases hr
        · exact h.cache id r hr
    | _ =>
      refine hkept ?_
      rw [← hr]
      exact (stored?_serve (by simp) id).imp Eq.symm Eq.symm
  journal := fun e he r hr => by
    cases call with
    | publish event =>
      simp only [Backend.serve] at he
      split at he
      · exact h.journal e he r hr
      · rcases List.mem_append.mp he with hold | hnew
        · exact h.journal e hold r hr
        · obtain rfl := List.mem_singleton.mp hnew
          exact brings r hr
    | _ =>
      rw [journal_serve (by simp)] at he
      exact h.journal e he r hr

/-- The record of a reply has the property if the records in the store have it, and the one that
the call has left there. -/
theorem HoldsOnly.of_yields? {ask : Ask} {reply : ask.call.Reply} {r : Record} (h : b.HoldsOnly M)
    (served : (b.serve c ask.call).reply = some reply)
    (made : ∀ change r, ask.call.change? reply = some change → change.record? = some r → M r)
    (yields : ask.yields? reply = some r) : M r := by
  cases ask with
  | fetching id =>
    cases reply with
    | ok x =>
      cases yields
      exact h.store id r (Option.some.inj served)
    | error e => cases yields
  | inserting candidate =>
    cases reply with
    | ok x => exact made _ r rfl yields
    | error e => cases yields
  | replacing merged =>
    cases reply with
    | ok x => exact made _ r rfl yields
    | error e => cases yields
  | _ => cases yields

end Backend

namespace Simulation

/-- A fault leaves a reply as it is or makes a failure of it. -/
theorem Fault.cover_eq (f : Fault) {call : PortCall} (reply : call.Reply) :
    f.cover reply = reply ∨ ∃ e, f.cover reply = .error e := by
  unfold cover
  split
  · exact .inr ⟨_, rfl⟩
  · exact .inl rfl

/-- The request has the record in hand: it is about to put it into the cache, it has got it from the
store, or it announces it. -/
def Point.Carries : Point → Record → Prop
  | .asking ask g, r =>
    ask = .refilling r ∨ ∃ reply, decided? g = some reply ∧ ask.yields? reply = some r
  | .settling change _, r => change.record? = some r
  | .announcing change _ _ _, r => change.record? = some r
  | .finished _, _ => False

namespace World

/-- Every record at the ports and with the refreshes has the property. -/
structure HoldsOnly (w : World) (M : Record → Prop) : Prop where
  backend : w.backend.HoldsOnly M
  refreshes : ∀ f ∈ w.refreshes, M f.record

variable {w w' : World} {ctx : Context} {spans : List Span} {M M' : Record → Prop}

theorem HoldsOnly.mono (h : w.HoldsOnly M) (more : ∀ r, M r → M' r) : w.HoldsOnly M' :=
  ⟨h.backend.mono more, fun f hf => more f.record (h.refreshes f hf)⟩

theorem HoldsOnly.of_untouched (h : w.HoldsOnly M) (calm : Untouched w w') : w'.HoldsOnly M :=
  ⟨calm.backend ▸ h.backend, calm.refreshes ▸ h.refreshes⟩

/-- A look at a call keeps the property. -/
theorem Visited.holdsOnly {call : PortCall} {g : Option (Guarded call)}
    {poll : Poll call.Reply (Guarded call)} (h : w.HoldsOnly M)
    (brings : ∀ r, call.brings? = some r → M r)
    (made : w.acts ctx g = true → ∀ reply change r, (w.servedNow call).reply = some reply →
      call.change? reply = some change → change.record? = some r → M r)
    (visited : Visited w ctx g w' poll) : w'.HoldsOnly M := by
  cases visited with
  | waits calm => exact h.of_untouched calm
  | fails calm => exact h.of_untouched calm
  | awaits calm => exact h.of_untouched calm
  | replies calm => exact h.of_untouched calm
  | breaks calm => exact h.of_untouched calm
  | answers alike acted fresh backend =>
    refine ⟨?_, alike.refreshes ▸ h.refreshes⟩
    rw [backend]
    exact h.backend.serve brings (made acted)

/-- A reply that has been decided yields only records with the property. -/
theorem Visited.yields {ask : Ask} {g : Option (Guarded ask.call)}
    {poll : Poll ask.call.Reply (Guarded ask.call)} (h : w.HoldsOnly M)
    (carried : ∀ r, (Point.asking ask g).Carries r → M r)
    (made : ∀ change r, w.change? ctx (.asking ask g) = some change → change.record? = some r → M r)
    (visited : Visited w ctx g w' poll) {reply : ask.call.Reply}
    (decided : poll.decided? = some reply) {r : Record}
    (yields : ask.yields? reply = some r) : M r := by
  cases visited with
  | @waits g' _ calm still before =>
    simp [Poll.decided?, before, Flight.decided?] at decided
  | fails calm still failed =>
    cases failed.symm.trans decided
    rw [Ask.yields?_error] at yields
    cases yields
  | awaits calm still known =>
    cases decided
    exact carried r (.inr ⟨reply, by rw [known]; rfl, yields⟩)
  | replies calm still known =>
    cases decided
    exact carried r (.inr ⟨reply, by rw [known]; rfl, yields⟩)
  | breaks => cases decided
  | @answers _ served alike acted fresh backend hserved covered =>
    -- a fault can hide what a call has done, but puts no record into the reply
    obtain rfl := Option.some.inj (covered.symm.trans decided)
    rcases (w.faultOf g).cover_eq served with heq | ⟨e, heq⟩
    · rw [heq] at yields
      refine h.backend.of_yields? hserved (fun change x hchange hx => made change x ?_ hx) yields
      simp [change?, acted, hserved, hchange]
    · rw [heq, Ask.yields?_error] at yields
      cases yields

theorem Settled.holdsOnly {tickets left : List Ticket} (h : w.HoldsOnly M)
    (settled : Settled w w' tickets left) : w'.HoldsOnly M := by
  refine ⟨settled.backend ▸ h.backend, fun f' hf' => ?_⟩
  obtain ⟨f, hf, rfl | ⟨-, rfl⟩⟩ := settled.refreshes f' hf'
  · exact h.refreshes f' hf
  · exact h.refreshes f hf

/-- A request that goes on after a reply has only such records in hand, and gives only such records
to a refresh. -/
theorem Resumed.holdsOnly {ask : Ask} {reply : ask.call.Reply} {p : Point} (h : w.HoldsOnly M)
    (yields : ∀ r, ask.yields? reply = some r → M r) (resumed : Resumed w ctx ask reply w' p) :
    w'.HoldsOnly M ∧ ∀ r, p.Carries r → M r := by
  cases resumed with
  | @asks _ ask' _ _ calm quiet next =>
    refine ⟨h.of_untouched calm, fun r hr => ?_⟩
    rcases hr with rfl | ⟨reply', hdecided, -⟩
    · cases Service.follows_of_resume next with
      | refills inlined => exact yields r rfl
    · cases hdecided
  | finishes calm => exact ⟨h.of_untouched calm, fun r hr => hr.elim⟩
  | spawns spans background coeval backend tracker refreshes =>
    refine ⟨⟨backend ▸ h.backend, fun f hf => ?_⟩, fun r hr => hr.elim⟩
    rw [refreshes] at hf
    rcases List.mem_append.mp hf with hold | hnew
    · exact h.refreshes f hold
    · obtain rfl := List.mem_singleton.mp hnew
      exact yields _ rfl
  | announces => exact ⟨h, fun r hr => yields r hr⟩
  | settles made later =>
    exact ⟨⟨h.backend, h.refreshes⟩, fun r hr => yields r ((Ask.yields?_of_change? made).trans hr)⟩

/-- A look at the call of a question keeps the property. -/
theorem Visited.asked {ask : Ask} {g : Option (Guarded ask.call)}
    {poll : Poll ask.call.Reply (Guarded ask.call)} (h : w.HoldsOnly M)
    (carried : ∀ r, (Point.asking ask g).Carries r → M r)
    (made : ∀ change r, w.change? ctx (.asking ask g) = some change → change.record? = some r → M r)
    (visited : Visited w ctx g w' poll) : w'.HoldsOnly M := by
  refine visited.holdsOnly h (fun r hr => carried r (.inl ?_))
    fun acted reply change r hserved hchange hr => ?_
  · cases ask with
    | refilling x =>
      cases hr
      rfl
    | _ => cases hr
  · refine made change r ?_ hr
    simp [change?, acted, hserved, hchange]

/-- A stride of a request keeps the property, if the record that it leaves in the store has it. -/
theorem Strode.holdsOnly {p : Point} {p' : Option Point} (h : w.HoldsOnly M)
    (carried : ∀ r, p.Carries r → M r)
    (made : ∀ change r, w.change? ctx p = some change → change.record? = some r → M r)
    (strode : Strode w ctx spans p w' p') : w'.HoldsOnly M ∧ ∀ q ∈ p', ∀ r, q.Carries r → M r := by
  -- the side that is looked at while a change is announced gets no record but that of the change
  have htold {change : DomainEvent} {call : PortCall} {g : Option (Guarded call)} {w₁ : World}
      {poll : Poll call.Reply (Guarded call)} (hbrings : call.brings? = change.record?)
      (hquiet : ∀ reply, call.change? reply = none) (hchange : ∀ r, change.record? = some r → M r)
      (visited : Visited w ctx g w₁ poll) : w₁.HoldsOnly M := by
    refine visited.holdsOnly h (fun r hr => hchange r (hbrings ▸ hr)) fun _ reply c r _ hmade => ?_
    rw [hquiet] at hmade
    cases hmade
  cases strode with
  | @asksOn ask g _ g' visit =>
    have visited := visited visit
    refine ⟨visited.asked h carried made, ?_⟩
    rintro _ ⟨⟩ r (rfl | ⟨reply, hdecided, hyields⟩)
    · exact carried r (.inl rfl)
    · exact visited.yields h carried made hdecided hyields
  | askBreaks visit => exact ⟨(visited visit).asked h carried made, by simp⟩
  | resumes visit resumed =>
    have visited := visited visit
    have hresumed := resumed.holdsOnly (visited.asked h carried made)
      fun r hr => visited.yields h carried made rfl hr
    refine ⟨hresumed.1, ?_⟩
    rintro _ ⟨⟩
    exact hresumed.2
  | settlesOn settled =>
    refine ⟨settled.holdsOnly h, ?_⟩
    rintro _ ⟨⟩
    exact carried
  | settled settled =>
    refine ⟨settled.holdsOnly h, ?_⟩
    rintro _ ⟨⟩
    exact carried
  | cacheWaits visit =>
    refine ⟨htold (by simp) (fun _ => rfl) carried (visited visit), ?_⟩
    rintro _ ⟨⟩
    exact carried
  | @cacheTold change _ _ _ w₁ reply visit =>
    have calm := w₁.noteAll_quiet ctx spans (change.quiet_cacheNotes reply)
    have htold := htold (by simp) (fun _ => rfl) carried (visited visit)
    refine ⟨htold.of_untouched calm, ?_⟩
    rintro _ ⟨⟩
    exact carried
  | cacheBreaks visit => exact ⟨htold (by simp) (fun _ => rfl) carried (visited visit), by simp⟩
  | busWaits visit =>
    refine ⟨htold rfl (fun _ => rfl) carried (visited visit), ?_⟩
    rintro _ ⟨⟩
    exact carried
  | busTold visit =>
    refine ⟨htold rfl (fun _ => rfl) carried (visited visit), ?_⟩
    rintro _ ⟨⟩
    exact carried
  | busBreaks visit => exact ⟨htold rfl (fun _ => rfl) carried (visited visit), by simp⟩
  | skips =>
    refine ⟨h, ?_⟩
    rintro _ ⟨⟩
    exact carried
  | @concludes change _ written published =>
    have calm := w.noteAll_quiet ctx spans (change.quiet_conclude written published)
    refine ⟨h.of_untouched calm, ?_⟩
    rintro _ ⟨⟩ r ⟨⟩
  | rests =>
    refine ⟨h, ?_⟩
    rintro _ ⟨⟩ r ⟨⟩

/-- A turn of a refresh keeps the property. -/
theorem Turned.holdsOnly {f : Refresh} (h : w.HoldsOnly M) (mem : f ∈ w.refreshes)
    (turned : Turned w f w') : w'.HoldsOnly M := by
  have hvisited {w₁ : World} {poll}
      (visit : w.visit (some f.ticket) f.ctx f.spans f.call = (w₁, poll)) : w₁.HoldsOnly M := by
    refine (visited visit).holdsOnly h (fun r hr => ?_) fun _ reply change r _ hmade => ?_
    · cases hr
      exact h.refreshes f mem
    · cases hmade
  have hended {w₁ : World} (h₁ : w₁.HoldsOnly M) (ended : Ended w₁ w' f.ticket) : w'.HoldsOnly M :=
    ⟨ended.backend ▸ h₁.backend,
      fun r hr => h₁.refreshes r (List.mem_filter.mp (ended.refreshes ▸ hr)).1⟩
  cases turned with
  | calledOff aborted ended => exact hended h ended
  | @waits w₁ g live visit =>
    have h₁ := hvisited visit
    refine ⟨h₁.backend, fun r hr => ?_⟩
    obtain ⟨r₀, hr₀, rfl⟩ := List.mem_map.mp hr
    split
    · exact h.refreshes f mem
    · exact h₁.refreshes r₀ hr₀
  | ends live visit ended => exact hended (hvisited visit) ended
  | breaks live visit ended => exact hended (hvisited visit) ended

end World

namespace Scene

/-- Some change of the store has left the record there. -/
def Made (s : Scene) (r : Record) : Prop :=
  ∃ change ∈ s.changes, change.record? = some r

theorem Made.append {s : Scene} {r : Record} (h : s.Made r) {w : World} {threads : List Thread}
    {more : List DomainEvent} {spawned : List (Ticket × Nat)} :
    Made { s with world := w, threads, changes := s.changes ++ more, spawned } r := by
  obtain ⟨change, hchange, hr⟩ := h
  exact ⟨change, List.mem_append_left _ hchange, hr⟩

/-- Whatever is held anywhere has been in the store. -/
structure Vouched (s : Scene) : Prop where
  world : s.world.HoldsOnly s.Made
  carried : ∀ t ∈ s.threads, ∀ r, t.point.Carries r → s.Made r

theorem Vouched.step {s s' : Scene} (h : s.Vouched) (step : Step s s') : s'.Vouched := by
  -- the records that the store has made up to now, this step included
  have hstrode {t : Thread} {w : World} {side : Side} {p : Option Point} {threads : List Thread}
      {spawned : List (Ticket × Nat)} (mem : t ∈ s.threads)
      (eq : s.world.stride t.call.ctx t.call.spans side t.point = (w, p)) :
      let s' : Scene := { s with
        world := w
        threads
        changes := s.changes ++ (s.world.change? t.call.ctx t.point).toList
        spawned }
      w.HoldsOnly s'.Made ∧ ∀ q ∈ p, ∀ r, q.Carries r → s'.Made r := by
    refine (World.strode eq).holdsOnly (h.world.mono fun r hr => hr.append)
      (fun r hr => (h.carried t mem r hr).append) fun change r hchange hr => ?_
    exact ⟨change, List.mem_append_right _ (by simp [hchange]), hr⟩
  cases step with
  | start ctx request =>
    obtain ⟨hworld, hpoint⟩ := s.world.openCall_spec ctx request
    refine ⟨?_, fun t ht r hr => ?_⟩
    · rw [hworld]
      exact h.world
    · rcases List.mem_append.mp ht with hold | hnew
      · exact h.carried t hold r hr
      · obtain rfl := List.mem_singleton.mp hnew
        rcases hpoint with ⟨ask, hbegin, hask⟩ | ⟨outcome, -, hfinished⟩
        · rw [Thread.point, hask] at hr
          rcases hr with rfl | ⟨reply, hdecided, -⟩
          · cases Service.begin_spec hbegin
          · cases hdecided
        · rw [Thread.point, hfinished] at hr
          exact hr.elim
  | stride side mem eq =>
    obtain ⟨hworld, hcarried⟩ := hstrode mem eq
    refine ⟨hworld, fun u hu r hr => ?_⟩
    rcases mem_put hu with rfl | ⟨hu, -⟩
    · exact hcarried _ rfl r hr
    · exact (h.carried u hu r hr).append
  | breakDown side mem eq =>
    obtain ⟨hworld, -⟩ := hstrode mem eq
    refine ⟨hworld, fun u hu r hr => ?_⟩
    exact (h.carried u (List.mem_filter.mp hu).1 r hr).append
  | leave mem => exact ⟨h.world, fun u hu => h.carried u (List.mem_filter.mp hu).1⟩
  | turn mem => exact ⟨(s.world.turn_spec _).holdsOnly h.world mem, h.carried⟩
  | elapse elapsed =>
    exact ⟨⟨elapsed.backend ▸ h.world.backend, elapsed.refreshes ▸ h.world.refreshes⟩, h.carried⟩

/-- Nothing is in an empty backend, so whatever is held later has been in the store. -/
theorem Reaches.vouched {allowed : Scene → Scene → Prop} {s₀ s : Scene} (fresh : s₀.IsFresh)
    (empty : s₀.world.backend = {}) (run : Reaches allowed s₀ s) : s.Vouched := by
  have hbackend : ({} : Backend).HoldsOnly s₀.Made := by
    refine ⟨fun id r hr => ?_, fun id r hr => ?_, fun e he => ?_⟩
    · cases hr
    · cases hr
    · cases he
  exact run.induct ⟨⟨empty ▸ hbackend, by simp [fresh.refreshes]⟩, by simp [fresh.threads]⟩
    fun s a h _ => h.step (s.step_act a)

end Scene

end Simulation

end CacheAside
