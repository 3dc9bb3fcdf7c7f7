import CacheAside.Proofs.Interleaving.Deletion
import CacheAside.Proofs.Interleaving.Interruption

/-!
# Who can bring a deleted record back

When a deletion has had its record evicted, the record is in neither the store nor the cache.  It
can come back only by a request that had got it from the store before, or by a refresh that carries
it: `Point.CanKeep` and `Refresh.CanWrite` say which of them need nothing but time to put it into
the cache, and `Scene.IsForgotten` that there are none.  A scene in which the record is forgotten
stays so (`IsForgotten.step`), and the cache gets no entry of it (`IsForgotten.uncached`).
-/

namespace CacheAside.Simulation

namespace World

variable {w w₁ w' : World} {ctx : Context} {call : PortCall}

/-- Nothing but time is needed for a call that is under way, or about to start, to take effect: its
context does not interrupt it before. -/
def MayAct (w : World) (ctx : Context) : Option (Guarded call) → Prop
  | none => w.check ctx = .ok ()
  | some ⟨_, .before fault (some timer)⟩ =>
    fault.acts = true ∧ ctx.check w.isGiven (max w.now timer.due) = .ok ()
  | some _ => False

/-- Nothing but time is needed for the reply to come, which has been decided. -/
def MayGet (w : World) (ctx : Context) (g : Option (Guarded call)) (reply : call.Reply) : Prop :=
  ∃ deadline timer, g = some ⟨deadline, .after reply timer⟩ ∧
    ctx.check w.isGiven (max w.now timer.due) = .ok ()

theorem mayAct_of_acts {g : Option (Guarded call)} (h : w.acts ctx g = true) : w.MayAct ctx g := by
  have hcheck := check_of_acts h
  simp only [acts, Bool.and_eq_true] at h
  obtain ⟨⟨-, hdue⟩, hfault⟩ := h
  rcases g with _ | ⟨deadline, ⟨fault, _ | timer⟩ | ⟨reply, timer⟩⟩
  · exact hcheck
  · cases hdue
  · refine ⟨hfault, ?_⟩
    have hdue : timer.due ≤ w.now := of_decide_eq_true hdue
    rw [Nat.max_eq_left hdue]
    exact hcheck
  · cases hdue

theorem MayAct.of_later {g : Option (Guarded call)} (later : Later w w') (h : w'.MayAct ctx g) :
    w.MayAct ctx g := by
  match g with
  | none => exact check_of_later later.given later.now h
  | some ⟨_, .before fault none⟩ => exact h.elim
  | some ⟨_, .after reply timer⟩ => exact h.elim
  | some ⟨_, .before fault (some timer)⟩ =>
    have hnow := later.now
    exact ⟨h.1, check_of_later later.given (by omega) h.2⟩

theorem MayGet.of_later {g : Option (Guarded call)} {reply : call.Reply} (later : Later w w')
    (h : w'.MayGet ctx g reply) : w.MayGet ctx g reply := by
  obtain ⟨deadline, timer, hg, hcheck⟩ := h
  have hnow := later.now
  exact ⟨deadline, timer, hg, check_of_later later.given (by omega) hcheck⟩

/-- A call that may act after a look may do so before. -/
theorem MayAct.of_visit {owner : Owner} {spans : List Span} {g : Option (Guarded call)}
    {g' : Guarded call} (visit : w.visit owner ctx spans g = (w₁, .pending g'))
    (later : Later w w') (h : w'.MayAct ctx (some g')) : w.MayAct ctx g := by
  have hnot {deadline : Option Timer} {reply : call.Reply} {timer : Timer} :
      ¬ w'.MayAct ctx (some ⟨deadline, .after reply timer⟩ : Option (Guarded call)) := id
  have hdecided {reply : call.Reply} (hreply : g'.flight.decided? = some reply) : False := by
    obtain ⟨deadline, flight⟩ := g'
    cases flight with
    | before fault timer => cases hreply
    | after reply timer => exact hnot h
  cases visited visit with
  | @waits _ timer calm still before same =>
    cases g with
    | some g₀ => exact (same g₀ rfl ▸ h).of_later later
    -- a call that is only now started was not interrupted
    | none =>
      obtain ⟨deadline, flight⟩ := g'
      subst before
      cases timer with
      | none => exact h.elim
      | some timer =>
        exact check_of_later later.given (Nat.le_trans later.now (Nat.le_max_left _ _)) h.2
  | fails calm still failed => exact (hdecided failed).elim
  | awaits calm still known => exact (hdecided rfl).elim
  | answers alike acted fresh backend served decided => exact (hdecided decided).elim

/-- The request of the point does not insert a record of the identifier any more. -/
def Bars (id : RecordId) (p : Point) : Prop :=
  ∀ c g, p = .asking (.inserting c) g → c.id = id → ¬ p.MayInsert

section

variable {ask : Ask} {g : Option (Guarded ask.call)} {reply : ask.call.Reply} {r : Record}
  {id : RecordId} (missing : w.backend.store.find id = .error (.notFound id))
  (barred : Bars id (.asking ask g))

include missing barred

/-- A store without the record yields none of it. -/
theorem id_ne_of_served (acted : w.acts ctx g = true)
    (served : (w.servedNow ask.call).reply = some reply) (yields : ask.yields? reply = some r) :
    r.id ≠ id := by
  intro hid
  cases ask with
  | fetching key =>
    cases reply with
    | ok found =>
      cases yields
      have hfound : w.backend.store.find key = .ok r := Option.some.inj served
      obtain rfl : key = id := (Store.id_of_find hfound).symm.trans hid
      cases missing.symm.trans hfound
    | error e => cases yields
  | inserting c =>
    cases reply with
    | ok stored =>
      cases yields
      obtain ⟨-, hstored, -⟩ := Store.create_eq_ok (Backend.serve_insert served)
      have hown : c.id = id := by
        rw [← hid, hstored]
      exact barred c g rfl hown (fresh_of_acts acted)
    | error e => cases yields
  | replacing merged =>
    cases reply with
    | ok stored =>
      cases yields
      obtain ⟨old, hfound, hstored, -⟩ := Store.update_eq_ok (Backend.serve_replace served)
      have hown : merged.id = id := by
        rw [← hid, hstored]
      rw [hown] at hfound
      cases missing.symm.trans hfound
    | error e => cases yields
  | _ => cases yields

/-- A record of the identifier that a reply brings had been read before. -/
theorem mayGet_of_ready {owner : Owner} {spans : List Span}
    (visit : w.visit owner ctx spans g = (w₁, .ready reply)) (yields : ask.yields? reply = some r)
    (hid : r.id = id) : w.MayGet ctx g reply := by
  cases visited visit with
  | fails calm still failed =>
    cases failed
    rw [Ask.yields?_error] at yields
    cases yields
  | replies calm still known passed due =>
    refine ⟨_, _, known, ?_⟩
    rw [Nat.max_eq_left due]
    exact passed
  | @answers _ served alike acted fresh backend hserved covered =>
    obtain rfl := Option.some.inj covered
    rcases (w.faultOf g).cover_eq served with heq | ⟨e, heq⟩
    · rw [heq] at yields
      exact absurd hid (id_ne_of_served missing barred acted hserved yields)
    · rw [heq, Ask.yields?_error] at yields
      cases yields

/-- A record of the identifier that is on its way had been read before. -/
theorem MayGet.of_visit {owner : Owner} {spans : List Span} {g' : Guarded ask.call}
    (visit : w.visit owner ctx spans g = (w₁, .pending g')) (later : Later w w')
    (h : w'.MayGet ctx (some g') reply) (yields : ask.yields? reply = some r) (hid : r.id = id) :
    w.MayGet ctx g reply := by
  have hdecided : g'.flight.decided? = some reply := by
    obtain ⟨deadline, timer, hg, -⟩ := h
    cases hg
    rfl
  cases visited visit with
  | waits calm still before =>
    rw [before] at hdecided
    cases hdecided
  | fails calm still failed =>
    cases failed.symm.trans hdecided
    rw [Ask.yields?_error] at yields
    cases yields
  | awaits calm still known => exact known ▸ h.of_later later
  | @answers _ served alike acted fresh backend hserved covered =>
    obtain rfl := Option.some.inj (covered.symm.trans hdecided)
    rcases (w.faultOf g).cover_eq served with heq | ⟨e, heq⟩
    · rw [heq] at yields
      exact absurd hid (id_ne_of_served missing barred acted hserved yields)
    · rw [heq, Ask.yields?_error] at yields
      cases yields

end

end World

/-- Nothing but time is needed for the request to put a record of the identifier into the cache, or
to start a refresh that can. -/
inductive Point.CanKeep (w : World) (ctx : Context) (id : RecordId) : Point → Prop where
  | fills {r : Record} {g : Option (Guarded (Ask.refilling r).call)} (own : r.id = id)
      (may : w.MayAct ctx g) : CanKeep w ctx id (.asking (.refilling r) g)
  | gets {ask : Ask} {g : Option (Guarded ask.call)} {reply : ask.call.Reply} {r : Record}
      (may : w.MayGet ctx g reply) (yields : ask.yields? reply = some r) (own : r.id = id)
      (time : ∀ key, ask = .fetching key → w.service.config.cacheRefresh = .background →
        0 < w.service.config.refreshTimeout) : CanKeep w ctx id (.asking ask g)
  | settles {change : DomainEvent} {tickets : List Ticket} {r : Record}
      (left : change.record? = some r) (own : r.id = id) (live : w.check ctx = .ok ()) :
      CanKeep w ctx id (.settling change tickets)
  | tells {change : DomainEvent} {f : Bool} {g : Option (Guarded (.writeCache change.cacheWrite))}
      {events : Branch (.publish change)} {r : Record} (left : change.record? = some r)
      (own : r.id = id) (may : w.MayAct ctx g) :
      CanKeep w ctx id (.announcing change f (.waiting g) events)

namespace World

variable {w w₁ w' : World} {ctx : Context} {spans : List Span} {p p' : Point} {id : RecordId}

theorem canKeep_of_later (later : Later w w') (h : p.CanKeep w' ctx id) : p.CanKeep w ctx id := by
  cases h with
  | fills own may => exact .fills own (may.of_later later)
  | gets may yields own time =>
    exact .gets (may.of_later later) yields own (later.service ▸ time)
  | settles left own live => exact .settles left own (check_of_later later.given later.now live)
  | tells left own may => exact .tells left own (may.of_later later)

section

variable (missing : w.backend.store.find id = .error (.notFound id)) (barred : Bars id p)

include missing barred

/-- A request that can keep the record after a stride could do so before. -/
theorem Strode.canKeep (h : Strode w ctx spans p w₁ (some p')) (later : Later w₁ w')
    (keeps : p'.CanKeep w' ctx id) : p.CanKeep w ctx id := by
  have hlater : Later w w' := h.booking.1.later.trans later
  cases h with
  | asksOn visit =>
    cases keeps with
    | fills own may => exact .fills own (may.of_visit visit hlater)
    | gets may yields own time =>
      exact .gets (may.of_visit missing barred visit hlater yields own) yields own
        (hlater.service ▸ time)
  | @resumes ask g w₂ _ reply _ visit resumed =>
    have hservice : w₂.service = w.service := (visited visit).alike.service
    have hgets {r : Record} (yields : ask.yields? reply = some r) (own : r.id = id)
        (time : ∀ key, ask = .fetching key → w.service.config.cacheRefresh = .background →
          0 < w.service.config.refreshTimeout) : (Point.asking ask g).CanKeep w ctx id :=
      .gets (mayGet_of_ready missing barred visit yields own) yields own time
    cases resumed with
    | asks calm quiet next =>
      cases keeps with
      | fills own may =>
        cases Service.follows_of_resume next with
        | refills inlined =>
          rw [hservice] at inlined
          exact hgets rfl own fun _ _ background => by cases inlined.symm.trans background
      | gets may =>
        obtain ⟨deadline, timer, hg, -⟩ := may
        cases hg
    | finishes => cases keeps
    | spawns => cases keeps
    | announces =>
      cases keeps with
      | tells left own may =>
        cases left
        exact hgets rfl own (by simp)
    | settles made later' =>
      cases keeps with
      | settles left own live =>
        refine hgets ((Ask.yields?_of_change? made).trans left) own fun key hkey => ?_
        subst hkey
        cases made
  | settlesOn settled =>
    cases keeps with
    | settles left own live => exact .settles left own (check_of_later hlater.given hlater.now live)
  | settled settled =>
    cases keeps with
    | tells left own may => exact .settles left own (check_of_later hlater.given hlater.now may)
  | cacheWaits visit =>
    cases keeps with
    | tells left own may => exact .tells left own (may.of_visit visit hlater)
  | cacheTold => cases keeps
  | busWaits visit =>
    cases keeps with
    | tells left own may => exact .tells left own (may.of_later hlater)
  | busTold visit =>
    cases keeps with
    | tells left own may => exact .tells left own (may.of_later hlater)
  | skips =>
    cases keeps with
    | tells left own may => exact .tells left own (may.of_later hlater)
  | concludes => cases keeps
  | rests => cases keeps

/-- A refresh of the record that can write after a stride could do so before, or the request that
has started it could keep the record. -/
theorem Strode.canWrite (h : Strode w ctx spans p w₁ (some p')) (later : Later w₁ w') {r' : Refresh}
    (mem : r' ∈ w₁.refreshes) (own : r'.record.id = id) (writes : r'.CanWrite w') :
    (∃ r ∈ w.refreshes, r.record.id = id ∧ r.CanWrite w) ∨ p.CanKeep w ctx id ∧ w.CanFill := by
  obtain ⟨coeval, booking⟩ := h.booking
  have hlater : Later w w' := coeval.later.trans later
  cases booking with
  | rests tracker refreshes => exact .inl ⟨r', refreshes ▸ mem, own, writes.of_later hlater⟩
  | takes tracker refreshes => exact .inl ⟨r', refreshes ▸ mem, own, writes.of_later hlater⟩
  | settles settled =>
    obtain ⟨r, hr, rfl | ⟨-, rfl⟩⟩ := settled.refreshes r' mem
    · exact .inl ⟨r', hr, own, writes.of_later hlater⟩
    -- a refresh that has been called off cannot write
    · cases writes.1
  | spawns visit tracker refreshes =>
    rcases List.mem_append.mp (refreshes ▸ mem) with hold | hnew
    · exact .inl ⟨r', hold, own, writes.of_later hlater⟩
    · obtain rfl := List.mem_singleton.mp hnew
      obtain ⟨-, hfill, hcheck⟩ := writes.of_later hlater
      obtain ⟨-, htimeout⟩ := check_withTimeout.mp hcheck
      exact .inr ⟨.gets (mayGet_of_ready missing barred visit rfl own) rfl own
        fun _ _ _ => htimeout, hfill⟩

end

end World

namespace Scene

variable {s s' : Scene} {id : RecordId}

/-- Nobody can put a record of the identifier into the cache. -/
structure IsForgotten (s : Scene) (id : RecordId) : Prop where
  requests : ∀ t ∈ s.threads, t.point.CanKeep s.world t.call.ctx id → ¬ s.world.CanFill
  refreshes : ∀ r ∈ s.world.refreshes, r.record.id = id → ¬ r.CanWrite s.world

/-- Time and signals only go on. -/
theorem Step.later (step : Step s s') : World.Later s.world s'.world := by
  cases step with
  | start ctx request => rw [(s.world.openCall_spec ctx request).1]; exact World.Later.refl _
  | stride side mem eq => exact (World.strode eq).booking.1.later
  | breakDown side mem eq => exact (World.strode eq).untouched.toCoeval.later
  | leave => exact World.Later.refl _
  | turn => exact (s.world.turn_spec _).turning.toCoeval.later
  | elapse elapsed => exact elapsed.later

theorem canFill_of_later {w w' : World} (later : World.Later w w') (h : w'.CanFill) :
    w.CanFill := by
  unfold World.CanFill at h ⊢
  rwa [later.service] at h

theorem IsGone.bars (h : s.IsGone id)
    (checked : ∀ t ∈ s.threads, t.point.IsChecked s.world.service.limits t.request) {t : Thread}
    (mem : t ∈ s.threads) : World.Bars id t.point := by
  intro c g hpoint hid
  have hmine := checked t mem
  rw [hpoint] at hmine
  exact h.barred t mem c hmine.1 hid

/-- What is forgotten stays forgotten. -/
theorem IsForgotten.step (h : s.IsForgotten id) (gone : s.IsGone id)
    (checked : ∀ t ∈ s.threads, t.point.IsChecked s.world.service.limits t.request)
    (step : Step s s') : s'.IsForgotten id := by
  have hlater := step.later
  -- requests and refreshes that go on as before
  have hrequests {u : Thread} (hu : u ∈ s.threads)
      (keeps : u.point.CanKeep s'.world u.call.ctx id) : ¬ s'.world.CanFill := fun hfill =>
    h.requests u hu (World.canKeep_of_later hlater keeps) (canFill_of_later hlater hfill)
  have hrefreshes {r : Refresh} (hr : r ∈ s.world.refreshes) (own : r.record.id = id) :
      ¬ r.CanWrite s'.world := fun writes => h.refreshes r hr own (writes.of_later hlater)
  cases step with
  | start ctx request =>
    obtain ⟨hworld, hpoint⟩ := s.world.openCall_spec ctx request
    refine ⟨fun u hu keeps => ?_, fun r hr own => ?_⟩
    · rcases List.mem_append.mp hu with hold | hnew
      · exact hrequests hold keeps
      · obtain rfl := List.mem_singleton.mp hnew
        rcases hpoint with ⟨ask, hbegin, hask⟩ | ⟨outcome, -, hfinished⟩
        · rw [Thread.point, hask] at keeps
          cases keeps with
          | fills => cases Service.begin_spec hbegin
          | gets may =>
            obtain ⟨deadline, timer, hg, -⟩ := may
            cases hg
        · rw [Thread.point, hfinished] at keeps
          cases keeps
    · have hold : r ∈ s.world.refreshes := by
        have hmem : r ∈ (s.world.openCall ctx request).1.refreshes := hr
        rwa [hworld] at hmem
      exact hrefreshes hold own
  | @stride t w p side mem eq =>
    have hstrode := World.strode eq
    have hbars := gone.bars checked mem
    refine ⟨fun u hu keeps => ?_, fun r hr own writes => ?_⟩
    · rcases mem_put hu with rfl | ⟨hold, -⟩
      · exact fun hfill => h.requests t mem
          (hstrode.canKeep gone.missing hbars (World.Later.refl w) keeps)
          (canFill_of_later hlater hfill)
      · exact hrequests hold keeps
    · rcases hstrode.canWrite gone.missing hbars (World.Later.refl w) hr own writes with
        ⟨r₀, hr₀, hown, hwrites⟩ | ⟨hkeeps, hfill⟩
      · exact h.refreshes r₀ hr₀ hown hwrites
      · exact h.requests t mem hkeeps hfill
  | breakDown side mem eq =>
    have calm := (World.strode eq).untouched
    exact ⟨fun u hu => hrequests (List.mem_filter.mp hu).1,
      fun r hr => hrefreshes (calm.refreshes ▸ hr)⟩
  | leave mem => exact ⟨fun u hu => hrequests (List.mem_filter.mp hu).1, fun r hr => hrefreshes hr⟩
  | @turn r mem =>
    refine ⟨fun u hu => hrequests hu, fun f hf own writes => ?_⟩
    rcases (s.world.turn_spec r).turning.refreshes f hf with hold | ⟨g, w₁, rfl, visit⟩
    · exact hrefreshes hold own writes
    · exact h.refreshes r mem own (writes.of_visit visit hlater)
  | elapse elapsed =>
    exact ⟨fun u hu => hrequests hu, fun r hr => hrefreshes (elapsed.refreshes ▸ hr)⟩

/-- Whoever puts a record into the cache could be foreseen to. -/
theorem keeps_of_effect {a : Act} {party : Party} {r : Record}
    (h : s.effect? a = some (party, .writeCache (.keep r))) :
    (∃ t ∈ s.threads, t.point.CanKeep s.world t.call.ctx r.id) ∨
      ∃ f ∈ s.world.refreshes, f.record = r ∧ (s.world.CanFill → f.CanWrite s.world) := by
  cases takesEffect h with
  | @look t side _ find effect =>
    refine .inl ⟨t, List.mem_of_find?_eq_some find, ?_⟩
    generalize t.point = p at effect
    generalize hcall : PortCall.writeCache (.keep r) = call at effect
    cases effect with
    | @asking _ ask g acts =>
      cases ask with
      | refilling x =>
        cases hcall
        exact .fills rfl (World.mayAct_of_acts acts)
      | _ => cases hcall
    | @cache change f g events acts =>
      have hleft : change.record? = some r := by
        rw [← DomainEvent.brings?_cacheWrite, ← hcall]
        rfl
      exact .tells hleft rfl (World.mayAct_of_acts acts)
    | bus => cases hcall
  | @turn f find live acts =>
    refine .inr ⟨f, List.mem_of_find?_eq_some find, rfl, fun hfill => ⟨live, hfill, ?_⟩⟩
    have hmay := World.mayAct_of_acts acts
    revert hmay
    cases f.call with
    | none => exact id
    | some g =>
      rcases g with ⟨deadline, ⟨fault, _ | timer⟩ | ⟨reply, timer⟩⟩ <;> exact id

/-- The cache gets no entry of a record that is forgotten. -/
theorem IsForgotten.uncached (h : s.IsForgotten id)
    (uncached : s.world.backend.cache.entries.get? id = none) (a : Act) :
    (s.act a).world.backend.cache.entries.get? id = none := by
  cases heffect : s.effect? a with
  | none =>
    rw [backend_act_of_none heffect]
    exact uncached
  | some effect =>
    obtain ⟨party, call⟩ := effect
    rw [backend_act heffect]
    cases hentry : (s.world.servedNow call).backend.cache.entries.get? id with
    | none => rfl
    | some e =>
      rcases Backend.entry_serve hentry with hold | ⟨r, rfl, rfl, -, hexpiry⟩
      · cases hold.symm.trans uncached
      · have hfill : s.world.CanFill := ⟨_, _, hexpiry⟩
        rcases keeps_of_effect heffect with ⟨t, ht, keeps⟩ | ⟨f, hf, rfl, hwrites⟩
        · exact absurd hfill (h.requests t ht keeps)
        · exact absurd (hwrites hfill) (h.refreshes f hf rfl)

end Scene

end CacheAside.Simulation
