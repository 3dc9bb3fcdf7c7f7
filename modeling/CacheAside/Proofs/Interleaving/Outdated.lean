import CacheAside.Proofs.Interleaving.Books

/-!
# Refreshes that come too late

A request that changes a record calls off the refreshes of the record before it tells the cache.
It takes the whole list at once, though, and then calls off one refresh after another.  A second
request that changes the same record meanwhile finds the list empty, tells the cache, and a refresh
that the first one has not come to yet puts the older record into the cache after that.  A read
whose reply takes its time can do the same: its refresh starts when nobody looks for it any more.

`Scene.no_outdated_write_iff` says that these are the only ways in which a refresh can write an
older record after a change has been announced.
-/

namespace CacheAside.Simulation

theorem check_eq_ok {ctx : Context} {given : Nat → Bool} {now : Nat} :
    ctx.check given now = .ok () ↔ ctx.isCancelled given = false ∧ ctx.isExpired now = false := by
  unfold Context.check
  cases ctx.isCancelled given <;> cases ctx.isExpired now <;> simp

/-- A context that is not interrupted later on is not interrupted before. -/
theorem check_of_later {ctx : Context} {w w' : World} {now now' : Nat}
    (given : ∀ signal ∈ w.given, signal ∈ w'.given) (le : now ≤ now')
    (h : ctx.check w'.isGiven now' = .ok ()) : ctx.check w.isGiven now = .ok () := by
  obtain ⟨hlive, hintime⟩ := check_eq_ok.mp h
  refine check_eq_ok.mpr ⟨?_, ?_⟩
  · cases hsignal : ctx.signal with
    | none => simp [Context.isCancelled, hsignal]
    | some signal =>
      simp only [Context.isCancelled, hsignal, Option.any_some, World.isGiven,
        List.contains_eq_mem, decide_eq_false_iff_not] at hlive ⊢
      exact fun hgiven => hlive (given signal hgiven)
  · cases hdeadline : ctx.deadline with
    | none => simp [Context.isExpired, hdeadline]
    | some deadline =>
      simp only [Context.isExpired, hdeadline, Option.any_some,
        decide_eq_false_iff_not] at hintime ⊢
      exact fun hexpired => hintime (Nat.le_trans hexpired le)

/-- A deadline that is added counts besides the others. -/
theorem check_withDeadline {ctx : Context} {given : Nat → Bool} {now due : Nat} :
    (ctx.withDeadline due).check given now = .ok () ↔
      ctx.check given now = .ok () ∧ now < due := by
  rw [check_eq_ok, check_eq_ok, and_assoc]
  refine and_congr_right fun _ => ?_
  cases hdeadline : ctx.deadline with
  | none => simp [Context.withDeadline, Context.isExpired, hdeadline]
  | some current =>
    simp only [Context.withDeadline, Context.isExpired, hdeadline, Option.any_some,
      decide_eq_false_iff_not]
    omega

/-- A refresh gets some time for its call, unless the timeout is zero. -/
theorem check_withTimeout {ctx : Context} {given : Nat → Bool} {now timeout : Nat} :
    (ctx.withTimeout now timeout).check given now = .ok () ↔
      ctx.check given now = .ok () ∧ 0 < timeout := by
  have hlimit : now < now + timeout ↔ 0 < timeout := by omega
  rw [← hlimit]
  exact check_withDeadline

namespace World

/-- The other world is the same or comes later. -/
structure Later (w w' : World) : Prop where
  service : w'.service = w.service
  now : w.now ≤ w'.now
  given : ∀ signal ∈ w.given, signal ∈ w'.given

theorem Later.refl (w : World) : Later w w :=
  ⟨rfl, Nat.le_refl _, fun _ h => h⟩

theorem Later.trans {w₁ w₂ w₃ : World} (h : Later w₁ w₂) (h' : Later w₂ w₃) : Later w₁ w₃ :=
  ⟨h'.service.trans h.service, Nat.le_trans h.now h'.now, fun signal hs =>
    h'.given signal (h.given signal hs)⟩

theorem Coeval.later {w w' : World} (h : Coeval w w') : Later w w' :=
  ⟨h.service, Nat.le_of_eq h.now.symm, fun _ hs => h.given ▸ hs⟩

theorem Elapsed.later {w w' : World} (h : Elapsed w w') : Later w w' :=
  ⟨h.service, h.now, h.given⟩

/-- By some clock, the cache can tell when a new entry expires. -/
def CanFill (w : World) : Prop :=
  ∃ clock moment,
    Cache.expiry clock (w.service.config.cacheTtl * nanosPerSecond) = .ok moment

theorem canFill_of_served {w : World} {r : Record}
    (h : (w.servedNow (.writeCache (.keep r))).reply = some (.ok ())) : w.CanFill := by
  obtain ⟨moment, hexpiry⟩ := Backend.serve_keep_eq_ok.mp h
  exact ⟨w.clock, moment, hexpiry⟩

end World

/-- Nothing but time is needed for the refresh to write: it has not been called off, and its call
takes effect before the context interrupts it. -/
def Refresh.CanWrite (r : Refresh) (w : World) : Prop :=
  r.aborted = false ∧ w.CanFill ∧
    match r.call with
    | none => w.check r.ctx = .ok ()
    | some ⟨_, .before fault (some timer)⟩ =>
      fault.acts = true ∧ r.ctx.check w.isGiven (max w.now timer.due) = .ok ()
    | some _ => False

/-- The request has read this record from the store, and the reply is on its way. -/
def Thread.HasRead (t : Thread) (r : Record) (timer : Timer) : Prop :=
  ∃ id deadline, t.point = .asking (.fetching id) (some ⟨deadline, .after (.ok r) timer⟩)

/-- Nothing but time is needed for the request to start a refresh that can write. -/
def Thread.CanSpawn (t : Thread) (w : World) : Prop :=
  w.CanFill ∧ 0 < w.service.config.refreshTimeout ∧
    ∃ r timer, t.HasRead r timer ∧
      t.call.ctx.check w.isGiven (max w.now timer.due) = .ok ()

theorem Refresh.CanWrite.of_later {r : Refresh} {w w' : World} (later : World.Later w w')
    (h : r.CanWrite w') : r.CanWrite w := by
  obtain ⟨hlive, hfill, hcall⟩ := h
  refine ⟨hlive, ?_, ?_⟩
  · unfold World.CanFill at hfill ⊢
    rwa [later.service] at hfill
  · split at hcall
    · exact check_of_later later.given later.now hcall
    · have hnow := later.now
      exact ⟨hcall.1, check_of_later later.given (by omega) hcall.2⟩
    · exact hcall.elim

theorem Thread.CanSpawn.of_later {t : Thread} {w w' : World} (later : World.Later w w')
    (h : t.CanSpawn w') : t.CanSpawn w := by
  obtain ⟨hfill, htimeout, r, timer, hread, hcheck⟩ := h
  refine ⟨?_, later.service ▸ htimeout, r, timer, hread, ?_⟩
  · unfold World.CanFill at hfill ⊢
    rwa [later.service] at hfill
  · have hnow := later.now
    exact check_of_later later.given (by omega) hcheck

/-- A call whose reply has been decided has no effect any more. -/
theorem Refresh.not_canWrite {r : Refresh} {w : World} {g : Guarded (.writeCache (.keep r.record))}
    {reply : (PortCall.writeCache (.keep r.record)).Reply}
    (decided : g.flight.decided? = some reply) :
    ¬ Refresh.CanWrite { r with call := some g } w := by
  obtain ⟨deadline, flight⟩ := g
  cases flight with
  | before fault timer => cases decided
  | after reply timer => exact fun h => h.2.2

/-- Whether a refresh can write does not depend on when its call was looked at. -/
theorem Refresh.CanWrite.of_visit {r : Refresh} {w w₁ w' : World}
    {g : Guarded (.writeCache (.keep r.record))}
    (visit : w.visit (some r.ticket) r.ctx r.spans r.call = (w₁, .pending g))
    (later : World.Later w w') (h : Refresh.CanWrite { r with call := some g } w') :
    r.CanWrite w := by
  cases World.visited visit with
  | @waits _ timer calm still before same =>
    cases hcall : r.call with
    -- a call that goes on waiting is the same as before
    | some g₀ =>
      have heq : { r with call := some g } = r := by
        rw [same g₀ hcall, ← hcall]
      exact (heq ▸ h).of_later later
    -- a call that is only now started was not interrupted
    | none =>
      obtain ⟨hlive, hfill, hwaits⟩ := h.of_later later
      refine ⟨hlive, hfill, ?_⟩
      obtain ⟨deadline, flight⟩ := g
      subst before
      rw [hcall]
      cases timer with
      | none => exact hwaits.elim
      | some timer =>
        exact check_of_later (fun _ hs => hs) (Nat.le_max_left _ _) hwaits.2
  | fails calm still failed => exact absurd h (not_canWrite failed)
  | awaits calm still known => exact absurd h (not_canWrite rfl)
  | answers alike acted fresh backend served decided => exact absurd h (not_canWrite decided)

namespace Scene

/-- A turn of the refresh now puts its record into the cache. -/
def Writes (s : Scene) (r : Refresh) : Prop :=
  r.aborted = false ∧ s.world.acts r.ctx r.call = true ∧
    (s.world.servedNow (.writeCache (.keep r.record))).reply = some (.ok ())

theorem Writes.stored {s : Scene} {r : Refresh} (h : s.Writes r) :
    (s.world.turn r).1.backend.cache.stored? r.record.id = some r.record := by
  obtain ⟨hlive, hacts, hreply⟩ := h
  have hserved : (s.world.servedNow (.writeCache (.keep r.record))).backend.cache.stored?
      r.record.id = some r.record :=
    (Backend.stored?_serve_write hreply r.record.id).trans (if_pos rfl)
  have hvisited {w₁ : World} {poll}
      (visit : s.world.visit (some r.ticket) r.ctx r.spans r.call = (w₁, poll)) :
      w₁.backend.cache.stored? r.record.id = some r.record := by
    cases World.visited visit with
    | answers alike acted fresh backend served decided => rw [backend, hserved]
    | breaks calm acted served => cases hreply.symm.trans served
    | waits calm still => cases hacts.symm.trans still
    | fails calm still => cases hacts.symm.trans still
    | awaits calm still => cases hacts.symm.trans still
    | replies calm still => cases hacts.symm.trans still
  have hturned := s.world.turn_spec r
  generalize (s.world.turn r).1 = w at hturned ⊢
  cases hturned with
  | calledOff aborted => cases hlive.symm.trans aborted
  | waits live visit =>
    have hstored := hvisited visit
    exact hstored
  | ends live visit ended => rw [ended.backend, hvisited visit]
  | breaks live visit ended => rw [ended.backend, hvisited visit]

theorem Writes.canWrite {s : Scene} {r : Refresh} (h : s.Writes r) : r.CanWrite s.world := by
  obtain ⟨hlive, hacts, hreply⟩ := h
  simp only [World.acts, Bool.and_eq_true] at hacts
  obtain ⟨⟨hcheck, hdue⟩, hfault⟩ := hacts
  have hcheck : s.world.check r.ctx = .ok () := by
    cases h : s.world.check r.ctx with
    | ok value => rfl
    | error cause => simp [h, Except.toBool] at hcheck
  refine ⟨hlive, ?_, ?_⟩
  · exact World.canFill_of_served hreply
  · cases hcall : r.call with
    | none => exact hcheck
    | some g =>
      obtain ⟨deadline, flight⟩ := g
      rw [hcall] at hdue hfault
      cases flight with
      | before fault timer =>
        cases timer with
        | none => cases hdue
        | some timer =>
          have hdue : timer.due ≤ s.world.now := by simpa [World.isDue] using hdue
          refine ⟨hfault, ?_⟩
          rw [Nat.max_eq_left hdue]
          exact hcheck
      | after reply timer => cases hdue

end Scene

/-! ## From one scene to a later one -/

/-- A request that has read a record waits, or comes to its end. -/
theorem Thread.HasRead.strode {t : Thread} {r : Record} {timer : Timer} (h : t.HasRead r timer)
    {w w' : World} (background : w.service.config.cacheRefresh = .background) {ctx : Context}
    {spans : List Span} {p : Point} (strode : World.Strode w ctx spans t.point w' (some p)) :
    p = t.point ∨ p.isFinished = true := by
  obtain ⟨id, deadline, hpoint⟩ := h
  rw [hpoint] at strode ⊢
  cases strode with
  | asksOn visit =>
    left
    cases World.visited visit with
    | waits calm still before same => rw [same _ rfl]
    | fails calm still failed ready => cases ready rfl
    | awaits calm still known => rw [known]
    | answers alike acted fresh => cases fresh
  | @resumes _ _ w₁ _ reply _ visit resumed =>
    right
    cases resumed with
    | asks calm quiet next =>
      have hservice := (World.visited visit).alike.service
      cases reply with
      | ok found => simp [Service.resume, Service.refill, hservice, background] at next
      | error e => cases next
    | finishes => rfl
    | spawns => rfl
    | settles made => cases made

/-- A refresh that a request starts with the record that it had read could be foreseen. -/
theorem Thread.HasRead.canSpawn {t : Thread} {r : Record} {timer : Timer} (h : t.HasRead r timer)
    {w w₁ w' : World} {id : RecordId} {g : Option (Guarded (.find id))} {found : Record}
    {spans spans' : List Span} (point : t.point = .asking (.fetching id) g)
    (visit : w.visit none t.call.ctx spans g = (w₁, .ready (.ok found)))
    (coeval : World.Coeval w w') {ticket : Ticket}
    (hr : Refresh.CanWrite {
      ticket
      record := found
      ctx := t.call.ctx.withTimeout w.now w.service.config.refreshTimeout
      spans := spans' } w') : t.CanSpawn w := by
  obtain ⟨-, hfill, hcheck⟩ := hr.of_later coeval.later
  obtain ⟨id', deadline, hpoint⟩ := h
  cases point.symm.trans hpoint
  cases World.visited visit with
  | fails calm still failed => cases failed
  | answers alike acted fresh => cases fresh
  | replies calm still known passed due =>
    cases known
    obtain ⟨hctx, htimeout⟩ := check_withTimeout.mp hcheck
    refine ⟨hfill, htimeout, r, timer, ⟨id, deadline, hpoint⟩, ?_⟩
    rw [Nat.max_eq_left due]
    exact hctx

namespace Scene

/-- What has become of the requests and the refreshes of a scene later on. -/
structure Onward (s s' : Scene) : Prop where
  later : World.Later s.world s'.world
  next : s.world.tracker.next ≤ s'.world.tracker.next
  asked : s.asked.length ≤ s'.asked.length
  spawned : ∀ e ∈ s'.spawned, e ∈ s.spawned ∨ s.world.tracker.next ≤ e.1
  /-- A request is new, or has been there before. -/
  threads : ∀ t' ∈ s'.threads, s.asked.length ≤ t'.key ∨ ∃ t ∈ s.threads, t.key = t'.key ∧
    (t.point.isFinished = true → t'.point.isFinished = true) ∧
    ∀ r timer, t.HasRead r timer → t' = t ∨ t'.point.isFinished = true
  /-- A refresh has been there before, or has been started by a request. -/
  refreshes : ∀ r' ∈ s'.world.refreshes,
    (∃ r ∈ s.world.refreshes, r.ticket = r'.ticket ∧ r.record = r'.record ∧
      (r'.CanWrite s'.world → r.CanWrite s.world)) ∨
    (s.world.tracker.next ≤ r'.ticket ∧ ∀ key, (r'.ticket, key) ∈ s'.spawned →
      s.asked.length ≤ key ∨ ∃ t ∈ s.threads, t.key = key ∧ t.point.isFinished = false ∧
        ∀ r timer, t.HasRead r timer → r'.CanWrite s'.world → t.CanSpawn s.world)

namespace Onward

variable {s s' s'' : Scene}

theorem refl (s : Scene) : Onward s s where
  later := World.Later.refl s.world
  next := Nat.le_refl _
  asked := Nat.le_refl _
  spawned := fun _ he => .inl he
  threads := fun t ht => .inr ⟨t, ht, rfl, id, fun _ _ _ => .inl rfl⟩
  refreshes := fun r hr => .inl ⟨r, hr, rfl, rfl, id⟩

theorem trans (h : Onward s s') (h' : Onward s' s'') (booked : s'.Booked) : Onward s s'' where
  later := h.later.trans h'.later
  next := Nat.le_trans h.next h'.next
  asked := Nat.le_trans h.asked h'.asked
  spawned := fun e he => by
    rcases h'.spawned e he with hold | hnew
    · exact h.spawned e hold
    · exact .inr (Nat.le_trans h.next hnew)
  threads := fun t'' ht'' => by
    rcases h'.threads t'' ht'' with hnew | ⟨t', ht', hkey', hfinished', hread'⟩
    · exact .inl (Nat.le_trans h.asked hnew)
    · rcases h.threads t' ht' with hnew | ⟨t, ht, hkey, hfinished, hread⟩
      · exact .inl (hkey' ▸ hnew)
      · refine .inr ⟨t, ht, hkey.trans hkey', fun hp => hfinished' (hfinished hp), ?_⟩
        intro r timer hr
        rcases hread r timer hr with rfl | hp
        · exact hread' r timer hr
        · exact .inr (hfinished' hp)
  refreshes := fun r'' hr'' => by
    rcases h'.refreshes r'' hr'' with ⟨r', hr', hticket', hrecord', hcan'⟩ | ⟨hlate, hwhose⟩
    · rcases h.refreshes r' hr' with ⟨r, hr, hticket, hrecord, hcan⟩ | ⟨hlate, hwhose⟩
      · exact .inl ⟨r, hr, hticket.trans hticket', hrecord.trans hrecord',
          fun hc => hcan (hcan' hc)⟩
      · refine .inr ⟨hticket' ▸ hlate, fun key hkey => ?_⟩
        rw [← hticket'] at hkey
        -- the books of `s'` name the same request, for the refresh is not newer than they are
        have hold : (r'.ticket, key) ∈ s'.spawned := by
          rcases h'.spawned _ hkey with hold | hnew
          · exact hold
          · exact absurd (booked.tickets r' hr') (Nat.not_lt.mpr hnew)
        refine (hwhose key hold).imp_right fun ⟨t, ht, hk, hrunning, hspawn⟩ => ?_
        exact ⟨t, ht, hk, hrunning, fun r timer hread hc => hspawn r timer hread (hcan' hc)⟩
    · refine .inr ⟨Nat.le_trans h.next hlate, fun key hkey => ?_⟩
      rcases hwhose key hkey with hnew | ⟨t', ht', hk, hrunning, hspawn⟩
      · exact .inl (Nat.le_trans h.asked hnew)
      · rcases h.threads t' ht' with hnew | ⟨t, ht, hk', hfinished, hread⟩
        · exact .inl (hk ▸ hnew)
        · refine .inr ⟨t, ht, hk'.trans hk, ?_, fun r timer hr hc => ?_⟩
          · cases hp : t.point.isFinished with
            | false => rfl
            | true => cases hrunning.symm.trans (hfinished hp)
          · rcases hread r timer hr with rfl | hp
            · exact (hspawn r timer hr hc).of_later h.later
            · exact absurd hp (by simp [hrunning])

/-- What follows for the refreshes when none has started. -/
theorem same_refreshes (later : World.Later s.world s'.world)
    (h : ∀ r' ∈ s'.world.refreshes, r' ∈ s.world.refreshes) : ∀ r' ∈ s'.world.refreshes,
      ∃ r ∈ s.world.refreshes, r.ticket = r'.ticket ∧ r.record = r'.record ∧
        (r'.CanWrite s'.world → r.CanWrite s.world) :=
  fun r' hr' => ⟨r', h r' hr', rfl, rfl, fun hc => hc.of_later later⟩

/-- What follows for the requests when none has moved. -/
theorem same_threads (h : ∀ t' ∈ s'.threads, t' ∈ s.threads) : ∀ t' ∈ s'.threads,
    ∃ t ∈ s.threads, t.key = t'.key ∧
      (t.point.isFinished = true → t'.point.isFinished = true) ∧
      ∀ r timer, t.HasRead r timer → t' = t ∨ t'.point.isFinished = true :=
  fun t' ht' => ⟨t', h t' ht', rfl, id, fun _ _ _ => .inl rfl⟩

/-- A request makes a stride. -/
theorem stride (booked : s.Booked) (background : s.world.service.config.cacheRefresh = .background)
    {t : Thread} (mem : t ∈ s.threads) {w : World} {p : Point} {side : Side}
    {changes : List DomainEvent}
    (eq : s.world.stride t.call.ctx t.call.spans side t.point = (w, some p)) :
    Onward s { s with
      world := w
      threads := put s.threads (t.goTo p)
      changes
      spawned := s.spawned ++ (s.world.tickets w).map (·, t.key) } := by
  have hstrode := World.strode eq
  obtain ⟨coeval, booking⟩ := hstrode.booking
  have hnext := booking.next_le
  have hspawned : ∀ e ∈ s.spawned ++ (s.world.tickets w).map (·, t.key),
      e ∈ s.spawned ∨ s.world.tracker.next ≤ e.1 ∧ e.2 = t.key := by
    intro e he
    rcases List.mem_append.mp he with hold | hnew
    · exact .inl hold
    · obtain ⟨ticket, hticket, rfl⟩ := List.mem_map.mp hnew
      exact .inr ⟨((World.mem_tickets hnext).mp hticket).1, rfl⟩
  refine ⟨coeval.later, hnext, Nat.le_refl _, fun e he => (hspawned e he).imp_right And.left,
    fun u hu => .inr ?_, ?_⟩
  · rcases mem_put hu with rfl | ⟨hu, -⟩
    · refine ⟨t, mem, rfl, fun hp => ?_, fun r timer hread => ?_⟩
      · generalize t.point = q at hstrode hp
        cases hstrode with
        | rests => rfl
        | _ => cases hp
      · rcases hread.strode background hstrode with hsame | hp
        · exact .inl (by rw [Thread.goTo, hsame])
        · exact .inr hp
    · exact ⟨u, hu, rfl, id, fun _ _ _ => .inl rfl⟩
  · generalize hpoint : t.point = q at booking
    cases booking with
    | rests tracker refreshes =>
      exact fun r hr => .inl (same_refreshes coeval.later (fun f hf => refreshes ▸ hf) r hr)
    | takes tracker refreshes =>
      exact fun r hr => .inl (same_refreshes coeval.later (fun f hf => refreshes ▸ hf) r hr)
    | settles settled =>
      intro r' hr'
      obtain ⟨r, hr, rfl | ⟨-, rfl⟩⟩ := settled.refreshes r' hr'
      · exact .inl ⟨r', hr, rfl, rfl, fun hc => hc.of_later coeval.later⟩
      -- a refresh that has been called off cannot write
      · exact .inl ⟨r, hr, rfl, rfl, fun hc => by cases hc.1⟩
    | spawns visit tracker refreshes =>
      intro r' hr'
      rcases List.mem_append.mp (refreshes ▸ hr') with hold | hnew
      · exact .inl ⟨r', hold, rfl, rfl, fun hc => hc.of_later coeval.later⟩
      · obtain rfl := List.mem_singleton.mp hnew
        refine .inr ⟨Nat.le_refl _, fun key hkey => .inr ?_⟩
        -- no other request is on record for the number of the new refresh
        obtain rfl : key = t.key := by
          rcases hspawned _ hkey with hold | ⟨-, hmine⟩
          · exact absurd (booked.spawned _ hold) (Nat.lt_irrefl _)
          · exact hmine
        refine ⟨t, mem, rfl, by rw [hpoint]; rfl, fun r timer hread hc => ?_⟩
        exact hread.canSpawn hpoint visit coeval hc

theorem step (booked : s.Booked) (background : s.world.service.config.cacheRefresh = .background)
    (step : Step s s') : Onward s s' := by
  cases step with
  | start ctx request =>
    have hworld := (s.world.openCall_spec ctx request).1
    rw [hworld]
    refine ⟨World.Later.refl s.world, Nat.le_refl _, by simp, fun _ he => .inl he, fun t ht => ?_,
      fun r hr => .inl ⟨r, hr, rfl, rfl, id⟩⟩
    rcases List.mem_append.mp ht with hold | hnew
    · exact .inr ⟨t, hold, rfl, id, fun _ _ _ => .inl rfl⟩
    · obtain rfl := List.mem_singleton.mp hnew
      exact .inl (Nat.le_refl _)
  | stride side mem eq => exact stride booked background mem eq
  | breakDown side mem eq =>
    have calm := (World.strode eq).untouched
    have hlater := calm.toCoeval.later
    refine ⟨hlater, calm.tracker ▸ Nat.le_refl _, Nat.le_refl _, fun _ he => .inl he,
      fun t ht => .inr ?_, fun r hr => .inl ?_⟩
    · exact same_threads (fun u hu => (List.mem_filter.mp hu).1) t ht
    · exact same_refreshes hlater (fun f hf => calm.refreshes ▸ hf) r hr
  | leave mem =>
    refine ⟨World.Later.refl s.world, Nat.le_refl _, Nat.le_refl _, fun _ he => .inl he,
      fun t ht => .inr ?_, fun r hr => .inl ⟨r, hr, rfl, rfl, id⟩⟩
    exact same_threads (fun u hu => (List.mem_filter.mp hu).1) t ht
  | @turn r mem =>
    have hturning := (s.world.turn_spec r).turning
    have hlater := hturning.toCoeval.later
    refine ⟨hlater, Nat.le_of_eq hturning.next.symm, Nat.le_refl _, fun _ he => .inl he,
      fun t ht => .inr ⟨t, ht, rfl, id, fun _ _ _ => .inl rfl⟩, fun f hf => .inl ?_⟩
    rcases hturning.refreshes f hf with hold | ⟨g, w₁, rfl, visit⟩
    · exact ⟨f, hold, rfl, rfl, fun hc => hc.of_later hlater⟩
    · exact ⟨r, mem, rfl, rfl, fun hc => hc.of_visit visit hlater⟩
  | elapse elapsed =>
    refine ⟨elapsed.later, elapsed.tracker ▸ Nat.le_refl _, Nat.le_refl _, fun _ he => .inl he,
      fun t ht => .inr ⟨t, ht, rfl, id, fun _ _ _ => .inl rfl⟩, fun r hr => .inl ?_⟩
    exact same_refreshes elapsed.later (fun f hf => elapsed.refreshes ▸ hf) r hr

end Onward

theorem Reaches.onward {allowed : Scene → Scene → Prop} {s s' : Scene} (booked : s.Booked)
    (background : s.world.service.config.cacheRefresh = .background)
    (run : Reaches allowed s s') : s'.Booked ∧ Onward s s' := by
  induction run with
  | refl => exact ⟨booked, Onward.refl s⟩
  | @act s₁ a run allowed ih =>
    obtain ⟨booked₁, honward⟩ := ih
    have hstep := step_act s₁ a
    refine ⟨booked₁.step hstep, honward.trans (.step booked₁ ?_ hstep) booked₁⟩
    rw [honward.later.service]
    exact background

end Scene

/-! ## What can still happen -/

/-- A call that has not been started takes effect at once if no fault waits for it. -/
theorem acts_none {w : World} {ctx : Context} {call : PortCall} (hcheck : w.check ctx = .ok ())
    (hfaults : w.faults = []) : w.acts ctx (none : Option (Guarded call)) = true := by
  have hfault : w.faultOf (none : Option (Guarded call)) = {} := by
    simp [World.faultOf, World.takeFault_fst, hfaults]
  simp [World.acts, World.isDue, hcheck, hfault, Except.toBool, Fault.acts]

/-- A refresh that can write writes when some time has passed. -/
theorem Refresh.CanWrite.writes {s : Scene} {r : Refresh} (h : r.CanWrite s.world) :
    ∃ now clock, (s.perform [.pass now, .setClock clock, .setFaults []]).Writes r := by
  obtain ⟨hlive, ⟨clock, moment, hexpiry⟩, hcall⟩ := h
  have hreply (now : Nat) :
      ((s.perform [.pass now, .setClock clock, .setFaults []]).world.servedNow
        (.writeCache (.keep r.record))).reply = some (.ok ()) :=
    Backend.serve_keep_eq_ok.mpr ⟨moment, hexpiry⟩
  cases hflight : r.call with
  | none =>
    rw [hflight] at hcall
    refine ⟨s.world.now, clock, hlive, ?_, hreply _⟩
    rw [hflight]
    refine acts_none ?_ rfl
    have hnow : max s.world.now s.world.now = s.world.now := Nat.max_self _
    exact (congrArg (r.ctx.check s.world.isGiven) hnow).trans hcall
  | some g =>
    obtain ⟨deadline, flight⟩ := g
    rw [hflight] at hcall
    match flight with
    | .before fault none => exact hcall.elim
    | .after reply timer => exact hcall.elim
    | .before fault (some timer) =>
      obtain ⟨hacts, hcheck⟩ := hcall
      refine ⟨timer.due, clock, hlive, ?_, hreply _⟩
      rw [hflight]
      have hchecked : (s.perform [.pass timer.due, .setClock clock, .setFaults []]).world.check
          r.ctx = .ok () := hcheck
      have hdue : timer.due ≤ max s.world.now timer.due := Nat.le_max_right _ _
      simp only [World.acts, hchecked, Except.toBool, World.faultOf, hacts, Bool.true_and,
        Bool.and_true]
      exact decide_eq_true hdue

namespace World

/-- A request that has read a record starts a refresh when its reply is due. -/
theorem stride_of_due {w : World} {ctx : Context} {spans : List Span} {side : Side}
    {id : RecordId} {deadline : Option Timer} {r : Record} {timer : Timer}
    (background : w.service.config.cacheRefresh = .background) (hcheck : w.check ctx = .ok ())
    (hdue : timer.due ≤ w.now) :
    w.stride ctx spans side (.asking (.fetching id) (some ⟨deadline, .after (.ok r) timer⟩)) =
      ((w.land none .storeFindById).spawn ctx spans r, some (.finished (.ok (.record r)))) := by
  have hvisit : w.visit none ctx spans
      (some ⟨deadline, .after (.ok r) timer⟩ : Option (Guarded (.find id))) =
      (w.land none .storeFindById, .ready (.ok r)) := by
    simp only [visit, revisit, hcheck, follow, hdue, keepDeadline, PortCall.port, if_true]
  have hrefill : (w.land none .storeFindById).service.refill r =
      ([.refresh r], .finished (.ok (.record r))) := by
    rw [Service.refill, show (w.land none .storeFindById).service.config.cacheRefresh = _
      from background]
  simp only [stride, move, Ask.call, hvisit, Service.resume, hrefill]
  rfl

end World

/-- A request that can start a refresh that can write does so when some time has passed. -/
theorem Thread.CanSpawn.spawns {s : Scene} {t : Thread} (numbered : s.Numbered)
    (mem : t ∈ s.threads) (background : s.world.service.config.cacheRefresh = .background)
    (h : t.CanSpawn s.world) :
    ∃ now r timer, t.HasRead r timer ∧
      ∃ f ∈ (s.perform [.pass now, .look t.key .cache]).world.refreshes, f.record = r ∧
        (f.ticket, t.key) ∈ (s.perform [.pass now, .look t.key .cache]).spawned ∧
        f.CanWrite (s.perform [.pass now, .look t.key .cache]).world := by
  obtain ⟨hfill, htimeout, r, timer, ⟨id, deadline, hpoint⟩, hcheck⟩ := h
  let w : World := { s.world with now := max s.world.now timer.due }
  let w' : World := (w.land none .storeFindById).spawn t.call.ctx t.call.spans r
  have hstride : w.stride t.call.ctx t.call.spans .cache t.point =
      (w', some (.finished (.ok (.record r)))) := by
    rw [hpoint]
    exact World.stride_of_due background hcheck (Nat.le_max_right _ _)
  have hscene : s.perform [.pass timer.due, .look t.key .cache] =
      { s with
        world := w'
        changes := s.changes ++ (w.change? t.call.ctx t.point).toList
        threads := Scene.put s.threads (t.goTo (.finished (.ok (.record r))))
        spawned := s.spawned ++ (w.tickets w').map (·, t.key) } := by
    simp only [Scene.perform, List.foldl, Scene.act, numbered.find_of_mem mem]
    rw [hstride]
  obtain ⟨coeval, -, tracker, refreshes⟩ :=
    (w.land none .storeFindById).spawn_spec t.call.ctx t.call.spans r
  have htickets : w.tracker.next ∈ w.tickets w' := by
    have hnext : w'.tracker.next = w.tracker.next + 1 := congrArg (·.next) tracker
    refine (World.mem_tickets ?_).mpr ⟨Nat.le_refl _, ?_⟩
    · exact hnext ▸ Nat.le_succ _
    · exact hnext ▸ Nat.lt_succ_self _
  refine ⟨timer.due, r, timer, ⟨id, deadline, hpoint⟩, ?_⟩
  rw [hscene]
  refine ⟨_, refreshes ▸ List.mem_append_right _ List.mem_cons_self, rfl, ?_, rfl, ?_, ?_⟩
  · exact List.mem_append_right _ (List.mem_map.mpr ⟨_, htickets, rfl⟩)
  · unfold World.CanFill at hfill ⊢
    rwa [show w'.service = s.world.service from coeval.service]
  · have hgiven : w'.isGiven = s.world.isGiven := by
      funext signal
      rw [World.isGiven, World.isGiven, show w'.given = s.world.given from coeval.given]
    show (t.call.ctx.withTimeout w.now s.world.service.config.refreshTimeout).check w'.isGiven
      w'.now = .ok ()
    rw [hgiven, show w'.now = w.now from coeval.now]
    exact check_withTimeout.mpr ⟨hcheck, htimeout⟩

theorem Thread.HasRead.unique {t : Thread} {r r' : Record} {timer timer' : Timer}
    (h : t.HasRead r timer) (h' : t.HasRead r' timer') : r = r' := by
  obtain ⟨id, deadline, hpoint⟩ := h
  obtain ⟨id', deadline', hpoint'⟩ := h'
  cases hpoint.symm.trans hpoint'
  rfl

/-- Whether the request tells the cache and the event bus of a change. -/
def Point.isTelling : Point → Bool
  | .announcing _ _ _ _ => true
  | _ => false

/-- Whether the request has told the cache of a change. -/
def Point.hasTold : Point → Bool
  | .announcing _ _ cache _ => cache.isTold
  | _ => false

namespace Scene

/-- The request of this number has read the record from the store, and the reply is on its way. -/
def IsReading (s : Scene) (id : RecordId) (key : Nat) : Prop :=
  ∃ t ∈ s.threads, t.key = key ∧ ∃ r timer, t.HasRead r timer ∧ r.id = id

/-- The refresh carries what a request had read of the record by the scene `before`. -/
def Outdated (before s : Scene) (id : RecordId) (r : Refresh) : Prop :=
  r.record.id = id ∧ (r.ticket < before.world.tracker.next ∨
    ∃ key, before.IsReading id key ∧ (r.ticket, key) ∈ s.spawned)

/-- Nothing that had been read of the record by the scene `before` can find its way into the cache,
seen by the request of this number. -/
structure IsSafe (before s : Scene) (id : RecordId) (writer : Nat) : Prop where
  /-- Not by a refresh that another request had taken off the list. -/
  taken : ∀ r ∈ s.world.refreshes, r.record.id = id → r.ticket < before.world.tracker.next →
    (r.ticket ∈ s.forsaken ∨ ∃ t ∈ s.threads, t.key ≠ writer ∧ t.Awaits r) →
    ¬ r.CanWrite s.world
  /-- Not by a refresh whose read had to wait for the reply. -/
  delayed : ∀ r ∈ s.world.refreshes, r.record.id = id →
    (∃ key, before.IsReading id key ∧ (r.ticket, key) ∈ s.spawned) → ¬ r.CanWrite s.world
  /-- Not by a read that still waits for the reply. -/
  waiting : ∀ t ∈ s.threads, before.IsReading id t.key → ¬ t.CanSpawn s.world

/-- A request that is reading goes on to wait for the same reply, or ends. -/
theorem IsReading.onward {s s' : Scene} {id : RecordId} {t : Thread} (numbered : s.Numbered)
    (h : s.IsReading id t.key) (onward : Onward s s') (mem : t ∈ s'.threads)
    (running : t.point.isFinished = false) : ∃ r timer, t.HasRead r timer ∧ r.id = id := by
  obtain ⟨t₀, ht₀, hkey₀, r, timer, hread, hid⟩ := h
  rcases onward.threads t mem with hnew | ⟨t₁, ht₁, hkey₁, -, hsame⟩
  · obtain ⟨hlt, -⟩ := List.getElem?_eq_some_iff.mp (numbered.asked t₀ ht₀)
    omega
  · obtain rfl := numbered.eq_of_key ht₁ ht₀ (hkey₁.trans hkey₀.symm)
    rcases hsame r timer hread with rfl | hfinished
    · exact ⟨r, timer, hread, hid⟩
    · rw [running] at hfinished
      cases hfinished

/-- If there is no way for what had been read before, then nothing of it is ever written. -/
theorem IsSafe.not_writes {s₁ s s' : Scene} {id : RecordId} {writer : Nat}
    (safe : IsSafe s₁ s id writer) (numbered : s₁.Numbered) (onward : Onward s₁ s)
    (onward' : Onward s s') (booked : s.Booked)
    (cleared : ∀ ticket ∈ s.world.tracker.pending id, s₁.world.tracker.next ≤ ticket)
    (settled : ∀ t ∈ s.threads, t.key = writer → t.point.tickets = []) :
    ∀ r ∈ s'.world.refreshes, Outdated s₁ s' id r → ¬ s'.Writes r := by
  rintro r' hr' ⟨hid, hold⟩ hwrites
  have hcan := hwrites.canWrite
  rcases onward'.refreshes r' hr' with ⟨r, hr, hticket, hrecord, hback⟩ | ⟨hlate, hwhose⟩
  · -- the refresh is there already in `s`
    rw [← hrecord] at hid
    rw [← hticket] at hold
    rcases hold with hearly | ⟨key, hreading, hspawned⟩
    · refine safe.taken r hr hid hearly ?_ (hback hcan)
      rcases booked.held r hr with hlisted | hforsaken | ⟨t, ht, hawaits⟩
      · exact absurd (cleared _ (hid ▸ hlisted)) (Nat.not_le.mpr hearly)
      · exact .inl hforsaken
      · refine .inr ⟨t, ht, fun hkey => ?_, hawaits⟩
        have hwaits := hawaits.1
        rw [settled t ht hkey] at hwaits
        cases hwaits
    · refine safe.delayed r hr hid ⟨key, hreading, ?_⟩ (hback hcan)
      rcases onward'.spawned _ hspawned with hspawned | hlate
      · exact hspawned
      · exact absurd (booked.tickets r hr) (Nat.not_lt.mpr hlate)
  · -- the refresh has started since `s`, so its read was still without a reply then
    rcases hold with hearly | ⟨key, hreading, hspawned⟩
    · exact absurd (Nat.lt_of_lt_of_le hearly onward.next) (Nat.not_lt.mpr hlate)
    · rcases hwhose key hspawned with hnew | ⟨t, ht, rfl, hrunning, hspawn⟩
      · obtain ⟨t₀, ht₀, rfl, -⟩ := hreading
        obtain ⟨hlt, -⟩ := List.getElem?_eq_some_iff.mp (numbered.asked t₀ ht₀)
        have hasked := onward.asked
        omega
      · obtain ⟨r, timer, hread, -⟩ := hreading.onward numbered onward ht hrunning
        exact safe.waiting t ht hreading (hspawn r timer hread hcan)

/-- If there is a way for what had been read before, then it can be taken. -/
theorem IsSafe.of_not_writes {s₁ s : Scene} {id : RecordId} {writer : Nat}
    (numbered : s₁.Numbered) (onward : Onward s₁ s) (booked : s.Booked)
    (background : s.world.service.config.cacheRefresh = .background)
    (h : ∀ s', s.Runs s' → ∀ r ∈ s'.world.refreshes, Outdated s₁ s' id r → ¬ s'.Writes r) :
    IsSafe s₁ s id writer where
  taken := fun r hr hid hearly _ hcan => by
    obtain ⟨now, clock, hwrites⟩ := hcan.writes
    have hrun := runs_perform s [.pass now, .setClock clock, .setFaults []]
    exact h _ hrun r hr ⟨hid, .inl hearly⟩ hwrites
  delayed := fun r hr hid hspawned hcan => by
    obtain ⟨now, clock, hwrites⟩ := hcan.writes
    have hrun := runs_perform s [.pass now, .setClock clock, .setFaults []]
    exact h _ hrun r hr ⟨hid, .inr hspawned⟩ hwrites
  waiting := fun t ht hreading hcan => by
    obtain ⟨now, r, timer, hread, f, hf, hrecord, hspawned, hcan⟩ :=
      hcan.spawns booked.numbered ht background
    obtain ⟨now', clock, hwrites⟩ := hcan.writes
    have hrunning : t.point.isFinished = false := by
      obtain ⟨asked, deadline, hpoint⟩ := hread
      rw [hpoint]
      rfl
    obtain ⟨r', timer', hread', hid⟩ := hreading.onward numbered onward ht hrunning
    obtain rfl := hread.unique hread'
    have hrun := Reaches.trans (runs_perform s [.pass now, .look t.key .cache])
      (runs_perform _ [.pass now', .setClock clock, .setFaults []])
    refine h _ hrun f hf ⟨?_, ?_⟩ hwrites
    · rw [hrecord, hid]
    · exact .inr ⟨t.key, hreading, hspawned⟩

/-- A request has updated or deleted a record, and has come to tell the cache of it.  Refreshes that
carry what was read of the record before the change never write from then on, if and only if no
other request had taken one of them off the list that can still write, and no read that the store
had answered by then was, or is, still without its reply. -/
theorem no_outdated_write_iff {s₀ s₁ s : Scene} {t u : Thread} {side : Side}
    {change : DomainEvent} (fresh : s₀.IsFresh)
    (background : s₀.world.service.config.cacheRefresh = .background) (before : s₀.Runs s₁)
    (mem : t ∈ s₁.threads) (made : s₁.world.change? t.call.ctx t.point = some change)
    (later : change.isCreation = false) (after : (s₁.act (.look t.key side)).Runs s)
    (mem' : u ∈ s.threads) (key : u.key = t.key) (busy : u.point.change? = some change)
    (telling : u.point.isTelling = true) :
    (∀ s', s.Runs s' → ∀ r ∈ s'.world.refreshes,
      Outdated s₁ s' change.recordId r → ¬ s'.Writes r) ↔
      IsSafe s₁ s change.recordId t.key := by
  have booked₁ := before.booked fresh
  have hservice : s₁.world.service.config.cacheRefresh = .background := by
    rw [before.service]
    exact background
  have run : s₁.Runs s := Reaches.trans (.act _ .refl trivial) after
  obtain ⟨booked, honward⟩ := run.onward booked₁ hservice
  have hbackground : s.world.service.config.cacheRefresh = .background := by
    rw [run.service]
    exact hservice
  have hasks : t.point.change? = none := by
    cases hpoint : t.point <;> simp_all [World.change?, Point.change?]
  have hcleared := run.isCleared booked₁.numbered mem hasks
  have hsettled : ∀ v ∈ s.threads, v.key = t.key → v.point.tickets = [] := by
    intro v hv hkey
    obtain rfl := booked.numbered.eq_of_key hv mem' (hkey.trans key.symm)
    cases hpoint : v.point <;> simp_all [Point.isTelling, Point.tickets]
  constructor
  · exact IsSafe.of_not_writes booked₁.numbered honward booked hbackground
  · intro safe s' run'
    obtain ⟨-, honward'⟩ := run'.onward booked hbackground
    exact safe.not_writes booked₁.numbered honward honward' booked
      (hcleared.2 u mem' key change busy later) hsettled

/-- A read has left a refresh, and the record is about to be updated. -/
def updateAfterRead : Scene :=
  let id := oldRecord.id
  withOldRecord.perform [.start {} (.get id), .look 0 .cache, .look 0 .cache, .leave 0,
    .start {} (.update id relabeling), .look 1 .cache]

theorem no_outdated_write_after_update :
    let s := (updateAfterRead.act (.look 1 .cache)).perform
      [.look 1 .cache, .turn 0, .look 1 .cache]
    updateAfterRead.world.refreshes.length = 1 ∧
      ∀ s', s.Runs s' → ∀ r ∈ s'.world.refreshes,
        Outdated updateAfterRead s' oldRecord.id r → ¬ s'.Writes r := by
  intro s
  obtain ⟨t, ht, hkey, hmade⟩ : ∃ t ∈ updateAfterRead.threads, t.key = 1 ∧
      updateAfterRead.world.change? t.call.ctx t.point = some (.updated newRecord) := by decide
  obtain ⟨u, hu, hkey', hbusy⟩ : ∃ u ∈ s.threads, u.key = 1 ∧
      u.point.change? = some (.updated newRecord) := by decide
  have htelling : ∀ u ∈ s.threads, u.point.isTelling = true := by decide
  have hleft : s.world.refreshes.length = 0 := by decide
  have hrefreshes : s.world.refreshes = [] := List.length_eq_zero_iff.mp hleft
  have hrun : (updateAfterRead.act (.look t.key .cache)).Runs s := by
    rw [hkey]
    exact runs_perform _ _
  refine ⟨by decide, (no_outdated_write_iff isFresh_withOldRecord rfl (runs_perform _ _) ht hmade
    rfl hrun hu (hkey'.trans hkey.symm) hbusy (htelling u hu)).mpr ⟨?_, ?_, ?_⟩⟩
  · simp [hrefreshes]
  · simp [hrefreshes]
  · intro v hv hreading ⟨_, _, r, timer, ⟨id, deadline, hpoint⟩, _⟩
    have htells := htelling v hv
    rw [hpoint] at htells
    cases htells

/-- Two reads have left a refresh each, an update has taken both off the list but called off only
the first of them, and the record is about to be deleted. -/
def deletionDuringUpdate : Scene :=
  let id := oldRecord.id
  withOldRecord.perform [.start {} (.get id), .look 0 .cache, .look 0 .cache,
    .start {} (.get id), .look 1 .cache, .look 1 .cache,
    .start {} (.update id relabeling), .look 2 .cache, .look 2 .cache, .look 2 .cache,
    .start {} (.delete id)]

/-- When the deletion has told the cache, the second refresh still puts the old record into it. -/
theorem outdated_refresh_writes :
    let s := (deletionDuringUpdate.act (.look 3 .cache)).perform [.look 3 .cache, .look 3 .cache]
    (∃ t ∈ deletionDuringUpdate.threads, t.key = 3 ∧
      deletionDuringUpdate.world.change? t.call.ctx t.point = some (.deleted oldRecord.id)) ∧
    (∃ u ∈ s.threads, u.key = 3 ∧ u.point.hasTold = true) ∧
    (∃ r ∈ s.world.refreshes, Outdated deletionDuringUpdate s oldRecord.id r ∧ s.Writes r) ∧
    (s.act (.turn 1)).world.backend.cache.stored? oldRecord.id = some oldRecord ∧
    (s.act (.turn 1)).world.backend.store.find oldRecord.id = .error (.notFound oldRecord.id) := by
  intro s
  refine ⟨by decide, by decide, ?_, by decide, Store.find_eq_error.mpr ⟨by decide, rfl⟩⟩
  obtain ⟨r, hr, hid, hearly, hlive, hacts, hreply⟩ : ∃ r ∈ s.world.refreshes,
      r.record.id = oldRecord.id ∧ r.ticket < deletionDuringUpdate.world.tracker.next ∧
      r.aborted = false ∧ s.world.acts r.ctx r.call = true ∧
      (s.world.servedNow (.writeCache (.keep r.record))).reply.map Except.toBool = some true := by
    decide
  refine ⟨r, hr, ⟨hid, .inl hearly⟩, hlive, hacts, ?_⟩
  obtain ⟨reply, hreply, hok⟩ := Option.map_eq_some_iff.mp hreply
  cases reply with
  | ok value => exact hreply
  | error e => cases hok

end Scene

end CacheAside.Simulation
