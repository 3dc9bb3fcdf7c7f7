import CacheAside.Proofs.Interleaving.Stride

/-!
# Who can end a refresh

A refresh is on the list of its record until it ends or a writer takes it off.  A writer takes all
refreshes of the record off at once, but calls them off one after another, and if its caller leaves
meanwhile nobody calls off the rest.  So a refresh that has not ended is on the list, or awaited by
a request, or forsaken (`Scene.Booked`).  It is on no other list (`Scene.Listed`).  Once a request
has taken the list, every refresh on it is newer than that (`Scene.IsCleared`).
-/

namespace CacheAside.Simulation

namespace World

/-- What a stride does to the books on refreshes. -/
inductive Booking (w : World) (ctx : Context) : Point → World → Option Point → Prop where
  | rests {p : Point} {w' : World} {p' : Option Point} (tracker : w'.tracker = w.tracker)
      (refreshes : w'.refreshes = w.refreshes) (none : p.tickets = [])
      (still : ∀ q ∈ p', q.tickets = [])
      (busy : ∀ q ∈ p', ∀ change ∈ q.change?, change.isCreation = true ∨ change ∈ p.change?) :
      Booking w ctx p w' p'
  /-- A refresh starts. -/
  | spawns {id : RecordId} {g : Option (Guarded (.find id))} {w₁ w' : World} {r : Record}
      {spans spans' : List Span} (visit : w.visit none ctx spans g = (w₁, .ready (.ok r)))
      (tracker : w'.tracker = (w.tracker.spawn r.id).2)
      (refreshes : w'.refreshes = w.refreshes ++ [{
        ticket := w.tracker.next
        record := r
        ctx := ctx.withTimeout w.now w.service.config.refreshTimeout
        spans := spans' }]) :
      Booking w ctx (.asking (.fetching id) g) w' (some (.finished (.ok (.record r))))
  /-- The refreshes of a record are taken off the list. -/
  | takes {ask : Ask} {g : Option (Guarded ask.call)} {change : DomainEvent} {w' : World}
      (tracker : w'.tracker = (w.tracker.take change.recordId).2)
      (refreshes : w'.refreshes = w.refreshes) :
      Booking w ctx (.asking ask g) w'
        (some (.settling change (w.tracker.pending change.recordId)))
  | settles {change : DomainEvent} {tickets left : List Ticket} {w' : World} {p' : Point}
      (settled : Settled w w' tickets left) (waits : p'.tickets = left)
      (busy : p'.change? = some change) : Booking w ctx (.settling change tickets) w' (some p')

/-- What follows a reply, as far as the books are concerned. -/
theorem Resumed.booking {w w₁ w' : World} {ctx : Context} {spans : List Span} {ask : Ask}
    {g : Option (Guarded ask.call)} {reply : ask.call.Reply} {p : Point}
    (h : Resumed w₁ ctx ask reply w' p) (alike : Alike w w₁)
    (visit : w.visit none ctx spans g = (w₁, .ready reply)) :
    Coeval w w' ∧ Booking w ctx (.asking ask g) w' (some p) := by
  cases h with
  | asks calm quiet next =>
    have halike := alike.trans calm.toAlike
    exact ⟨halike.toCoeval, .rests halike.tracker halike.refreshes rfl (by simp [Point.tickets])
      (by simp [Point.change?])⟩
  | finishes calm quiet next =>
    have halike := alike.trans calm.toAlike
    exact ⟨halike.toCoeval, .rests halike.tracker halike.refreshes rfl (by simp [Point.tickets])
      (by simp [Point.change?])⟩
  | spawns spans' background coeval backend tracker refreshes =>
    rw [alike.tracker] at tracker
    rw [alike.tracker, alike.refreshes, alike.now, alike.service] at refreshes
    exact ⟨alike.toCoeval.trans coeval, .spawns visit tracker refreshes⟩
  | announces =>
    refine ⟨alike.toCoeval, .rests alike.tracker alike.refreshes rfl (by simp [Point.tickets]) ?_⟩
    simp [Point.change?, DomainEvent.isCreation]
  | @settles _ _ change made later =>
    refine ⟨⟨alike.service, alike.now, alike.given⟩, ?_⟩
    rw [alike.tracker]
    exact .takes rfl alike.refreshes

/-- A look at a call leaves the books as they are. -/
theorem Visited.alike {w w' : World} {ctx : Context} {call : PortCall}
    {g : Option (Guarded call)} {poll : Poll call.Reply (Guarded call)}
    (h : Visited w ctx g w' poll) : Alike w w' := by
  cases h with
  | waits calm => exact calm.toAlike
  | fails calm => exact calm.toAlike
  | awaits calm => exact calm.toAlike
  | replies calm => exact calm.toAlike
  | answers alike => exact alike
  | breaks calm => exact calm.toAlike

theorem Strode.booking {w w' : World} {ctx : Context} {spans : List Span} {p : Point}
    {p' : Option Point} (h : Strode w ctx spans p w' p') :
    Coeval w w' ∧ Booking w ctx p w' p' := by
  -- most strides only look at a call
  have hrests {w' : World} {p : Point} {p' : Option Point} (alike : Alike w w')
      (none : p.tickets = []) (still : ∀ q ∈ p', q.tickets = [])
      (busy : ∀ q ∈ p', ∀ change ∈ q.change?, change ∈ p.change?) :
      Coeval w w' ∧ Booking w ctx p w' p' :=
    ⟨alike.toCoeval, .rests alike.tracker alike.refreshes none still
      fun q hq change hchange => .inr (busy q hq change hchange)⟩
  cases h with
  | asksOn visit =>
    exact hrests (visited visit).alike rfl (by simp [Point.tickets]) (by simp [Point.change?])
  | askBreaks visit => exact hrests (visited visit).alike rfl (by simp) (by simp)
  | resumes visit resumed => exact resumed.booking (visited visit).alike visit
  | settlesOn settled => exact ⟨settled.toCoeval, .settles settled rfl rfl⟩
  | settled settled => exact ⟨settled.toCoeval, .settles settled rfl rfl⟩
  | cacheWaits visit =>
    exact hrests (visited visit).alike rfl (by simp [Point.tickets]) (by simp [Point.change?])
  | @cacheTold change _ _ _ w₁ reply visit =>
    have calm := w₁.noteAll_quiet ctx spans (change.quiet_cacheNotes reply)
    exact hrests ((visited visit).alike.trans calm.toAlike) rfl (by simp [Point.tickets])
      (by simp [Point.change?])
  | cacheBreaks visit => exact hrests (visited visit).alike rfl (by simp) (by simp)
  | busWaits visit =>
    exact hrests (visited visit).alike rfl (by simp [Point.tickets]) (by simp [Point.change?])
  | busTold visit =>
    exact hrests (visited visit).alike rfl (by simp [Point.tickets]) (by simp [Point.change?])
  | busBreaks visit => exact hrests (visited visit).alike rfl (by simp) (by simp)
  | skips => exact hrests (Alike.refl w) rfl (by simp [Point.tickets]) (by simp [Point.change?])
  | @concludes change _ written published =>
    have calm := w.noteAll_quiet ctx spans (change.quiet_conclude written published)
    exact hrests calm.toAlike rfl (by simp [Point.tickets]) (by simp [Point.change?])
  | rests => exact hrests (Alike.refl w) rfl (by simp [Point.tickets]) (by simp [Point.change?])

/-- A refresh that is new on some list has started since. -/
theorem Booking.pending {w w' : World} {ctx : Context} {p : Point} {p' : Option Point}
    (h : Booking w ctx p w' p') {id : RecordId} {ticket : Ticket}
    (hticket : ticket ∈ w'.tracker.pending id) :
    ticket ∈ w.tracker.pending id ∨ w.tracker.next ≤ ticket := by
  cases h with
  | rests tracker refreshes => exact .inl (tracker ▸ hticket)
  | spawns visit tracker refreshes =>
    rw [tracker, RefreshTracker.pending_spawn] at hticket
    split at hticket
    · rename_i hid
      rcases List.mem_append.mp hticket with hold | hnew
      · exact .inl (hid ▸ hold)
      · exact .inr (Nat.le_of_eq (List.mem_singleton.mp hnew).symm)
    · exact .inl hticket
  | takes tracker refreshes =>
    rw [tracker, RefreshTracker.pending_take] at hticket
    split at hticket
    · cases hticket
    · exact .inl hticket
  | settles settled => exact .inl (settled.tracker ▸ hticket)

/-- Numbers of refreshes are not given twice. -/
theorem Booking.next_le {w w' : World} {ctx : Context} {p : Point} {p' : Option Point}
    (h : Booking w ctx p w' p') : w.tracker.next ≤ w'.tracker.next := by
  cases h with
  | rests tracker refreshes => exact tracker ▸ Nat.le_refl _
  | spawns visit tracker refreshes => exact tracker ▸ Nat.le_succ _
  | takes tracker refreshes => exact tracker ▸ Nat.le_refl _
  | settles settled => exact settled.tracker ▸ Nat.le_refl _

theorem mem_tickets {w w' : World} (h : w.tracker.next ≤ w'.tracker.next) {ticket : Ticket} :
    ticket ∈ w.tickets w' ↔ w.tracker.next ≤ ticket ∧ ticket < w'.tracker.next := by
  rw [tickets, List.mem_range'_1, Nat.add_sub_cancel' h]

/-- What the turn of a refresh does to the books. -/
structure Turning (w w' : World) (r : Refresh) : Prop extends Coeval w w' where
  next : w'.tracker.next = w.tracker.next
  pending : ∀ id, ∀ ticket ∈ w'.tracker.pending id, ticket ∈ w.tracker.pending id
  refreshes : ∀ f ∈ w'.refreshes, f ∈ w.refreshes ∨
    ∃ g w₁, f = { r with call := some g } ∧
      w.visit (some r.ticket) r.ctx r.spans r.call = (w₁, .pending g)
  /-- Only the refresh itself goes off the list, and only when it has ended. -/
  listed : ∀ f ∈ w'.refreshes, ∀ id, f.ticket ∈ w.tracker.pending id →
    f.ticket ∈ w'.tracker.pending id

theorem Ended.turning {w w₁ w' : World} {r : Refresh} (h : Ended w₁ w' r.ticket)
    (alike : Alike w w₁)
    (tracker : w'.tracker = w₁.tracker ∨ w'.tracker = w₁.tracker.finish r.record.id r.ticket) :
    Turning w w' r := by
  have hcoeval := alike.toCoeval.trans h.toCoeval
  have hleft : ∀ f ∈ w'.refreshes, f ∈ w.refreshes ∧ f.ticket ≠ r.ticket := by
    intro f hf
    rw [h.refreshes, alike.refreshes] at hf
    simpa using hf
  rw [alike.tracker] at tracker
  rcases tracker with tracker | tracker
  · exact ⟨hcoeval, by rw [tracker], fun id ticket ht => tracker ▸ ht,
      fun f hf => .inl (hleft f hf).1, fun f _ id ht => tracker ▸ ht⟩
  · refine ⟨hcoeval, by rw [tracker, RefreshTracker.next_finish], fun id ticket ht => ?_,
      fun f hf => .inl (hleft f hf).1, fun f hf id ht => ?_⟩
    · rw [tracker, RefreshTracker.pending_finish] at ht
      split at ht
      · rename_i hid
        exact hid ▸ (List.mem_filter.mp ht).1
      · exact ht
    · rw [tracker, RefreshTracker.pending_finish]
      split
      · rename_i hid
        exact List.mem_filter.mpr ⟨hid ▸ ht, by simpa using (hleft f hf).2⟩
      · exact ht

theorem Turned.turning {w w' : World} {r : Refresh} (h : Turned w r w') : Turning w w' r := by
  cases h with
  | calledOff aborted ended tracker => exact ended.turning (Alike.refl w) (.inl tracker)
  | @waits w₁ g live visit =>
    have alike := (visited visit).alike
    refine ⟨⟨alike.service, alike.now, alike.given⟩, congrArg (·.next) alike.tracker,
      fun id ticket ht => alike.tracker ▸ ht, fun f hf => ?_, fun f _ id ht => ?_⟩
    · obtain ⟨f', hf', rfl⟩ := List.mem_map.mp hf
      split
      · exact .inr ⟨g, w₁, rfl, visit⟩
      · exact .inl (alike.refreshes ▸ hf')
    · rw [← alike.tracker] at ht
      exact ht
  | ends live visit ended tracker => exact ended.turning (visited visit).alike (.inr tracker)
  | breaks live visit ended tracker => exact ended.turning (visited visit).alike (.inl tracker)

end World

/-- The request has changed the record of the refresh, and waits for the refresh to end. -/
def Thread.Awaits (t : Thread) (r : Refresh) : Prop :=
  r.ticket ∈ t.point.tickets ∧ ∃ change, t.point.change? = some change ∧
    change.recordId = r.record.id

namespace Scene

/-- Nothing that goes on changes how the service is set up. -/
theorem Step.service {s s' : Scene} (step : Step s s') : s'.world.service = s.world.service := by
  cases step with
  | start ctx request => exact congrArg (·.service) (s.world.openCall_spec ctx request).1
  | stride side mem eq => exact (World.strode eq).booking.1.service
  | breakDown side mem eq => exact (World.strode eq).untouched.service
  | leave mem => rfl
  | turn mem => exact (s.world.turn_spec _).turning.service
  | elapse elapsed => exact elapsed.service

theorem Reaches.service {allowed : Scene → Scene → Prop} {s₀ s : Scene}
    (run : Reaches allowed s₀ s) : s.world.service = s₀.world.service := by
  induction run with
  | refl => rfl
  | act a run h ih => exact (step_act _ a).service.trans ih

/-- What holds of the refreshes in every interleaving. -/
structure Booked (s : Scene) : Prop where
  numbered : s.Numbered
  tickets : ∀ r ∈ s.world.refreshes, r.ticket < s.world.tracker.next
  spawned : ∀ e ∈ s.spawned, e.1 < s.world.tracker.next
  /-- A refresh that has not ended is on the list of its record, or its caller has left who had
  taken it off, or a request that has changed the record waits for it. -/
  held : ∀ r ∈ s.world.refreshes, r.ticket ∈ s.world.tracker.pending r.record.id ∨
    r.ticket ∈ s.forsaken ∨ ∃ t ∈ s.threads, t.Awaits r

namespace Booked

variable {s s' : Scene} {t : Thread}

/-- A request makes a stride. -/
theorem stride (h : s.Booked) (mem : t ∈ s.threads) {w : World} {p : Point}
    {changes : List DomainEvent}
    (booking : World.Booking s.world t.call.ctx t.point w (some p)) :
    Booked { s with
      world := w
      threads := put s.threads (t.goTo p)
      changes
      spawned := s.spawned ++ (s.world.tickets w).map (·, t.key) } := by
  have hnext := booking.next_le
  have hspawned : ∀ e ∈ s.spawned ++ (s.world.tickets w).map (·, t.key),
      e.1 < w.tracker.next := by
    intro e he
    rcases List.mem_append.mp he with hold | hnew
    · exact Nat.lt_of_lt_of_le (h.spawned e hold) hnext
    · obtain ⟨ticket, hticket, rfl⟩ := List.mem_map.mp hnew
      exact ((World.mem_tickets hnext).mp hticket).2
  have hother {r : Refresh} {u : Thread} (hu : u ∈ s.threads) (hkey : u.key ≠ t.key)
      (hawaits : u.Awaits r) : ∃ u ∈ put s.threads (t.goTo p), u.Awaits r :=
    ⟨u, mem_put_of_ne hu hkey, hawaits⟩
  -- a refresh that a request waits for is awaited by this one or by another
  have hheld {r : Refresh} (hr : r ∈ s.world.refreshes) :
      r.ticket ∈ s.world.tracker.pending r.record.id ∨ r.ticket ∈ s.forsaken ∨ t.Awaits r ∨
        ∃ u ∈ put s.threads (t.goTo p), u.Awaits r := by
    rcases h.held r hr with hlisted | hforsaken | hawaited
    · exact .inl hlisted
    · exact .inr (.inl hforsaken)
    · rcases h.numbered.mine_or_other mem hawaited with hmine | ⟨u, hu, hkey, hawaits⟩
      · exact .inr (.inr (.inl hmine))
      · exact .inr (.inr (.inr (hother hu hkey hawaits)))
  generalize hpoint : t.point = q at booking
  cases booking with
  | rests tracker refreshes none still busy =>
    refine ⟨h.numbered.goTo mem, fun r hr => ?_, hspawned, fun r hr => ?_⟩
    · exact tracker ▸ h.tickets r (refreshes ▸ hr)
    · rw [tracker]
      rcases hheld (refreshes ▸ hr) with hlisted | hforsaken | ⟨hticket, -⟩ | hawaited
      · exact .inl hlisted
      · exact .inr (.inl hforsaken)
      · rw [hpoint, none] at hticket
        cases hticket
      · exact .inr (.inr hawaited)
  | spawns visit tracker refreshes =>
    refine ⟨h.numbered.goTo mem, fun r hr => ?_, hspawned, fun r hr => ?_⟩
    · rw [refreshes] at hr
      rcases List.mem_append.mp hr with hold | hnew
      · exact Nat.lt_of_lt_of_le (h.tickets r hold) hnext
      · obtain rfl := List.mem_singleton.mp hnew
        exact tracker ▸ Nat.lt_succ_self _
    · rw [refreshes] at hr
      rw [tracker, RefreshTracker.pending_spawn]
      rcases List.mem_append.mp hr with hold | hnew
      · rcases hheld hold with hlisted | hforsaken | ⟨hticket, -⟩ | hawaited
        · left
          split
          · rename_i hid
            exact List.mem_append_left _ (hid ▸ hlisted)
          · exact hlisted
        · exact .inr (.inl hforsaken)
        · rw [hpoint] at hticket
          cases hticket
        · exact .inr (.inr hawaited)
      · obtain rfl := List.mem_singleton.mp hnew
        simp
  | @takes ask g change _ tracker refreshes =>
    refine ⟨h.numbered.goTo mem, fun r hr => ?_, hspawned, fun r hr => ?_⟩
    · exact Nat.lt_of_lt_of_le (h.tickets r (refreshes ▸ hr)) hnext
    · rw [tracker, RefreshTracker.pending_take]
      rcases hheld (refreshes ▸ hr) with hlisted | hforsaken | ⟨hticket, -⟩ | hawaited
      -- what was on the list of the changed record is awaited from now on
      · by_cases hid : r.record.id = change.recordId
        · exact .inr (.inr ⟨_, mem_put_self mem rfl, hid ▸ hlisted, change, rfl, hid.symm⟩)
        · exact .inl (by rwa [if_neg hid])
      · exact .inr (.inl hforsaken)
      · rw [hpoint] at hticket
        cases hticket
      · exact .inr (.inr hawaited)
  | @settles change tickets left _ _ settled waits busy =>
    have hkept (r : Refresh) (hr : r ∈ s.world.refreshes) :
        r.ticket ∈ w.tracker.pending r.record.id ∨ r.ticket ∈ s.forsaken ∨
          ∃ u ∈ put s.threads (t.goTo p), u.Awaits r := by
      rw [settled.tracker]
      rcases hheld hr with hlisted | hforsaken | ⟨hticket, c, hc, hid⟩ | hawaited
      · exact .inl hlisted
      · exact .inr (.inl hforsaken)
      · rw [hpoint] at hticket hc
        cases hc
        -- the refresh has not ended, so it has not been crossed off
        have hleft := settled.alive r hr hticket
        exact .inr (.inr ⟨_, mem_put_self mem rfl, waits ▸ hleft, change, busy, hid⟩)
      · exact .inr (.inr hawaited)
    refine ⟨h.numbered.goTo mem, fun f hf => ?_, hspawned, fun f hf => ?_⟩
    · rw [settled.tracker]
      obtain ⟨r, hr, rfl | ⟨-, rfl⟩⟩ := settled.refreshes f hf
      · exact h.tickets f hr
      · exact h.tickets r hr
    · obtain ⟨r, hr, rfl | ⟨-, rfl⟩⟩ := settled.refreshes f hf
      · exact hkept f hr
      · exact hkept r hr

/-- A request goes away, and whatever it waited for is forsaken. -/
theorem without (h : s.Booked) {w : World} {changes : List DomainEvent} {forsaken : List Ticket}
    (mem : t ∈ s.threads) (tracker : w.tracker = s.world.tracker)
    (refreshes : w.refreshes = s.world.refreshes)
    (more : ∀ ticket ∈ s.forsaken, ticket ∈ forsaken)
    (mine : ∀ ticket ∈ t.point.tickets, ticket ∈ forsaken) :
    Booked { s with
      world := w, threads := s.threads.filter (·.key ≠ t.key), changes, forsaken } where
  numbered := h.numbered.without t.key
  tickets := fun r hr => tracker ▸ h.tickets r (refreshes ▸ hr)
  spawned := fun e he => tracker ▸ h.spawned e he
  held := fun r hr => by
    rw [tracker]
    rcases h.held r (refreshes ▸ hr) with hlisted | hforsaken | hawaited
    · exact .inl hlisted
    · exact .inr (.inl (more _ hforsaken))
    · rcases h.numbered.mine_or_other mem hawaited with ⟨hticket, -⟩ | ⟨u, hu, hkey, hother⟩
      -- nobody waits any more for what this request waited for
      · exact .inr (.inl (mine _ hticket))
      · exact .inr (.inr ⟨u, List.mem_filter.mpr ⟨hu, by simpa using hkey⟩, hother⟩)

theorem step (h : s.Booked) (step : Step s s') : s'.Booked := by
  have numbered := h.numbered.step step
  cases step with
  | start ctx request =>
    have hworld := (s.world.openCall_spec ctx request).1
    refine ⟨numbered, ?_, ?_, ?_⟩
    · simpa [hworld] using h.tickets
    · simpa [hworld] using h.spawned
    · intro r hr
      rw [hworld] at hr ⊢
      refine (h.held r hr).imp_right (.imp_right ?_)
      exact fun ⟨u, hu, hawaits⟩ => ⟨u, List.mem_append_left _ hu, hawaits⟩
  | stride side mem eq => exact h.stride mem (World.strode eq).booking.2
  | breakDown side mem eq =>
    have hstrode := World.strode eq
    have calm := hstrode.untouched
    refine h.without mem calm.tracker calm.refreshes (fun _ ht => ht) ?_
    generalize Thread.point _ = q at hstrode
    cases hstrode <;> simp [Point.tickets]
  | leave mem =>
    exact h.without mem rfl rfl (fun _ => List.mem_append_left _)
      fun _ => List.mem_append_right _
  | @turn r mem =>
    have hturning := (s.world.turn_spec r).turning
    -- a turn may move the call of a refresh, but not what it carries
    have hsame : ∀ f ∈ (s.world.turn r).1.refreshes, ∃ f₀ ∈ s.world.refreshes,
        f.ticket = f₀.ticket ∧ f.record = f₀.record := by
      intro f hf
      rcases hturning.refreshes f hf with hold | ⟨g, w₁, rfl, -⟩
      · exact ⟨f, hold, rfl, rfl⟩
      · exact ⟨r, mem, rfl, rfl⟩
    refine ⟨numbered, fun f hf => ?_, fun e he => hturning.next ▸ h.spawned e he, fun f hf => ?_⟩
    · obtain ⟨f₀, hf₀, hticket, -⟩ := hsame f hf
      rw [hticket, hturning.next]
      exact h.tickets f₀ hf₀
    · obtain ⟨f₀, hf₀, hticket, hrecord⟩ := hsame f hf
      rcases h.held f₀ hf₀ with hlisted | hforsaken | ⟨u, hu, hwaits, change, hchange, hid⟩
      · rw [← hticket, ← hrecord] at hlisted
        exact .inl (hturning.listed f hf _ hlisted)
      · exact .inr (.inl (hticket ▸ hforsaken))
      · exact .inr (.inr ⟨u, hu, hticket ▸ hwaits, change, hchange, hid.trans (by rw [hrecord])⟩)
  | elapse elapsed =>
    refine ⟨numbered, fun r hr => ?_, fun e he => ?_, fun r hr => ?_⟩
    · exact elapsed.tracker ▸ h.tickets r (elapsed.refreshes ▸ hr)
    · exact elapsed.tracker ▸ h.spawned e he
    · rw [elapsed.tracker]
      exact h.held r (elapsed.refreshes ▸ hr)

end Booked

theorem Reaches.booked {allowed : Scene → Scene → Prop} {s₀ s : Scene} (fresh : s₀.IsFresh)
    (run : Reaches allowed s₀ s) : s.Booked :=
  run.induct ⟨⟨by simp [fresh.threads], by simp [fresh.threads]⟩, by simp [fresh.refreshes],
    by simp [fresh.spawned], by simp [fresh.refreshes]⟩ fun s a h _ => h.step (s.step_act a)

/-! ## Whose refreshes are on a list -/

/-- A refresh is on no list but that of its record. -/
structure Listed (s : Scene) : Prop where
  booked : s.Booked
  early : ∀ id, ∀ ticket ∈ s.world.tracker.pending id, ticket < s.world.tracker.next
  own : ∀ r ∈ s.world.refreshes, ∀ id, r.ticket ∈ s.world.tracker.pending id → r.record.id = id

namespace Listed

variable {s s' : Scene}

/-- No refresh is new, and none is new on a list. -/
theorem of_fewer (h : s.Listed) (booked : s'.Booked)
    (next : s'.world.tracker.next = s.world.tracker.next)
    (pending : ∀ id, ∀ ticket ∈ s'.world.tracker.pending id, ticket ∈ s.world.tracker.pending id)
    (refreshes : ∀ r' ∈ s'.world.refreshes, ∃ r ∈ s.world.refreshes,
      r'.ticket = r.ticket ∧ r'.record = r.record) : s'.Listed where
  booked := booked
  early := fun id ticket ht => next ▸ h.early id ticket (pending id ticket ht)
  own := fun r' hr' id ht => by
    obtain ⟨r, hr, hticket, hrecord⟩ := refreshes r' hr'
    rw [hrecord]
    exact h.own r hr id (hticket ▸ pending id _ ht)

/-- A new refresh bears a number that is on no list yet. -/
theorem spawn (h : s.Listed) (booked : s'.Booked) {r : Refresh}
    (ticket : r.ticket = s.world.tracker.next)
    (tracker : s'.world.tracker = (s.world.tracker.spawn r.record.id).2)
    (refreshes : s'.world.refreshes = s.world.refreshes ++ [r]) : s'.Listed where
  booked := booked
  early := fun id n hn => by
    rw [tracker, RefreshTracker.pending_spawn] at hn
    rw [tracker]
    refine Nat.lt_succ_of_le ?_
    split at hn
    · rcases List.mem_append.mp hn with hold | hnew
      · exact Nat.le_of_lt (h.early _ n hold)
      · exact Nat.le_of_eq (List.mem_singleton.mp hnew)
    · exact Nat.le_of_lt (h.early id n hn)
  own := fun f hf id hid => by
    rw [tracker, RefreshTracker.pending_spawn] at hid
    rw [refreshes] at hf
    rcases List.mem_append.mp hf with hold | hnew
    · have hearly := h.booked.tickets f hold
      split at hid
      · rename_i heq
        rcases List.mem_append.mp hid with hlisted | hlast
        · exact (h.own f hold _ hlisted).trans heq.symm
        -- an old refresh does not bear the number of the new one
        · exact absurd (List.mem_singleton.mp hlast) (Nat.ne_of_lt hearly)
      · exact h.own f hold id hid
    · obtain rfl := List.mem_singleton.mp hnew
      split at hid
      · rename_i heq
        exact heq.symm
      · exact absurd ticket (Nat.ne_of_lt (h.early id _ hid))

theorem step (h : s.Listed) (step : Step s s') : s'.Listed := by
  have booked := h.booked.step step
  cases step with
  | start ctx request =>
    have hworld := (s.world.openCall_spec ctx request).1
    refine h.of_fewer booked ?_ ?_ ?_ <;> simp only [hworld]
    · exact fun _ _ ht => ht
    · exact fun r hr => ⟨r, hr, rfl, rfl⟩
  | @stride t w p side mem eq =>
    have booking := (World.strode eq).booking.2
    generalize t.point = q at booking booked ⊢
    cases booking with
    | rests tracker refreshes =>
      refine h.of_fewer booked (congrArg (·.next) tracker) (fun _ _ ht => tracker ▸ ht) ?_
      exact fun r hr => ⟨r, refreshes ▸ hr, rfl, rfl⟩
    | spawns visit tracker refreshes => exact h.spawn booked rfl tracker refreshes
    | takes tracker refreshes =>
      refine h.of_fewer booked (congrArg (·.next) tracker) (fun id ticket ht => ?_) ?_
      · rw [tracker, RefreshTracker.pending_take] at ht
        split at ht
        · cases ht
        · exact ht
      · exact fun r hr => ⟨r, refreshes ▸ hr, rfl, rfl⟩
    | settles settled =>
      refine h.of_fewer booked (congrArg (·.next) settled.tracker)
        (fun _ _ ht => settled.tracker ▸ ht) fun r' hr' => ?_
      obtain ⟨r, hr, rfl | ⟨-, rfl⟩⟩ := settled.refreshes r' hr'
      · exact ⟨r', hr, rfl, rfl⟩
      · exact ⟨r, hr, rfl, rfl⟩
  | breakDown side mem eq =>
    have calm := (World.strode eq).untouched
    refine h.of_fewer booked (congrArg (·.next) calm.tracker) (fun _ _ ht => calm.tracker ▸ ht) ?_
    exact fun r hr => ⟨r, calm.refreshes ▸ hr, rfl, rfl⟩
  | leave mem => exact h.of_fewer booked rfl (fun _ _ ht => ht) fun r hr => ⟨r, hr, rfl, rfl⟩
  | @turn r mem =>
    have hturning := (s.world.turn_spec r).turning
    refine h.of_fewer booked hturning.next hturning.pending fun f hf => ?_
    rcases hturning.refreshes f hf with hold | ⟨g, w₁, rfl, -⟩
    · exact ⟨f, hold, rfl, rfl⟩
    · exact ⟨r, mem, rfl, rfl⟩
  | elapse elapsed =>
    refine h.of_fewer booked (congrArg (·.next) elapsed.tracker)
      (fun _ _ ht => elapsed.tracker ▸ ht) ?_
    exact fun r hr => ⟨r, elapsed.refreshes ▸ hr, rfl, rfl⟩

end Listed

theorem Reaches.listed {allowed : Scene → Scene → Prop} {s₀ s : Scene} (fresh : s₀.IsFresh)
    (run : Reaches allowed s₀ s) : s.Listed := by
  refine run.induct ⟨Reaches.booked fresh (.refl : s₀.Runs s₀), fun id ticket ht => ?_, ?_⟩
    fun s a h _ => h.step (s.step_act a)
  · simp [RefreshTracker.pending, fresh.slots] at ht
  · simp [fresh.refreshes]

/-! ## Lists that were taken -/

/-- Whatever change the request of this number is busy with, all refreshes on the list of the record
have started since `first`. -/
def IsCleared (s : Scene) (key : Nat) (first : Ticket) : Prop :=
  first ≤ s.world.tracker.next ∧
    ∀ t ∈ s.threads, t.key = key → ∀ change ∈ t.point.change?, change.isCreation = false →
      ∀ ticket ∈ s.world.tracker.pending change.recordId, first ≤ ticket

theorem IsCleared.step {s s' : Scene} {key : Nat} {first : Ticket} (h : s.IsCleared key first)
    (step : Step s s') : s'.IsCleared key first := by
  cases step with
  | start ctx request =>
    obtain ⟨hworld, hpoint⟩ := s.world.openCall_spec ctx request
    refine ⟨by rw [hworld]; exact h.1, fun t ht hkey change hchange => ?_⟩
    rw [hworld]
    rcases List.mem_append.mp ht with hold | hnew
    · exact h.2 t hold hkey change hchange
    · obtain rfl := List.mem_singleton.mp hnew
      have hnone : (s.world.openCall ctx request).2.point.change? = none := by
        rcases hpoint with ⟨ask, -, hask⟩ | ⟨outcome, -, hfinished⟩
        · rw [hask]
          rfl
        · rw [hfinished]
          rfl
      cases hnone.symm.trans hchange
  | @stride t w p side mem eq =>
    have booking := (World.strode eq).booking.2
    refine ⟨Nat.le_trans h.1 booking.next_le, fun u hu hkey c hc later ticket hticket => ?_⟩
    rcases mem_put hu with rfl | ⟨hu, -⟩
    · -- the request itself has just taken the list, or goes on with a change whose list it took
      have hmine := h.2 t mem hkey c
      generalize hpoint : t.point = q at booking hmine
      cases booking with
      | rests tracker refreshes none still busy =>
        rcases busy _ rfl c hc with hcreation | hbusy
        · rw [later] at hcreation
          cases hcreation
        · exact hmine hbusy later ticket (tracker ▸ hticket)
      | spawns => cases hc
      | takes tracker refreshes =>
        cases hc
        rw [tracker, RefreshTracker.pending_take, if_pos rfl] at hticket
        cases hticket
      | settles settled waits busy =>
        exact hmine (busy.symm.trans hc) later ticket (settled.tracker ▸ hticket)
    · -- the others can only put new refreshes on the list
      rcases booking.pending hticket with hold | hnew
      · exact h.2 u hu hkey c hc later ticket hold
      · exact Nat.le_trans h.1 hnew
  | breakDown side mem eq =>
    have tracker := (World.strode eq).untouched.tracker
    refine ⟨tracker ▸ h.1, fun u hu hkey c hc later ticket hticket => ?_⟩
    exact h.2 u (List.mem_filter.mp hu).1 hkey c hc later ticket (tracker ▸ hticket)
  | leave mem => exact ⟨h.1, fun u hu => h.2 u (List.mem_filter.mp hu).1⟩
  | @turn r mem =>
    have hturning := (s.world.turn_spec r).turning
    refine ⟨hturning.next ▸ h.1, fun u hu hkey c hc later ticket hticket => ?_⟩
    exact h.2 u hu hkey c hc later ticket (hturning.pending _ ticket hticket)
  | elapse elapsed =>
    refine ⟨elapsed.tracker ▸ h.1, fun u hu hkey c hc later ticket hticket => ?_⟩
    exact h.2 u hu hkey c hc later ticket (elapsed.tracker ▸ hticket)

/-- A request that asks a question has cleared no list yet, so it will have cleared the list of
whatever record it changes later. -/
theorem Reaches.isCleared {allowed : Scene → Scene → Prop} {s s' : Scene} {t : Thread}
    (numbered : s.Numbered) (mem : t ∈ s.threads) (asks : t.point.change? = none)
    (run : Reaches allowed s s') : s'.IsCleared t.key s.world.tracker.next := by
  have hinit : s.IsCleared t.key s.world.tracker.next := by
    refine ⟨Nat.le_refl _, fun u hu hkey change hchange => ?_⟩
    rw [numbered.eq_of_key hu mem hkey, asks] at hchange
    cases hchange
  induction run with
  | refl => exact hinit
  | act a run allowed ih => exact ih.step (step_act _ a)

end Scene

end CacheAside.Simulation
