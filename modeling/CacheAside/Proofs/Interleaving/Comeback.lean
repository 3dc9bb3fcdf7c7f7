import CacheAside.Proofs.Interleaving.Revival
import CacheAside.Proofs.Time

/-!
# How a deleted record comes back

A request that can keep a record, and a refresh that can write one, need nothing but time for it:
in some run in which nothing more is asked, the record gets an entry that counts
(`Scene.comes_of_canKeep`, `Scene.comes_of_canWrite`).  A request to get the record that starts then
finds it (`Scene.Comes.found`).
-/

namespace CacheAside

namespace Timestamp

/-- It is the first moment that can be told. -/
def IsFirst (t : Timestamp) : Prop :=
  t.day = firstDay ∧ t.second = 0 ∧ t.nano = 0

theorem exists_isFirst : ∃ t : Timestamp, t.IsFirst :=
  ⟨⟨firstDay, 0, 0, by decide, by decide, by decide, by decide, by decide⟩, rfl, rfl, rfl⟩

theorem IsFirst.lt {first t : Timestamp} (h : first.IsFirst) (other : ¬ t.IsFirst) : first < t := by
  obtain ⟨hday, hsecond, hnano⟩ := h
  have hle := t.firstDay_le
  rw [lt_iff]
  simp only [IsFirst] at other
  omega

/-- What lies some seconds after another moment is not the first. -/
theorem not_isFirst_shift? {t t' : Timestamp} {seconds : Nat} (pos : 0 < seconds)
    (moved : t.shift? (seconds * nanosPerSecond : Nat) = some t') : ¬ t'.IsFirst := by
  rintro ⟨hday, hsecond, -⟩
  have hlater := t.shift?_seconds pos
  rw [moved] at hlater
  have hfirst := t.firstDay_le
  simp only [unixSeconds, secondsPerDay] at hlater
  omega

end Timestamp

/-- A record that is kept has an entry until its expiry. -/
theorem Backend.entry_serve_keep {b : Backend} {c : Circumstances} {r : Record} {moment : Timestamp}
    (h : Cache.expiry c.now c.ttl = .ok moment) :
    (b.serve c (.writeCache (.keep r))).backend.cache.entries.get? r.id = some ⟨r, moment⟩ := by
  rw [serve_keep_of_expiry h]
  exact Table.get?_insert_self ..

namespace Simulation

/-- A moment at which an entry is made so that there is an earlier one. -/
theorem World.CanFill.early {w : World} (h : w.CanFill) :
    ∃ clock moment early, Cache.expiry clock (w.service.config.cacheTtl * nanosPerSecond) =
      .ok moment ∧ early < moment := by
  obtain ⟨clock, moment, hexpiry⟩ := h
  obtain ⟨first, hisFirst⟩ := Timestamp.exists_isFirst
  by_cases hfirst : moment.IsFirst
  · have hzero : w.service.config.cacheTtl = 0 := by
      refine Nat.eq_zero_of_not_pos fun hpos => ?_
      simp only [Cache.expiry] at hexpiry
      split at hexpiry
      · cases hexpiry
      · split at hexpiry
        · rename_i hshift
          cases hexpiry
          exact Timestamp.not_isFirst_shift? hpos hshift hfirst
        · cases hexpiry
    rw [hzero]
    refine ⟨Scene.firstMoment, Scene.firstMoment, first, rfl, hisFirst.lt fun h => ?_⟩
    exact absurd h.1 (by decide)
  · exact ⟨clock, moment, first, hexpiry, hisFirst.lt hfirst⟩

namespace World

variable {w : World} {ctx : Context}

/-- Whatever may act does so when some time has passed, if no faults are to come. -/
theorem MayAct.acts {call : PortCall} {g : Option (Guarded call)} (h : w.MayAct ctx g) :
    ∃ now, ∀ clock,
      World.acts { w with now := max w.now now, clock, faults := [] } ctx g = true := by
  match g with
  | none =>
    refine ⟨w.now, fun clock => acts_none ?_ rfl⟩
    show ctx.check w.isGiven (max w.now w.now) = .ok ()
    rw [Nat.max_self]
    exact h
  | some ⟨_, .before fault none⟩ => exact h.elim
  | some ⟨_, .after reply timer⟩ => exact h.elim
  | some ⟨_, .before fault (some timer)⟩ =>
    obtain ⟨hacts, hcheck⟩ := h
    refine ⟨timer.due, fun clock => ?_⟩
    have hchecked : World.check
        { w with now := max w.now timer.due, clock, faults := [] } ctx = .ok () := hcheck
    simp only [World.acts, hchecked, Except.toBool, faultOf, hacts, Bool.true_and, Bool.and_true]
    exact decide_eq_true (Nat.le_max_right _ _)

/-- A request goes on with a reply as soon as it gets it. -/
theorem stride_of_ready {w₁ : World} {spans : List Span} (side : Side) {ask : Ask}
    {g : Option (Guarded ask.call)} {reply : ask.call.Reply}
    (visit : w.visit none ctx spans g = (w₁, .ready reply)) :
    w.stride ctx spans side (.asking ask g) =
      (((w₁.noteAll ctx spans (w₁.service.resume ask reply).1).reach
          (w₁.service.resume ask reply).2).1,
        some ((w₁.noteAll ctx spans (w₁.service.resume ask reply).1).reach
          (w₁.service.resume ask reply).2).2) := by
  simp only [stride, move, visit]

/-- A reply comes as soon as it is due. -/
theorem visit_of_due {call : PortCall} {owner : Owner} {spans : List Span} {deadline : Option Timer}
    {reply : call.Reply} {timer : Timer} (hcheck : w.check ctx = .ok ())
    (hdue : timer.due ≤ w.now) :
    w.visit owner ctx spans (some ⟨deadline, .after reply timer⟩) =
      (w.land owner call.port, .ready reply) := by
  simp only [visit, revisit, hcheck, follow, hdue, keepDeadline, if_true]

/-- A call that no fault waits for replies at once. -/
theorem ready_of_calm {w₁ : World} {call : PortCall} {owner : Owner} {spans : List Span}
    {reply : call.Reply} {poll : Poll call.Reply (Guarded call)} (hcheck : w.check ctx = .ok ())
    (hfaults : w.faults = []) (served : (w.servedNow call).reply = some reply)
    (visit : w.visit owner ctx spans none = (w₁, poll)) : poll = .ready reply := by
  have hacts : w.acts ctx (none : Option (Guarded call)) = true := acts_none hcheck hfaults
  have hfault : w.faultOf (none : Option (Guarded call)) = {} := by
    simp [faultOf, takeFault_fst, hfaults]
  cases visited visit with
  | waits calm still => cases hacts.symm.trans still
  | fails calm still => cases hacts.symm.trans still
  | awaits calm still => cases hacts.symm.trans still
  | replies calm still => cases hacts.symm.trans still
  | breaks calm acted broken => cases broken.symm.trans served
  | answers alike acted fresh backend answer decided ready =>
    obtain rfl := Option.some.inj (answer.symm.trans served)
    rw [hfault] at ready
    exact ready rfl

theorem Coeval.check {w' : World} (h : Coeval w w') (hcheck : w.check ctx = .ok ()) :
    w'.check ctx = .ok () := by
  have hgiven : w'.isGiven = w.isGiven := by
    funext signal
    rw [isGiven, isGiven, h.given]
  rw [World.check, hgiven, h.now]
  exact hcheck

theorem Coeval.canFill {w' : World} (h : Coeval w w') (fill : w.CanFill) : w'.CanFill := by
  unfold CanFill at fill ⊢
  rwa [h.service]

/-- Waiting for refreshes starts and ends none. -/
theorem map_ticket_settle (w : World) (tickets : List Ticket) :
    (w.settle tickets).1.refreshes.map (·.ticket) = w.refreshes.map (·.ticket) := by
  induction tickets with
  | nil => rfl
  | cons ticket tickets ih =>
    simp only [settle]
    split
    · rw [(w.abort_spec ticket).2.2.2, List.map_map]
      refine List.map_congr_left fun r _ => ?_
      simp only [Function.comp_apply]
      split <;> rfl
    · exact ih

end World

namespace Scene

variable {s s' : Scene} {t : Thread} {id : RecordId}

/-! ## Numbers of refreshes -/

/-- No two refreshes bear the same number. -/
def Distinct (s : Scene) : Prop :=
  (s.world.refreshes.map (·.ticket)).Nodup

theorem Distinct.find_of_mem (h : s.Distinct) {r : Refresh} (mem : r ∈ s.world.refreshes) :
    s.world.refreshes.find? (·.ticket = r.ticket) = some r := by
  rw [Distinct] at h
  generalize s.world.refreshes = refreshes at h mem
  induction refreshes with
  | nil => cases mem
  | cons f refreshes ih =>
    obtain ⟨hnew, hrest⟩ := List.nodup_cons.mp h
    rcases List.mem_cons.mp mem with rfl | hmem
    · simp
    · have hne : f.ticket ≠ r.ticket := fun heq =>
        hnew (List.mem_map.mpr ⟨r, hmem, heq.symm⟩)
      rw [List.find?_cons_of_neg (by simpa using hne)]
      exact ih hrest hmem

theorem Distinct.step (h : s.Distinct) (booked : s.Booked) (step : Step s s') : s'.Distinct := by
  cases step with
  | start ctx request =>
    show (((s.world.openCall ctx request).1.refreshes).map (·.ticket)).Nodup
    rw [(s.world.openCall_spec ctx request).1]
    exact h
  | @stride t w p side mem eq =>
    show (w.refreshes.map (·.ticket)).Nodup
    have hbooking := (World.strode eq).booking.2
    generalize hpoint : t.point = q at hbooking
    cases hbooking with
    | rests tracker refreshes => rwa [refreshes]
    | takes tracker refreshes => rwa [refreshes]
    | settles settled =>
      rename_i change tickets left waits busy
      have hworld : w = (s.world.settle tickets).1 := by
        rw [hpoint] at eq
        simp only [World.stride, World.move] at eq
        rcases hsettle : s.world.settle tickets with ⟨w', _ | ⟨ticket, rest⟩⟩
        all_goals
          rw [hsettle] at eq
          cases eq
          rfl
      rw [hworld, World.map_ticket_settle]
      exact h
    | spawns visit tracker refreshes =>
      rw [refreshes, List.map_append, List.nodup_append]
      refine ⟨h, List.pairwise_singleton _ _, fun ticket hold ticket' hnew => ?_⟩
      -- all refreshes before it bear lower numbers
      obtain ⟨r, hr, rfl⟩ := List.mem_map.mp hold
      obtain rfl := List.mem_singleton.mp hnew
      exact Nat.ne_of_lt (booked.tickets r hr)
  | breakDown side mem eq =>
    have calm := (World.strode eq).untouched
    exact (congrArg (fun refreshes => (refreshes.map Refresh.ticket).Nodup) calm.refreshes).mpr h
  | leave mem => exact h
  | @turn r mem =>
    show ((s.world.turn r).1.refreshes.map (·.ticket)).Nodup
    have hfewer {refreshes : List Refresh} (same : refreshes = s.world.refreshes) :
        ((refreshes.filter (·.ticket ≠ r.ticket)).map (·.ticket)).Nodup :=
      h.sublist (same ▸ List.filter_sublist.map _)
    have hturned := s.world.turn_spec r
    generalize (s.world.turn r).1 = w at hturned ⊢
    cases hturned with
    | calledOff aborted ended => exact ended.refreshes ▸ hfewer rfl
    | @waits w₁ g live visit =>
      have hsame : (w₁.keepCall r g).refreshes.map (·.ticket) =
          s.world.refreshes.map (·.ticket) := by
        rw [← (World.visited visit).alike.refreshes, World.keepCall, List.map_map]
        refine List.map_congr_left fun f _ => ?_
        simp only [Function.comp_apply]
        split
        · rename_i hticket
          exact hticket.symm
        · rfl
      rw [hsame]
      exact h
    | ends live visit ended => exact ended.refreshes ▸ hfewer (World.visited visit).alike.refreshes
    | breaks live visit ended =>
      exact ended.refreshes ▸ hfewer (World.visited visit).alike.refreshes
  | elapse elapsed =>
    exact (congrArg (fun refreshes => (refreshes.map Refresh.ticket).Nodup) elapsed.refreshes).mpr h

theorem Reaches.distinct {allowed : Scene → Scene → Prop} {s₀ : Scene} (fresh : s₀.IsFresh)
    (run : Reaches allowed s₀ s) : s.Distinct := by
  have hinit : s₀.Booked ∧ s₀.Distinct := by
    have still : Reaches allowed s₀ s₀ := .refl
    exact ⟨still.booked fresh, by simp [Distinct, fresh.refreshes]⟩
  have hkept := run.induct (P := fun s => s.Booked ∧ s.Distinct) hinit fun s a h _ =>
    ⟨h.1.step (s.step_act a), h.2.step h.1 (s.step_act a)⟩
  exact hkept.2

/-! ## What time brings -/

/-- In some run in which nothing more is asked, the scene gets there. -/
def Leads (s : Scene) (P : Scene → Prop) : Prop :=
  ∃ s', Reaches (fun s s' => s'.asked = s.asked) s s' ∧ P s'

/-- In some run in which nothing more is asked, the record gets an entry that counts by some
clock. -/
def Comes (s : Scene) (id : RecordId) : Prop :=
  ∃ s', Reaches (fun s s' => s'.asked = s.asked) s s' ∧
    ∃ e early, s'.world.backend.cache.entries.get? id = some e ∧ early < e.expiresAt

/-- Only who starts asks. -/
theorem asked_act (s : Scene) {a : Act} (h : ∀ ctx request, a ≠ .start ctx request) :
    (s.act a).asked = s.asked := by
  cases a with
  | start ctx request => exact absurd rfl (h ctx request)
  | look key side =>
    simp only [act]
    split
    · rfl
    · split <;> rfl
  | leave key =>
    simp only [act]
    split <;> rfl
  | turn ticket =>
    simp only [act]
    split <;> rfl
  | _ => rfl

theorem Leads.of_act {P : Scene → Prop} {a : Act} (h : (s.act a).Leads P)
    (quiet : ∀ ctx request, a ≠ .start ctx request) : s.Leads P := by
  obtain ⟨s', run, hP⟩ := h
  exact ⟨s', .trans (.act a .refl (s.asked_act quiet)) run, hP⟩

theorem Comes.of_act {a : Act} (h : (s.act a).Comes id)
    (quiet : ∀ ctx request, a ≠ .start ctx request) : s.Comes id :=
  Leads.of_act h quiet

/-- What puts the record into the cache, by a clock by which it counts, brings it. -/
theorem comes_of_effect {a : Act} {party : Party} {r : Record} {moment early : Timestamp}
    (h : s.effect? a = some (party, .writeCache (.keep r)))
    (hexpiry : Cache.expiry s.world.clock (s.world.service.config.cacheTtl * nanosPerSecond) =
      .ok moment) (hearly : early < moment) : s.Comes r.id := by
  have hquiet : ∀ ctx request, a ≠ .start ctx request := by
    rintro ctx request rfl
    cases h
  refine ⟨s.act a, .act a .refl (s.asked_act hquiet), ⟨r, moment⟩, early, ?_, hearly⟩
  rw [backend_act h]
  exact Backend.entry_serve_keep hexpiry

/-- A request that may act keeps the record when some time has passed. -/
theorem comes_of_thread (numbered : s.Numbered) (mem : t ∈ s.threads) (fill : s.world.CanFill)
    {r : Record} (keeps : ∃ now, ∀ clock, World.effect?
      { s.world with now := max s.world.now now, clock, faults := [] } t.call.ctx .cache t.point =
        some (.writeCache (.keep r))) : s.Comes r.id := by
  obtain ⟨now, hkeeps⟩ := keeps
  obtain ⟨clock, moment, early, hexpiry, hearly⟩ := fill.early
  have heffect : (((s.act (.pass now)).act (.setClock clock)).act (.setFaults [])).effect?
      (.look t.key .cache) = some (.request t.key, .writeCache (.keep r)) := by
    show ((s.threads.find? (·.key = t.key)).bind _) = _
    rw [numbered.find_of_mem mem]
    exact congrArg (Option.map _) (hkeeps clock)
  have hcomes := comes_of_effect heffect hexpiry hearly
  exact ((hcomes.of_act (by simp)).of_act (by simp)).of_act (by simp)

/-- A refresh that can write does so when some time has passed. -/
theorem comes_of_canWrite (distinct : s.Distinct) {r : Refresh} (mem : r ∈ s.world.refreshes)
    (h : r.CanWrite s.world) : s.Comes r.record.id := by
  obtain ⟨hlive, hfill, hcall⟩ := h
  obtain ⟨clock, moment, early, hexpiry, hearly⟩ := hfill.early
  have hmay : s.world.MayAct r.ctx r.call := by
    revert hcall
    cases r.call with
    | none => exact id
    | some g => rcases g with ⟨deadline, ⟨fault, _ | timer⟩ | ⟨reply, timer⟩⟩ <;> exact id
  obtain ⟨now, hacts⟩ := hmay.acts
  have heffect : (((s.act (.pass now)).act (.setClock clock)).act (.setFaults [])).effect?
      (.turn r.ticket) = some (.refresh r.ticket, .writeCache (.keep r.record)) := by
    show ((s.world.refreshes.find? (·.ticket = r.ticket)).bind _) = _
    rw [distinct.find_of_mem mem]
    refine congrArg (Option.map (Party.refresh r.ticket, ·)) (if_pos ?_)
    rw [hlive]
    exact hacts clock
  have hcomes := comes_of_effect heffect hexpiry hearly
  exact ((hcomes.of_act (by simp)).of_act (by simp)).of_act (by simp)

section

variable {call : PortCall} {g : Option (Guarded call)} {r : Record}

/-- A request that may put the record into the cache does so when some time has passed. -/
theorem comes_of_fills (numbered : s.Numbered) (mem : t ∈ s.threads) (fill : s.world.CanFill)
    {g : Option (Guarded (Ask.refilling r).call)} (point : t.point = .asking (.refilling r) g)
    (may : s.world.MayAct t.call.ctx g) : s.Comes r.id := by
  obtain ⟨now, hacts⟩ := may.acts
  refine comes_of_thread numbered mem fill ⟨now, fun clock => ?_⟩
  rw [point]
  exact if_pos (hacts clock)

/-- A request that may tell the cache of its change does so when some time has passed. -/
theorem comes_of_tells (numbered : s.Numbered) (mem : t ∈ s.threads) (fill : s.world.CanFill)
    {change : DomainEvent} {f : Bool} {g : Option (Guarded (.writeCache change.cacheWrite))}
    {events : Branch (.publish change)} (point : t.point = .announcing change f (.waiting g) events)
    (left : change.record? = some r) (may : s.world.MayAct t.call.ctx g) : s.Comes r.id := by
  obtain ⟨now, hacts⟩ := may.acts
  have hwrite : change.cacheWrite = .keep r := by
    cases change with
    | created x => cases left; rfl
    | updated x => cases left; rfl
    | deleted key => cases left
  refine comes_of_thread numbered mem fill ⟨now, fun clock => ?_⟩
  rw [point, ← hwrite]
  exact if_pos (hacts clock)

end

/-- What a stride makes of a request. -/
theorem look_spec (numbered : s.Numbered) (mem : t ∈ s.threads) {side : Side} {w : World}
    {p : Point} (stride : s.world.stride t.call.ctx t.call.spans side t.point = (w, some p)) :
    (s.act (.look t.key side)).world = w ∧ t.goTo p ∈ (s.act (.look t.key side)).threads := by
  simp only [act, numbered.find_of_mem mem, stride]
  exact ⟨trivial, mem_put_self mem rfl⟩

/-- What a request makes of a reply that comes at once. -/
structure Replied (s : Scene) (t : Thread) (ask : Ask) (reply : ask.call.Reply) (s' : Scene) :
    Prop extends World.Coeval s.world s'.world where
  calm : s'.world.faults = []
  asks : ∀ ask', (s.world.service.resume ask reply).2 = .asking ask' →
    t.goTo (.asking ask' none) ∈ s'.threads
  finishes : ∀ outcome, (s.world.service.resume ask reply).2 = .finished outcome →
    t.goTo (.finished outcome) ∈ s'.threads

/-- A call that no fault waits for replies at once. -/
theorem look_of_calm (numbered : s.Numbered) (mem : t ∈ s.threads) (ask : Ask)
    {reply : ask.call.Reply} (point : t.point = .asking ask none)
    (live : s.world.check t.call.ctx = .ok ()) (calm : s.world.faults = [])
    (served : (s.world.servedNow ask.call).reply = some reply) :
    s.Replied t ask reply (s.act (.look t.key .cache)) := by
  rcases hvisit : s.world.visit none t.call.ctx t.call.spans (none : Option (Guarded ask.call))
    with ⟨w, poll⟩
  obtain rfl := World.ready_of_calm live calm served hvisit
  have hservice : w.service = s.world.service := (World.visited hvisit).alike.service
  have hstride := World.stride_of_ready .cache hvisit
  rw [hservice, ← point] at hstride
  have hfor : t.point.stage.IsFor ask.operation := by
    rw [point]
    rfl
  obtain ⟨told, noted⟩ := (s.world.stride_accounts t.call.ctx t.call.spans .cache hfor).noted
  obtain ⟨hworld, hmem⟩ := look_spec numbered mem hstride
  have hcoeval := (World.strode hstride).booking.1
  rw [hstride, ← hworld] at noted
  rw [← hworld] at hcoeval
  refine ⟨hcoeval, List.eq_nil_iff_forall_not_mem.mpr fun f hf => ?_, fun ask' hask => ?_,
    fun outcome hfinished => ?_⟩
  · have hold := noted.faults f hf
    rw [calm] at hold
    cases hold
  · rw [hask] at hmem
    exact hmem
  · rw [hfinished] at hmem
    exact hmem

/-- A refresh that has been called off ends in its turn. -/
theorem ended_of_aborted (ticket : Ticket)
    (h : ∀ r ∈ s.world.refreshes, r.ticket = ticket → r.aborted = true) :
    World.Coeval s.world (s.act (.turn ticket)).world ∧
      (s.act (.turn ticket)).world.isAlive ticket = false := by
  cases hfind : s.world.refreshes.find? (·.ticket = ticket) with
  | none =>
    simp only [act, hfind]
    exact ⟨⟨rfl, rfl, rfl⟩, by simpa [World.isAlive] using List.find?_eq_none.mp hfind⟩
  | some r =>
    have hticket : r.ticket = ticket := by simpa using List.find?_some hfind
    have haborted := h r (List.mem_of_find?_eq_some hfind) hticket
    have hturned := s.world.turn_spec r
    simp only [act, hfind]
    generalize (s.world.turn r).1 = w at hturned ⊢
    cases hturned with
    | calledOff aborted ended =>
      refine ⟨ended.toCoeval, ?_⟩
      rw [World.isAlive, ended.refreshes, hticket]
      simp
    | waits live => cases haborted.symm.trans live
    | ends live => cases haborted.symm.trans live
    | breaks live => cases haborted.symm.trans live

/-- A request that waits for refreshes to end goes on when they have, and they do when they have had
their turns. -/
theorem leads_of_settles {P : Scene → Prop} (numbered : s.Numbered) (mem : t ∈ s.threads)
    {change : DomainEvent} {all : List Ticket} (point : t.point = .settling change all)
    (next : ∀ {s' : Scene}, s'.Numbered → World.Coeval s.world s'.world →
      t.goTo (.announcing change true (.waiting none) (.waiting none)) ∈ s'.threads → s'.Leads P) :
    s.Leads P := by
  -- those that have ended before are crossed off the list, as if it began with `tickets`
  suffices h : ∀ (tickets : List Ticket) {s : Scene} {t : Thread} {all : List Ticket}, s.Numbered →
      t ∈ s.threads → t.point = .settling change all →
      (∀ {s' : Scene}, s'.Numbered → World.Coeval s.world s'.world →
        t.goTo (.announcing change true (.waiting none) (.waiting none)) ∈ s'.threads →
          s'.Leads P) →
      s.world.settle all = s.world.settle tickets → s.Leads P from
    h all numbered mem point next rfl
  intro tickets
  induction tickets with
  | nil =>
    intro s t all numbered mem point next settle
    have hstride : s.world.stride t.call.ctx t.call.spans .cache t.point =
        (s.world, some (.announcing change true (.waiting none) (.waiting none))) := by
      rw [point]
      simp only [World.stride, World.move, settle]
      rfl
    obtain ⟨hworld, hmem⟩ := look_spec numbered mem hstride
    refine Leads.of_act (a := .look t.key .cache) ?_ (by simp)
    refine next (numbered.step (s.step_act _)) ?_ hmem
    rw [hworld]
    exact ⟨rfl, rfl, rfl⟩
  | cons ticket tickets ih =>
    intro s t all numbered mem point next settle
    cases halive : s.world.isAlive ticket with
    | false =>
      have hnext : s.world.settle (ticket :: tickets) = s.world.settle tickets := by
        simp [World.settle, halive]
      exact ih numbered mem point next (settle.trans hnext)
    | true =>
      -- the refresh is called off by a look, and ends in its turn
      have hstride : s.world.stride t.call.ctx t.call.spans .cache t.point =
          (s.world.abort ticket, some (.settling change (ticket :: tickets))) := by
        rw [point]
        simp only [World.stride, World.move, settle]
        simp only [World.settle, halive, if_true]
      obtain ⟨hworld, hmem⟩ := look_spec numbered mem hstride
      obtain ⟨hcoeval, -, -, hrefreshes⟩ := s.world.abort_spec ticket
      refine Leads.of_act (a := .look t.key .cache) ?_ (by simp)
      have hnumbered := numbered.step (s.step_act (.look t.key .cache))
      generalize s.act (.look t.key .cache) = s₁ at hworld hmem hnumbered
      rw [← hworld] at hcoeval hrefreshes
      obtain ⟨hover, hended⟩ := ended_of_aborted (s := s₁) ticket fun r hr hticket => by
        rw [hrefreshes] at hr
        obtain ⟨r₀, -, rfl⟩ := List.mem_map.mp hr
        split at hticket
        · rename_i hmine
          simp [hmine]
        · rename_i hother
          exact absurd hticket hother
      have hthreads : (s₁.act (.turn ticket)).threads = s₁.threads := by
        simp only [act]
        split <;> rfl
      have hlater := hcoeval.trans hover
      refine Leads.of_act (a := .turn ticket) ?_ (by simp)
      refine ih (t := t.goTo (.settling change (ticket :: tickets)))
        (hnumbered.step (s₁.step_act _)) (hthreads ▸ hmem) rfl
        (fun numbered' coeval mem' => next numbered' (hlater.trans coeval) mem') ?_
      simp [World.settle, hended]

/-- A request that waits for refreshes to end tells the cache when they have. -/
theorem comes_of_settles (numbered : s.Numbered) (mem : t ∈ s.threads) (fill : s.world.CanFill)
    {change : DomainEvent} {all : List Ticket} (point : t.point = .settling change all) {r : Record}
    (left : change.record? = some r) (live : s.world.check t.call.ctx = .ok ()) : s.Comes r.id :=
  leads_of_settles numbered mem point fun numbered' coeval mem' =>
    comes_of_tells numbered' mem' (coeval.canFill fill) rfl left (coeval.check live)

/-- A request that gets a record now goes on with it. -/
theorem comes_of_reply (booked : s.Booked) (distinct : s.Distinct) (mem : t ∈ s.threads)
    (fill : s.world.CanFill) {ask : Ask} {deadline : Option Timer} {reply : ask.call.Reply}
    {timer : Timer} {r : Record}
    (point : t.point = .asking ask (some ⟨deadline, .after reply timer⟩))
    (live : s.world.check t.call.ctx = .ok ()) (due : timer.due ≤ s.world.now)
    (yields : ask.yields? reply = some r)
    (time : ∀ key, ask = .fetching key → s.world.service.config.cacheRefresh = .background →
      0 < s.world.service.config.refreshTimeout) : s.Comes r.id := by
  have hvisit : s.world.visit none t.call.ctx t.call.spans (some ⟨deadline, .after reply timer⟩) =
      (s.world.land none ask.call.port, .ready reply) := World.visit_of_due live due
  have hstride := World.stride_of_ready .cache hvisit
  rw [← point] at hstride
  have hnumbered := booked.numbered.step (s.step_act (.look t.key .cache))
  refine Comes.of_act ?_ (a := .look t.key .cache) (by simp)
  cases ask with
  | fetching key =>
    cases reply with
    | error e => cases yields
    | ok x =>
      cases yields
      have hservice : (s.world.land none (Ask.fetching key).call.port).service =
        s.world.service := rfl
      cases hmode : s.world.service.config.cacheRefresh with
      | inlined =>
        simp only [Service.resume, Service.refill, hservice, hmode] at hstride
        obtain ⟨hworld, hmem⟩ := look_spec booked.numbered mem hstride
        refine comes_of_fills hnumbered hmem ?_ rfl ?_
        · rw [hworld]
          exact fill
        · rw [hworld]
          exact live
      | background =>
        simp only [Service.resume, Service.refill, hservice, hmode] at hstride
        obtain ⟨hworld, -⟩ := look_spec booked.numbered mem hstride
        have hdistinct := distinct.step booked (s.step_act (.look t.key .cache))
        obtain ⟨coeval, -, -, refreshes⟩ :=
          (s.world.land none (Ask.fetching key).call.port).spawn_spec t.call.ctx t.call.spans r
        have hcoeval : World.Coeval s.world (s.act (.look t.key .cache)).world := by
          rw [hworld]
          exact ⟨coeval.service, coeval.now, coeval.given⟩
        have hlast := refreshes ▸ List.mem_append_right _ List.mem_cons_self
        have hmem := (congrArg World.refreshes hworld).symm ▸ hlast
        refine comes_of_canWrite hdistinct hmem ⟨rfl, hcoeval.canFill fill, ?_⟩
        refine hcoeval.check (check_withTimeout.mpr ⟨live, ?_⟩)
        exact time key rfl hmode
  | inserting candidate =>
    cases reply with
    | error e => cases yields
    | ok x =>
      cases yields
      obtain ⟨hworld, hmem⟩ := look_spec booked.numbered mem hstride
      refine comes_of_tells hnumbered hmem ?_ rfl rfl ?_
      · rw [hworld]
        exact fill
      · rw [hworld]
        exact live
  | replacing merged =>
    cases reply with
    | error e => cases yields
    | ok x =>
      cases yields
      obtain ⟨hworld, hmem⟩ := look_spec booked.numbered mem hstride
      refine comes_of_settles hnumbered hmem ?_ rfl rfl ?_
      · rw [hworld]
        exact fill
      · rw [hworld]
        exact live
  | _ => cases yields

/-- A request that can keep the record brings it. -/
theorem comes_of_canKeep (booked : s.Booked) (distinct : s.Distinct) (mem : t ∈ s.threads)
    (fill : s.world.CanFill) (keeps : t.point.CanKeep s.world t.call.ctx id) : s.Comes id := by
  generalize hpoint : t.point = p at keeps
  cases keeps with
  | fills own may => exact own ▸ comes_of_fills booked.numbered mem fill hpoint may
  | settles left own live => exact own ▸ comes_of_settles booked.numbered mem fill hpoint left live
  | tells left own may => exact own ▸ comes_of_tells booked.numbered mem fill hpoint left may
  | @gets ask g reply r may yields own time =>
    obtain ⟨deadline, timer, rfl, hcheck⟩ := may
    refine Comes.of_act ?_ (a := .pass timer.due) (by simp)
    have hstep := s.step_act (.pass timer.due)
    exact own ▸ comes_of_reply (booked.step hstep) (distinct.step booked hstep) mem fill hpoint
      hcheck (Nat.le_max_right _ _) yields time

/-! ## What a request finds then -/

/-- A request to get the record that starts when it has come finds it. -/
theorem Comes.found (h : s.Comes id) (numbered : s.Numbered) :
    ∃ s', s.Runs s' ∧ s'.asked = s.asked ++ [.get id] ∧ ∃ t ∈ s'.threads,
      t.key = s.asked.length ∧ t.request = .get id ∧
        ∃ r, t.point = .finished (.ok (.record r)) := by
  obtain ⟨s₁, run, e, early, hentry, hearly⟩ := h
  have hasked : s₁.asked = s.asked :=
    run.induct (P := fun s' => s'.asked = s.asked) rfl fun _ _ h quiet => quiet.trans h
  have hnumbered : s₁.Numbered := run.induct numbered fun s a h _ => h.step (s.step_act a)
  have hruns : s.Runs s₁ := run.induct .refl fun s a h _ => .act a h trivial
  -- the clock is moved to when the entry counts, and then the request starts
  let ctx : Context := { deadline := some (s₁.world.now + 1) }
  let t : Thread := ⟨s₁.asked.length, .get id, (s₁.world.openCall ctx (.get id)).2⟩
  let s₂ := s₁.perform [.setClock early, .setFaults [], .start ctx (.get id)]
  have hruns₂ : s₁.Runs s₂ := runs_perform s₁ _
  have hnumbered₂ : s₂.Numbered := hruns₂.induct hnumbered fun s a h _ => h.step (s.step_act a)
  have hmem : t ∈ s₂.threads := List.mem_append_right _ List.mem_cons_self
  have hcheck : s₂.world.check t.call.ctx = .ok () := by
    refine Simulation.check_eq_ok.mpr ⟨rfl, ?_⟩
    show decide (s₁.world.now + 1 ≤ s₁.world.now) = false
    simp
  have hserved : (s₂.world.servedNow (.lookUp id)).reply = some (.ok (some e.record)) := by
    have hget : (s₁.world.backend.cache.get early id).1 = some e.record := by
      simp [Cache.get, hentry, CacheEntry.isLive, hearly]
    exact congrArg (fun found => some (Except.ok found)) hget
  have hlook := look_of_calm hnumbered₂ hmem (.lookingUp id) rfl hcheck rfl hserved
  refine ⟨s₂.act (.look t.key .cache), .act _ (hruns.trans hruns₂) trivial, ?_, _,
    hlook.finishes _ rfl, ?_, rfl, e.record, rfl⟩
  · rw [asked_act s₂ (by simp)]
    show s₁.asked ++ [.get id] = _
    rw [hasked]
  · show s₁.asked.length = _
    rw [hasked]

end Scene

end Simulation

end CacheAside
