import CacheAside.Proofs.Interleaving.Effect
import CacheAside.Proofs.Interleaving.Outdated
import CacheAside.Simulation.Action

/-!
# Nothing takes effect after an interruption

No call takes effect for a request whose signal has been given or whose deadline has been reached,
nor for a refresh that the request has started (`Scene.no_effect_after_interruption`).  The deadline
is the earliest of those that the caller has set, in whatever order the context was derived with
them; if there are none, the service may set one.  A request that starts when it is over already
ends at once, and leaves the world as it is.
-/

namespace CacheAside

/-! ## Deadlines -/

/-- A limit to the time of a call. -/
inductive Limit where
  | deadline (due : Nat)
  | timeout (now millis : Nat)

/-- The moment from which on a call with the limit is over time. -/
def Limit.due : Limit → Nat
  | .deadline due => due
  | .timeout now millis => now + millis

namespace Context

/-- The context that is derived with a limit. -/
def limit (ctx : Context) : Limit → Context
  | .deadline due => ctx.withDeadline due
  | .timeout now millis => ctx.withTimeout now millis

/-- The context that is derived with some limits, one after another. -/
def limited (ctx : Context) (limits : List Limit) : Context :=
  limits.foldl limit ctx

/-- Of all deadlines the earliest counts. -/
theorem deadline_limited (ctx : Context) (limits : List Limit) :
    (ctx.limited limits).deadline = (ctx.deadline.toList ++ limits.map Limit.due).min? := by
  induction limits generalizing ctx with
  | nil => cases h : ctx.deadline <;> simp [limited, h]
  | cons l limits ih =>
    have hfirst : (ctx.limit l).deadline =
        some (ctx.deadline.elim l.due fun current => min current l.due) := by
      cases hdeadline : ctx.deadline <;> cases l <;>
        simp [limit, Limit.due, withTimeout, withDeadline, hdeadline]
    have hrest := ih (ctx.limit l)
    rw [hfirst] at hrest
    rw [limited, List.foldl_cons, ← limited, hrest]
    cases ctx.deadline with
    | none => rfl
    | some current =>
      simp only [Option.toList_some, List.cons_append, List.nil_append, List.map_cons,
        List.min?_cons]
      cases (limits.map Limit.due).min? with
      | none => rfl
      | some due => exact congrArg some (Nat.min_assoc current l.due due)

@[simp] theorem signal_limited (ctx : Context) (limits : List Limit) :
    (ctx.limited limits).signal = ctx.signal := by
  induction limits generalizing ctx with
  | nil => rfl
  | cons l limits ih =>
    rw [limited, List.foldl_cons, ← limited, ih]
    cases l <;> rfl

@[simp] theorem signal_forOperation (ctx : Context) (now : Nat) (timeout : Option Nat) :
    (ctx.forOperation now timeout).signal = ctx.signal := by
  unfold forOperation
  split <;> rfl

/-- The deadline of a call that starts under a context with these limits. -/
def effectiveDeadline (limits : List Limit) (start : Nat) (timeout : Option Nat) : Option Nat :=
  match (limits.map Limit.due).min? with
  | some due => some due
  | none => timeout.map (start + ·)

theorem deadline_forOperation {ctx : Context} (h : ctx.deadline = none) (limits : List Limit)
    (start : Nat) (timeout : Option Nat) :
    ((ctx.limited limits).forOperation start timeout).deadline =
      effectiveDeadline limits start timeout := by
  have hlimited := ctx.deadline_limited limits
  simp only [h, Option.toList_none, List.nil_append] at hlimited
  unfold effectiveDeadline forOperation
  rw [← hlimited]
  cases hdue : (ctx.limited limits).deadline with
  | some due => simp [hdue]
  | none =>
    cases timeout with
    | some millis => simp [withTimeout, withDeadline, hdue]
    | none => simp [hdue]

/-- A call that starts when its context is interrupted is interrupted for the same reason. -/
theorem check_forOperation {ctx : Context} {given : Nat → Bool} {now : Nat} {cause : Interruption}
    (h : ctx.check given now = .error cause) (start : Nat) (timeout : Option Nat) :
    (ctx.forOperation start timeout).check given now = .error cause := by
  unfold forOperation
  split
  · rename_i millis hdeadline
    -- without a deadline it can only have been cancelled
    have hcancelled : ctx.isCancelled given = true := by
      cases hsignal : ctx.isCancelled given with
      | true => rfl
      | false => simp [check, hsignal, isExpired, hdeadline] at h
    have hcause : cause = .cancelled := by simpa [check, hcancelled] using h.symm
    subst hcause
    have hsame : (ctx.withTimeout start millis).isCancelled given = true := hcancelled
    simp [check, hsame]
  · exact h

end Context

/-! ## Requests that start when they are over -/

/-- How a request ends that is interrupted before it has asked any port: it is refused by the rules
if they can be told to forbid it by then. -/
def Service.refusal (s : Service) (cause : Interruption) : Request → ServiceError
  | .create candidate =>
    match s.limits.check candidate with
    | .ok () => .cancelled cause
    | .error e => .validation e
  | .update id merger =>
    if merger.target = id then .cancelled cause
    else .validation (.targetMismatch merger.target id)
  | _ => .cancelled cause

/-- Whatever a request asks first, an interruption of that call is an interruption of the
request. -/
theorem Service.resume_interrupted {s : Service} {request : Request} {ask : Ask}
    (h : s.Begun request ask) (cause : Interruption) :
    s.resume ask (.error (ask.call.interrupted cause)) =
      ([], .finished (.error (.cancelled cause))) := by
  cases h <;> rfl

/-- A request is refused by the rules at once, or else it asks a port. -/
theorem Service.begin_or_refusal (s : Service) (request : Request) (cause : Interruption) :
    s.begin request = .finished (.error (s.refusal cause request)) ∨
      ∃ ask, s.Begun request ask ∧ s.begin request = .asking ask ∧
        s.refusal cause request = .cancelled cause := by
  cases request with
  | list page => exact .inr ⟨_, .list page, rfl, rfl⟩
  | get id => exact .inr ⟨_, .get id, rfl, rfl⟩
  | delete id => exact .inr ⟨_, .delete id, rfl, rfl⟩
  | create candidate =>
    simp only [begin, accept, refusal]
    cases hcheck : s.limits.check candidate with
    | error e => exact .inl rfl
    | ok _ => exact .inr ⟨_, .create hcheck, rfl, rfl⟩
  | update id merger =>
    simp only [begin, refusal]
    split
    · exact .inr ⟨_, .update id merger, rfl, rfl⟩
    · exact .inl rfl

namespace Simulation

namespace World

/-- A request that ends with its next move has ended. -/
theorem advance_of_ended {w w' : World} {ctx : Context} {spans : List Span} {p : Point}
    {outcome : Outcome} (hp : ∀ o, p ≠ .finished o)
    (h : w.move ctx spans p = (w', .ready (.finished outcome))) :
    w.advance ctx spans p = (w', .ready outcome) := by
  rw [advance]
  · split
    · rename_i heq
      cases heq.symm.trans h
      rw [advance]
    · rename_i heq
      cases heq.symm.trans h
    · rename_i heq
      cases heq.symm.trans h
  · exact hp

/-- A request that starts when its context is interrupted asks no port and leaves the world as it
is. -/
theorem ask_interrupted {w : World} {ctx : Context} {cause : Interruption}
    (h : w.check ctx = .error cause) (request : Request) :
    w.ask ctx request =
      (w, .ready (.outcome (.error (w.service.refusal cause request)))) := by
  obtain hrefused | ⟨ask, hbegun, hbegin, hcause⟩ := w.service.begin_or_refusal request cause
  · simp [World.ask, openCall, hrefused, reach, pollTask, pollCall, advance]
  · have hcheck := Context.check_forOperation h w.now w.service.config.defaultTimeout
    have hvisit (spans : List Span) :
        w.visit none (ctx.forOperation w.now w.service.config.defaultTimeout) spans
          (none : Option (Guarded ask.call)) =
          (w, .ready (.error (ask.call.interrupted cause))) := by
      simp only [visit, enter]
      rw [show w.check (ctx.forOperation w.now w.service.config.defaultTimeout) = _ from hcheck]
    have hmove (spans : List Span) :
        w.move (ctx.forOperation w.now w.service.config.defaultTimeout) spans (.asking ask none) =
          (w, .ready (.finished (.error (.cancelled cause)))) := by
      simp [move, hvisit, Service.resume_interrupted hbegun, noteAll, reach]
    rw [hcause]
    simp only [World.ask, openCall, hbegin, reach, pollTask, pollCall]
    rw [advance_of_ended (by simp) (hmove _)]

/-! ## What is no interruption -/

theorem check_foldl {α : Type} {f : World → α → World} (h : ∀ w a, (f w a).check = w.check)
    (w : World) (l : List α) : (l.foldl f w).check = w.check := by
  induction l generalizing w with
  | nil => rfl
  | cons a l ih => exact (ih (f w a)).trans (h w a)

theorem check_wake (w : World) (ticket : Ticket) : (w.wake ticket).check = w.check := by
  unfold wake
  split <;> rfl

theorem check_stir (w : World) (strand : Strand) : (w.stir strand).check = w.check := by
  induction strand generalizing w with
  | nil =>
    unfold stir
    split <;> rfl
  | cons n around ih =>
    unfold stir
    split
    · rfl
    · exact ih { w with woken := _ }

/-- Whoever is woken for a signal finds the contexts as they were. -/
theorem check_rouse (w : World) (signal : Nat) : (w.rouse signal).check = w.check :=
  (check_foldl check_stir _ _).trans
    (check_foldl (f := fun w (r : Refresh) => w.wake r.ticket)
      (fun w r => check_wake w r.ticket) w _)

/-- To forget how to give a signal is not to give it. -/
theorem check_dropHandle (w : World) (name : String) : (w.dropHandle name).check = w.check := by
  unfold dropHandle
  split
  · exact check_rouse _ _
  · rfl

/-- What an interruption does to the requests that start after it, and what is no interruption. -/
structure HeedsInterruptions (w : World) : Prop where
  cancelled : ∀ ctx request, ctx.isCancelled w.isGiven = true →
    w.ask ctx request = (w, .ready (.outcome (.error (w.service.refusal .cancelled request))))
  expired : ∀ ctx request, ctx.isCancelled w.isGiven = false → ctx.isExpired w.now = true →
    w.ask ctx request =
      (w, .ready (.outcome (.error (w.service.refusal .deadlineExceeded request))))
  dropHandle : ∀ name ctx, (w.dropHandle name).check ctx = w.check ctx

theorem heedsInterruptions (w : World) : w.HeedsInterruptions where
  cancelled ctx request h := ask_interrupted (by simp [World.check, Context.check, h]) request
  expired ctx request hlive h :=
    ask_interrupted (by simp [World.check, Context.check, hlive, h]) request
  dropHandle name ctx := congrFun (w.check_dropHandle name) ctx

end World

/-! ## The contexts of a run -/

/-- The start of a request: the context that the caller has given, and the time. -/
structure Opening where
  ctx : Context
  time : Nat

/-- The start of a refresh: its number, that of the request that has started it, and the time. -/
structure Spawning where
  ticket : Ticket
  key : Nat
  time : Nat

namespace Opening

/-- The context of the request once the service has set a deadline where there was none. -/
def context (o : Opening) (service : Service) : Context :=
  o.ctx.forOperation o.time service.config.defaultTimeout

/-- The request is not interrupted: the signal has not been given, and the earliest of the limits
lies ahead, however the caller has derived the context. -/
structure IsOpen (o : Opening) (w : World) : Prop where
  signal : ∀ signal ∈ o.ctx.signal, signal ∉ w.given
  deadline : ∀ (root : Context) (limits : List Limit), root.deadline = none →
    o.ctx = root.limited limits →
    ∀ due ∈ Context.effectiveDeadline limits o.time w.service.config.defaultTimeout, w.now < due

theorem isOpen_of_check {o : Opening} {w : World}
    (h : w.check (o.context w.service) = .ok ()) : o.IsOpen w := by
  obtain ⟨hlive, hintime⟩ := check_eq_ok.mp h
  refine ⟨fun signal hsignal => ?_, fun root limits hroot hctx due hdue => ?_⟩
  · have hsame : (o.context w.service).signal = some signal := by
      simpa [context] using hsignal
    simpa [Context.isCancelled, hsame, World.isGiven] using hlive
  · have hdeadline : (o.context w.service).deadline = some due := by
      rw [context, hctx, Context.deadline_forOperation hroot]
      exact hdue
    simpa [Context.isExpired, hdeadline] using hintime

end Opening

namespace Scene

/-- The request that starts in an act. -/
def opens (s : Scene) : Act → List Opening
  | .start ctx _ => [⟨ctx, s.world.now⟩]
  | _ => []

/-- The refreshes that start in an act. -/
def spawns (s : Scene) : Act → List Spawning
  | .look key side =>
    (s.world.tickets (s.act (.look key side)).world).map fun ticket => ⟨ticket, key, s.world.now⟩
  | _ => []

/-- The starts of all requests; they are numbered in this order. -/
def openings (s₀ : Scene) (acts : List Act) : List Opening :=
  s₀.collect opens acts

/-- The starts of all refreshes. -/
def spawnings (s₀ : Scene) (acts : List Act) : List Spawning :=
  s₀.collect spawns acts

/-- The context of a request under way is the one with which it has started, and that of a refresh
is derived from the one of its read. -/
structure Dated (s : Scene) (openings : List Opening) (spawnings : List Spawning) : Prop where
  numbered : openings.length = s.asked.length
  threads : ∀ t ∈ s.threads, ∃ o, openings[t.key]? = some o ∧
    t.call.ctx = o.context s.world.service
  refreshes : ∀ r ∈ s.world.refreshes, ∃ p ∈ spawnings, p.ticket = r.ticket ∧
    ∃ o, openings[p.key]? = some o ∧ r.ctx = (o.context s.world.service).withTimeout p.time
      s.world.service.config.refreshTimeout

namespace Dated

variable {s s' : Scene} {openings : List Opening} {spawnings : List Spawning}

/-- Nothing has started, whatever else has happened. -/
theorem still (h : s.Dated openings spawnings) (service : s'.world.service = s.world.service)
    (asked : s'.asked = s.asked)
    (threads : ∀ t' ∈ s'.threads, ∃ t ∈ s.threads, t'.key = t.key ∧ t'.call.ctx = t.call.ctx)
    (refreshes : ∀ r' ∈ s'.world.refreshes, ∃ r ∈ s.world.refreshes,
      r'.ticket = r.ticket ∧ r'.ctx = r.ctx) : s'.Dated openings spawnings where
  numbered := asked ▸ h.numbered
  threads t' ht' := by
    obtain ⟨t, ht, hkey, hctx⟩ := threads t' ht'
    rw [hkey, hctx, service]
    exact h.threads t ht
  refreshes r' hr' := by
    obtain ⟨r, hr, hticket, hctx⟩ := refreshes r' hr'
    rw [hticket, hctx, service]
    exact h.refreshes r hr

theorem more {new : List Spawning} (h : s.Dated openings spawnings) :
    s.Dated openings (spawnings ++ new) where
  numbered := h.numbered
  threads := h.threads
  refreshes r hr := by
    obtain ⟨p, hp, hrest⟩ := h.refreshes r hr
    exact ⟨p, List.mem_append_left _ hp, hrest⟩

/-- A request starts. -/
theorem start (h : s.Dated openings spawnings) (ctx : Context) (request : Request) :
    (s.act (.start ctx request)).Dated (openings ++ [⟨ctx, s.world.now⟩]) spawnings := by
  have hworld := (s.world.openCall_spec ctx request).1
  have hkept {key : Nat} {o : Opening} (ho : openings[key]? = some o) :
      (openings ++ [⟨ctx, s.world.now⟩])[key]? = some o := by
    obtain ⟨hlt, -⟩ := List.getElem?_eq_some_iff.mp ho
    rwa [List.getElem?_append_left hlt]
  simp only [act]
  rw [hworld]
  refine ⟨by simp [h.numbered], fun t ht => ?_, fun r hr => ?_⟩
  · rcases List.mem_append.mp ht with ht | ht
    · obtain ⟨o, ho, hctx⟩ := h.threads t ht
      exact ⟨o, hkept ho, hctx⟩
    · obtain rfl := List.mem_singleton.mp ht
      have hctx : (s.world.openCall ctx request).2.ctx =
          ctx.forOperation (s.world.openCall ctx request).1.now
            (s.world.openCall ctx request).1.service.config.defaultTimeout := rfl
      rw [hworld] at hctx
      refine ⟨⟨ctx, s.world.now⟩, ?_, hctx⟩
      rw [← h.numbered]
      exact List.getElem?_concat_length
  · obtain ⟨p, hp, hticket, o, ho, hctx⟩ := h.refreshes r hr
    exact ⟨p, hp, hticket, o, hkept ho, hctx⟩

/-- A request makes a stride, with which a refresh may start. -/
theorem stride (h : s.Dated openings spawnings) {t : Thread} (mem : t ∈ s.threads) {w : World}
    {point : Point} (coeval : World.Coeval s.world w)
    (booking : World.Booking s.world t.call.ctx t.point w (some point))
    {changes : List DomainEvent} {spawned : List (Ticket × Nat)} :
    Dated { s with world := w, threads := put s.threads (t.goTo point), changes, spawned } openings
      (spawnings ++ (s.world.tickets w).map fun ticket => ⟨ticket, t.key, s.world.now⟩) := by
  have hthreads : ∀ t' ∈ put s.threads (t.goTo point), ∃ u ∈ s.threads,
      t'.key = u.key ∧ t'.call.ctx = u.call.ctx := by
    intro t' ht'
    rcases mem_put ht' with rfl | ⟨hold, -⟩
    · exact ⟨t, mem, rfl, rfl⟩
    · exact ⟨t', hold, rfl, rfl⟩
  have hsame (refreshes : w.refreshes = s.world.refreshes) :
      ∀ r' ∈ w.refreshes, ∃ r ∈ s.world.refreshes, r'.ticket = r.ticket ∧ r'.ctx = r.ctx :=
    fun r hr => ⟨r, refreshes ▸ hr, rfl, rfl⟩
  have hnext := booking.next_le
  generalize hpoint : t.point = q at booking
  cases booking with
  | rests tracker refreshes =>
    exact more (h.still coeval.service rfl hthreads (hsame refreshes))
  | takes tracker refreshes =>
    exact more (h.still coeval.service rfl hthreads (hsame refreshes))
  | settles settled =>
    refine more (h.still coeval.service rfl hthreads fun r' hr' => ?_)
    obtain ⟨r, hr, rfl | ⟨-, rfl⟩⟩ := settled.refreshes r' hr'
    · exact ⟨r', hr, rfl, rfl⟩
    · exact ⟨r, hr, rfl, rfl⟩
  | @spawns _ _ _ _ r spans spans' visit tracker refreshes =>
    -- all but the new refresh are as before
    have hold : Dated { s with
        world := { w with refreshes := s.world.refreshes }
        threads := put s.threads (t.goTo (.finished (.ok (.record r)))) } openings
        (spawnings ++ (s.world.tickets w).map fun ticket => ⟨ticket, t.key, s.world.now⟩) :=
      more (h.still coeval.service rfl hthreads fun r' hr' => ⟨r', hr', rfl, rfl⟩)
    refine ⟨hold.numbered, hold.threads, fun r' hr' => ?_⟩
    rw [refreshes] at hr'
    rcases List.mem_append.mp hr' with hr' | hr'
    · exact hold.refreshes r' hr'
    · obtain rfl := List.mem_singleton.mp hr'
      obtain ⟨o, ho, hctx⟩ := h.threads t mem
      have hticket : s.world.tracker.next ∈ s.world.tickets w :=
        (World.mem_tickets hnext).mpr ⟨Nat.le_refl _, tracker ▸ Nat.lt_succ_self _⟩
      refine ⟨_, List.mem_append_right _ (List.mem_map_of_mem hticket), rfl, o, ho, ?_⟩
      rw [coeval.service, ← hctx]

theorem look (h : s.Dated openings spawnings) (key : Nat) (side : Side) :
    (s.act (.look key side)).Dated openings (spawnings ++ s.spawns (.look key side)) := by
  simp only [spawns, act]
  cases hfind : s.threads.find? (·.key = key) with
  | none => exact h.more
  | some t =>
    dsimp only
    have mem := List.mem_of_find?_eq_some hfind
    have hkey : t.key = key := by simpa using List.find?_some hfind
    subst hkey
    rcases hstride : s.world.stride t.call.ctx t.call.spans side t.point with ⟨w, _ | point⟩
    · have calm := (World.strode hstride).untouched
      refine more (h.still calm.service rfl (fun t' ht' => ?_) fun r hr => ?_)
      · exact ⟨t', (List.mem_filter.mp ht').1, rfl, rfl⟩
      · exact ⟨r, calm.refreshes ▸ hr, rfl, rfl⟩
    · obtain ⟨coeval, booking⟩ := (World.strode hstride).booking
      exact h.stride mem coeval booking

theorem turn (h : s.Dated openings spawnings) (ticket : Ticket) :
    (s.act (.turn ticket)).Dated openings spawnings := by
  simp only [act]
  cases hfind : s.world.refreshes.find? (·.ticket = ticket) with
  | none => exact h
  | some r =>
    have mem := List.mem_of_find?_eq_some hfind
    have hturning := (s.world.turn_spec r).turning
    refine h.still hturning.service rfl (fun t ht => ⟨t, ht, rfl, rfl⟩) fun f hf => ?_
    rcases hturning.refreshes f hf with hold | ⟨g, w₁, rfl, -⟩
    · exact ⟨f, hold, rfl, rfl⟩
    · exact ⟨r, mem, rfl, rfl⟩

theorem act (h : s.Dated openings spawnings) (a : Act) :
    (s.act a).Dated (openings ++ s.opens a) (spawnings ++ s.spawns a) := by
  have hwaits {s' : Scene} (service : s'.world.service = s.world.service)
      (asked : s'.asked = s.asked) (threads : ∀ t ∈ s'.threads, t ∈ s.threads)
      (refreshes : s'.world.refreshes = s.world.refreshes) :
      s'.Dated (openings ++ []) (spawnings ++ []) := by
    rw [List.append_nil, List.append_nil]
    exact h.still service asked (fun t ht => ⟨t, threads t ht, rfl, rfl⟩)
      fun r hr => ⟨r, refreshes ▸ hr, rfl, rfl⟩
  cases a with
  | start ctx request => exact more (h.start ctx request)
  | look key side =>
    have hlook := h.look key side
    rwa [← List.append_nil openings] at hlook
  | turn ticket =>
    have hturn := h.turn ticket
    rwa [← List.append_nil openings, ← List.append_nil spawnings] at hturn
  | leave key =>
    simp only [Scene.act]
    split
    · exact hwaits rfl rfl (fun _ ht => ht) rfl
    · exact hwaits rfl rfl (fun t ht => (List.mem_filter.mp ht).1) rfl
  | pass now => exact hwaits rfl rfl (fun _ ht => ht) rfl
  | setClock clock => exact hwaits rfl rfl (fun _ ht => ht) rfl
  | setFaults faults => exact hwaits rfl rfl (fun _ ht => ht) rfl
  | give signal => exact hwaits rfl rfl (fun _ ht => ht) rfl

end Dated

/-- What holds of the contexts in every run. -/
theorem dated {s₀ : Scene} (fresh : s₀.IsFresh) (acts : List Act) :
    (s₀.perform acts).Dated (s₀.openings acts) (s₀.spawnings acts) := by
  -- a run grows at its end, so from any scene on the way
  suffices hrun : ∀ acts more, (s₀.perform acts).Dated (s₀.openings acts) (s₀.spawnings acts) →
      (s₀.perform (acts ++ more)).Dated (s₀.openings (acts ++ more))
        (s₀.spawnings (acts ++ more)) by
    refine hrun [] acts ⟨?_, ?_, ?_⟩ <;>
      simp [openings, collect, perform, fresh.asked, fresh.threads, fresh.refreshes]
  intro acts more h
  induction more generalizing acts with
  | nil => rwa [List.append_nil]
  | cons a more ih =>
    have hnext := h.act a
    rw [← perform_concat, openings, spawnings, ← collect_concat, ← collect_concat] at hnext
    have hrest := ih (acts ++ [a]) hnext
    rwa [List.append_assoc] at hrest

/-! ## Effects in time -/

/-- After some acts, nothing interrupts what goes on on behalf of a party: for a refresh, the
request that has started it is not interrupted either. -/
def InTime (s₀ : Scene) (acts : List Act) : Party → Prop
  | .request key => ∃ o, (s₀.openings acts)[key]? = some o ∧ o.IsOpen (s₀.perform acts).world
  | .refresh ticket => ∃ p ∈ s₀.spawnings acts, p.ticket = ticket ∧
      ∃ o, (s₀.openings acts)[p.key]? = some o ∧ o.IsOpen (s₀.perform acts).world ∧
        (s₀.perform acts).world.now <
          p.time + (s₀.perform acts).world.service.config.refreshTimeout

end Scene

namespace World

/-- A call that takes effect is not interrupted. -/
theorem check_of_acts {w : World} {ctx : Context} {call : PortCall} {g : Option (Guarded call)}
    (h : w.acts ctx g = true) : w.check ctx = .ok () := by
  simp only [acts, Bool.and_eq_true] at h
  cases hcheck : w.check ctx with
  | ok _ => rfl
  | error cause => simp [hcheck, Except.toBool] at h

theorem TakesEffect.check {w : World} {ctx : Context} {side : Side} {p : Point} {call : PortCall}
    (h : w.TakesEffect ctx side p call) : w.check ctx = .ok () := by
  cases h with
  | asking acts => exact check_of_acts acts
  | cache acts => exact check_of_acts acts
  | bus acts => exact check_of_acts acts

end World

namespace Scene

/-- Every effect comes in time. -/
theorem inTime_of_effect {s₀ : Scene} (fresh : s₀.IsFresh) {acts : List Act} {a : Act}
    {party : Party} {call : PortCall} (h : (s₀.perform acts).effect? a = some (party, call)) :
    s₀.InTime acts party := by
  have hdated := dated fresh acts
  cases takesEffect h with
  | @look t side _ find effect =>
    obtain ⟨o, ho, hctx⟩ := hdated.threads t (List.mem_of_find?_eq_some find)
    have hcheck := effect.check
    rw [hctx] at hcheck
    exact ⟨o, ho, Opening.isOpen_of_check hcheck⟩
  | @turn r find live acts =>
    obtain ⟨p, hp, hsame, o, ho, hctx⟩ := hdated.refreshes r (List.mem_of_find?_eq_some find)
    have hcheck := World.check_of_acts acts
    rw [hctx] at hcheck
    obtain ⟨hopen, hlimit⟩ := check_withDeadline.mp hcheck
    exact ⟨p, hp, hsame, o, ho, Opening.isOpen_of_check hopen, hlimit⟩

/-- After any acts, a call takes effect in the next one only if neither the request on whose behalf
it is made nor, for a refresh, the refresh itself is interrupted.  It then does to the ports what it
does there at that moment; without such a call the act has nothing to do with the ports.  A request
that starts when it is interrupted changes nothing, and says why it was interrupted unless the rules
forbid it anyway.  A signal that can be given no more interrupts nothing. -/
theorem no_effect_after_interruption {s₀ : Scene} (fresh : s₀.IsFresh) (acts : List Act) :
    (∀ a party call, (s₀.perform acts).effect? a = some (party, call) →
      s₀.InTime acts party ∧ ((s₀.perform acts).act a).world.backend =
        ((s₀.perform acts).world.servedNow call).backend) ∧
    (∀ a, (s₀.perform acts).effect? a = none →
      ∀ b, ((s₀.perform acts).on b).act a = ((s₀.perform acts).act a).on b) ∧
    ∀ w : World, w.HeedsInterruptions :=
  ⟨fun _ _ _ h => ⟨inTime_of_effect fresh h, backend_act h⟩, fun _ h => act_on h,
    World.heedsInterruptions⟩

/-- A read with a signal has found its record and started a refresh. -/
def readWithSignal : List Act :=
  [.start { signal := some 0, deadline := some 100 } (.get oldRecord.id), .look 0 .cache,
    .look 0 .cache]

/-- The refresh can put the record into the cache, but not after the signal. -/
theorem no_effect_after_readWithSignal :
    ((withOldRecord.perform readWithSignal).effect? (.turn 0) =
        some (.refresh 0, .writeCache (.keep oldRecord)) ∧
      withOldRecord.InTime readWithSignal (.refresh 0)) ∧
    (withOldRecord.perform (readWithSignal ++ [.give 0])).effect? (.turn 0) = none ∧
      ∀ b, ((withOldRecord.perform (readWithSignal ++ [.give 0])).on b).act (.turn 0) =
        ((withOldRecord.perform (readWithSignal ++ [.give 0])).act (.turn 0)).on b := by
  have heffect : (withOldRecord.perform readWithSignal).effect? (.turn 0) =
      some (.refresh 0, .writeCache (.keep oldRecord)) := by decide
  have hnone : (withOldRecord.perform (readWithSignal ++ [.give 0])).effect? (.turn 0) = none := by
    decide
  obtain ⟨hsome, -, -⟩ := no_effect_after_interruption isFresh_withOldRecord readWithSignal
  obtain ⟨-, hrest, -⟩ :=
    no_effect_after_interruption isFresh_withOldRecord (readWithSignal ++ [.give 0])
  exact ⟨⟨heffect, (hsome _ _ _ heffect).1⟩, hnone, hrest _ hnone⟩

end Scene

end Simulation

end CacheAside
