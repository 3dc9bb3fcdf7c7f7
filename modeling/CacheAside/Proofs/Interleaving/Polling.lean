import CacheAside.Proofs.Interleaving.Scene

/-!
# The program's own interleavings

The program takes a request as far as it can go whenever it looks at it, and gives turns to the
refreshes at the head of its queue.  In a scene a request goes by single strides, and anything may
happen between two of them.  Nothing that the program does is left out by that: each of its looks at
a request comes to the same as some strides of the request, one after another
(`Scene.runs_pollCall`), and the turns of the refreshes are acts (`Scene.serveTurns_eq_perform`).
-/

namespace CacheAside.Simulation

/-- Where a request stands after a move, if it has not broken down. -/
def Poll.point? : Poll Point Point → Option Point
  | .ready p => some p
  | .pending p => some p
  | .broken => none

/-- Where a request stands after a look at it, if it has not broken down. -/
def Poll.standing? : Poll Outcome Point → Option Point
  | .ready outcome => some (.finished outcome)
  | .pending p => some p
  | .broken => none

namespace World

/-- What some strides make of a request, one after another: of the world, and of the point where it
stands. -/
inductive Strides (w : World) (ctx : Context) (spans : List Span) (p : Point) :
    World → Option Point → Prop where
  | refl : Strides w ctx spans p w (some p)
  | stride {w₁ w₂ : World} {p₁ : Point} {p₂ : Option Point} (side : Side)
      (before : Strides w ctx spans p w₁ (some p₁))
      (eq : w₁.stride ctx spans side p₁ = (w₂, p₂)) : Strides w ctx spans p w₂ p₂

variable {w w₁ w₂ : World} {ctx : Context} {spans : List Span} {p p₁ : Point} {p₂ : Option Point}

theorem Strides.one (side : Side) (eq : w.stride ctx spans side p = (w₂, p₂)) :
    Strides w ctx spans p w₂ p₂ :=
  .stride side .refl eq

theorem Strides.trans (h : Strides w ctx spans p w₁ (some p₁))
    (h' : Strides w₁ ctx spans p₁ w₂ p₂) : Strides w ctx spans p w₂ p₂ := by
  induction h' with
  | refl => exact h
  | stride side _ eq ih => exact .stride side ih eq

/-! ## Announcements -/

section Announcing

variable {change : DomainEvent} {f : Bool} {cache cache' : Branch (.writeCache change.cacheWrite)}
  {events events' : Branch (.publish change)}

/-- The cache and the event bus have both replied. -/
def BothReplied (cache : Branch (.writeCache change.cacheWrite))
    (events : Branch (.publish change)) : Prop :=
  ∃ written published, cache = .replied written ∧ events = .replied published

/-- As long as not both have replied, a stride looks at the side it is told to. -/
theorem stride_announcing (h : ¬ BothReplied cache events) (side : Side) :
    w.stride ctx spans side (.announcing change f cache events) =
      match side with
      | .cache => w.tellCache ctx spans change cache events
      | .bus => w.tellBus ctx spans change cache events := by
  cases cache with
  | waiting g => rfl
  | replied written =>
    cases events with
    | waiting g => rfl
    | replied published => exact absurd ⟨written, published, rfl, rfl⟩ h

/-- A look at the cache is a stride, unless both sides have replied and nothing is left to do. -/
theorem strides_pollCache {o : Option (Branch (.writeCache change.cacheWrite))}
    (poll : w.pollBranch ctx spans (.writeCache change.cacheWrite) change.cacheNotes cache =
      (w₁, o)) :
    ∃ f', (∀ cache' ∈ o, BothReplied cache' events ∨ f' = true) ∧
      Strides w ctx spans (.announcing change f cache events) w₁
        (o.map fun cache' => .announcing change f' cache' events) := by
  by_cases h : BothReplied cache events
  · -- the look has found what it knew; the stride that is next ends the request
    obtain ⟨written, published, rfl, rfl⟩ := h
    cases poll
    refine ⟨f, fun cache' hcache' => .inl ?_, .refl⟩
    cases hcache'
    exact ⟨written, published, rfl, rfl⟩
  · refine ⟨true, fun _ _ => .inr rfl, .one .cache ?_⟩
    rw [stride_announcing h]
    simp only [tellCache, poll]
    cases o <;> rfl

/-- A look at the event bus is a stride, unless both sides have replied. -/
theorem strides_pollBus {o : Option (Branch (.publish change))}
    (poll : w.pollBranch ctx spans (.publish change) (fun _ => []) events = (w₁, o)) :
    ∃ f', (∀ events' ∈ o, BothReplied cache events' ∨ f' = false) ∧
      Strides w ctx spans (.announcing change f cache events) w₁
        (o.map fun events' => .announcing change f' cache events') := by
  by_cases h : BothReplied cache events
  · obtain ⟨written, published, rfl, rfl⟩ := h
    cases poll
    refine ⟨f, fun events' hevents' => .inl ?_, .refl⟩
    cases hevents'
    exact ⟨written, published, rfl, rfl⟩
  · refine ⟨false, fun _ _ => .inr rfl, .one .bus ?_⟩
    rw [stride_announcing h]
    simp only [tellBus, poll]
    cases o <;> rfl

/-- The program looks at both sides; the one that it looked at last is the first the next time. -/
theorem strides_pollBranches
    {o : Option (Branch (.writeCache change.cacheWrite) × Branch (.publish change))}
    (poll : w.pollBranches ctx spans change f cache events = (w₁, o)) :
    ∃ f', (∀ b ∈ o, BothReplied b.1 b.2 ∨ f' = !f) ∧
      Strides w ctx spans (.announcing change f cache events) w₁
        (o.map fun b => .announcing change f' b.1 b.2) := by
  cases f with
  | true =>
    rcases hcache : w.pollBranch ctx spans (.writeCache change.cacheWrite) change.cacheNotes cache
      with ⟨w', first⟩
    obtain ⟨f₁, -, hfirst⟩ := strides_pollCache (f := true) hcache
    simp only [pollBranches, if_true, hcache] at poll
    cases first with
    | none =>
      cases poll
      exact ⟨f₁, by simp, hfirst⟩
    | some cache' =>
      rcases hbus : w'.pollBranch ctx spans (.publish change) (fun _ => []) events
        with ⟨w'', second⟩
      obtain ⟨f₂, hlast, hsecond⟩ := strides_pollBus (f := f₁) hbus
      have hboth := hfirst.trans hsecond
      simp only [hbus] at poll
      cases second with
      | none =>
        cases poll
        exact ⟨f₂, by simp, hboth⟩
      | some events' =>
        cases poll
        exact ⟨f₂, by simpa using hlast, hboth⟩
  | false =>
    rcases hbus : w.pollBranch ctx spans (.publish change) (fun _ => []) events
      with ⟨w', first⟩
    obtain ⟨f₁, -, hfirst⟩ := strides_pollBus (f := false) hbus
    simp only [pollBranches, Bool.false_eq_true, if_false, hbus] at poll
    cases first with
    | none =>
      cases poll
      exact ⟨f₁, by simp, hfirst⟩
    | some events' =>
      rcases hcache : w'.pollBranch ctx spans (.writeCache change.cacheWrite) change.cacheNotes
        cache with ⟨w'', second⟩
      obtain ⟨f₂, hlast, hsecond⟩ := strides_pollCache (f := f₁) hcache
      have hboth := hfirst.trans hsecond
      simp only [hcache] at poll
      cases second with
      | none =>
        cases poll
        exact ⟨f₂, by simp, hboth⟩
      | some cache' =>
        cases poll
        exact ⟨f₂, by simpa using hlast, hboth⟩

end Announcing

/-! ## Moves -/

/-- A move of a request is one stride, or a few while a change is announced. -/
theorem strides_move (w : World) (ctx : Context) (spans : List Span) (p : Point) :
    Strides w ctx spans p (w.move ctx spans p).1 (w.move ctx spans p).2.point? := by
  cases p with
  | announcing change f cache events =>
    rcases hpoll : w.pollBranches ctx spans change f cache events with ⟨w', o⟩
    obtain ⟨f', hflag, hstrides⟩ := strides_pollBranches hpoll
    simp only [move, hpoll]
    cases o with
    | none => exact hstrides
    | some b =>
      obtain ⟨cache', events'⟩ := b
      by_cases h : BothReplied cache' events'
      · obtain ⟨written, published, rfl, rfl⟩ := h
        exact .stride .cache hstrides rfl
      · -- the strides have left the sides in the order in which the program looks at them next
        obtain rfl := (hflag _ rfl).resolve_left h
        rcases cache' with g | written <;> rcases events' with g' | published
        case replied.replied => exact absurd ⟨written, published, rfl, rfl⟩ h
        all_goals exact hstrides
  | _ =>
    refine .one .cache ?_
    simp only [stride]
    split <;> simp only [*, Poll.point?]

/-- The program takes a request forward by strides until it has to wait. -/
theorem strides_advance (w : World) (ctx : Context) (spans : List Span) (p : Point) :
    Strides w ctx spans p (w.advance ctx spans p).1 (w.advance ctx spans p).2.standing? := by
  fun_induction w.advance ctx spans p with
  | case1 => exact .refl
  | case2 w p running w' next hmove closer ih =>
    have hnext := w.strides_move ctx spans p
    rw [hmove] at hnext
    exact hnext.trans ih
  | case3 w p running w' waiting hmove =>
    have hlast := w.strides_move ctx spans p
    rwa [hmove] at hlast
  | case4 w p running w' hmove =>
    have hlast := w.strides_move ctx spans p
    rwa [hmove] at hlast

end World

namespace Scene

variable {s : Scene} {t : Thread}

theorem put_self (numbered : s.Numbered) (mem : t ∈ s.threads) : put s.threads t = s.threads := by
  refine (List.map_congr_left fun u hu => ?_).trans (List.map_id s.threads)
  split
  · rename_i hkey
    exact (numbered.eq_of_key hu mem hkey).symm
  · rfl

theorem put_put (threads : List Thread) {t u : Thread} (hkey : u.key = t.key) :
    put (put threads u) t = put threads t := by
  rw [put, put, put, List.map_map]
  refine List.map_congr_left fun v _ => ?_
  simp only [Function.comp_apply]
  split
  · rename_i hv
    rw [if_pos (hv.trans hkey)]
  · rfl

theorem filter_put (threads : List Thread) (t : Thread) :
    (put threads t).filter (·.key ≠ t.key) = threads.filter (·.key ≠ t.key) := by
  induction threads with
  | nil => rfl
  | cons u threads ih =>
    have hcons : put (u :: threads) t = (if u.key = t.key then t else u) :: put threads t := rfl
    rw [hcons]
    by_cases hkey : u.key = t.key
    · simpa [hkey] using ih
    · simpa [hkey] using ih

/-- Strides of a request, one after another, are an interleaving in which nothing else happens. -/
theorem runs_strides (numbered : s.Numbered) (mem : t ∈ s.threads) {w : World} {p : Option Point}
    (strides : World.Strides s.world t.call.ctx t.call.spans t.point w p) :
    ∃ s', s.Runs s' ∧ s'.world = w ∧ s'.threads = match p with
      | some p => put s.threads (t.goTo p)
      | none => s.threads.filter (·.key ≠ t.key) := by
  induction strides with
  | refl => exact ⟨s, .refl, rfl, (put_self numbered mem).symm⟩
  | @stride w₁ w₂ p₁ p₂ side before eq ih =>
    obtain ⟨s₁, hrun, rfl, hthreads⟩ := ih
    have numbered₁ : s₁.Numbered := hrun.induct numbered fun s a h _ => h.step (s.step_act a)
    have hmem : t.goTo p₁ ∈ s₁.threads := by
      rw [hthreads]
      exact mem_put_self mem rfl
    have hfind : s₁.threads.find? (·.key = t.key) = some (t.goTo p₁) :=
      numbered₁.find_of_mem hmem
    have hstride : s₁.world.stride (t.goTo p₁).call.ctx (t.goTo p₁).call.spans side
        (t.goTo p₁).point = (w₂, p₂) := eq
    refine ⟨s₁.act (.look t.key side), .act _ hrun trivial, ?_⟩
    simp only [act, hfind, hstride]
    cases p₂ with
    | some p =>
      refine ⟨rfl, ?_⟩
      rw [hthreads]
      exact put_put s.threads rfl
    | none =>
      refine ⟨rfl, ?_⟩
      rw [hthreads]
      exact filter_put s.threads (t.goTo p₁)

/-- A look of the program at a request is an interleaving in which nothing else happens. -/
theorem runs_pollCall (numbered : s.Numbered) (mem : t ∈ s.threads) :
    ∃ s', s.Runs s' ∧ s'.world = (s.world.pollCall t.call).1 ∧
      s'.threads = match (s.world.pollCall t.call).2 with
        | .ready outcome => put s.threads (t.goTo (.finished outcome))
        | .pending call => put s.threads { t with call }
        | .broken => s.threads.filter (·.key ≠ t.key) := by
  have hstrides := s.world.strides_advance t.call.ctx t.call.spans t.point
  unfold World.pollCall
  rcases hadvance : s.world.advance t.call.ctx t.call.spans t.call.point
    with ⟨w, outcome | p | _⟩
  all_goals
    rw [hadvance] at hstrides
    exact runs_strides numbered mem hstrides

/-! ## Turns -/

/-- Turns that the program gives to some refreshes are acts of a scene. -/
theorem foldl_serveTurn (s : Scene) (tickets ended : List Ticket) :
    (tickets.foldl World.serveTurn (s.world, ended)).1 =
      (s.perform (tickets.map .turn)).world := by
  induction tickets generalizing s ended with
  | nil => rfl
  | cons ticket tickets ih =>
    rw [List.foldl_cons, List.map_cons, perform, List.foldl_cons]
    cases hfind : s.world.refreshes.find? (·.ticket = ticket) with
    | none =>
      have hact : s.act (.turn ticket) = s := by simp only [act, hfind]
      have hturn : World.serveTurn (s.world, ended) ticket = (s.world, ended) := by
        simp only [World.serveTurn, hfind]
      rw [hact, hturn]
      exact ih s ended
    | some r =>
      have hact : s.act (.turn ticket) = { s with world := (s.world.turn r).1 } := by
        simp only [act, hfind]
      rw [hact]
      simp only [World.serveTurn, hfind]
      exact ih { s with world := (s.world.turn r).1 } _

/-- When the program gives turns to the refreshes at the head of the queue, these are acts of a
scene in which they have left the queue. -/
theorem serveTurns_eq_perform (s : Scene) (turns : Nat) :
    (s.world.serveTurns turns).1 =
      ({ s with world := { s.world with queue := s.world.queue.drop turns } }.perform
        ((s.world.queue.take turns).map .turn)).world :=
  foldl_serveTurn { s with world := { s.world with queue := s.world.queue.drop turns } } _ []

end Scene

end CacheAside.Simulation
