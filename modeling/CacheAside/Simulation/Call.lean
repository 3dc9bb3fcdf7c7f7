import CacheAside.Simulation.Guard

/-!
# Requests under way

A request goes through the stages of the service.  Each time it is looked at, it goes on as far as
it can.  While a change is announced, the calls of the cache and of the event bus run side by side;
they take turns at being looked at first, the cache at the beginning.
-/

namespace CacheAside.Simulation

/-- One of two calls that run side by side. -/
inductive Branch (call : PortCall) where
  | waiting (guarded : Option (Guarded call))
  | replied (reply : call.Reply)

/-- Where a request under way stands. -/
inductive Point where
  | asking (ask : Ask) (guarded : Option (Guarded ask.call))
  /-- The refreshes that have to end first, in the order in which they are called off. -/
  | settling (change : DomainEvent) (tickets : List Ticket)
  | announcing (change : DomainEvent) (cacheFirst : Bool)
      (cache : Branch (.writeCache change.cacheWrite)) (events : Branch (.publish change))
  | finished (outcome : Outcome)

/-- A request under way. -/
structure Call where
  ctx : Context
  spans : List Span
  point : Point

namespace Point

/-- The stage of the service that the request is in. -/
def stage : Point → Stage
  | .asking ask _ => .asking ask
  | .settling change _ => .settling change
  | .announcing change _ _ _ => .announcing change
  | .finished outcome => .finished outcome

/-- An upper bound of the stages that may still follow. -/
def rank (p : Point) : Nat :=
  p.stage.rank

end Point

/-- The timers that a branch waits for. -/
def Branch.timers {call : PortCall} : Branch call → List Timer
  | .waiting (some g) => g.timers
  | _ => []

/-- Whether the call of a branch is in flight. -/
def Branch.isRunning {call : PortCall} : Branch call → Bool
  | .waiting (some _) => true
  | _ => false

namespace World

/-- The beginning of a stage.  The refreshes that have to be settled are taken off the list. -/
def reach (w : World) : Stage → World × Point
  | .asking ask => (w, .asking ask none)
  | .settling change =>
    let (tickets, tracker) := w.tracker.take change.recordId
    ({ w with tracker }, .settling change tickets)
  | .announcing change => (w, .announcing change true (.waiting none) (.waiting none))
  | .finished outcome => (w, .finished outcome)

theorem rank_reach (w : World) (s : Stage) : (w.reach s).2.rank = s.rank := by
  cases s <;> rfl

/-- Calls off the first refresh of the list that has not ended; the ones before it are done. -/
def settle (w : World) : List Ticket → World × List Ticket
  | [] => (w, [])
  | ticket :: tickets =>
    if w.isAlive ticket then (w.abort ticket, ticket :: tickets) else w.settle tickets

/-- Looks at a branch.  The reply is noted as soon as it is there. -/
def pollBranch (w : World) (ctx : Context) (spans : List Span) (call : PortCall)
    (notes : call.Reply → List Note) : Branch call → World × Option (Branch call)
  | .replied reply => (w, some (.replied reply))
  | .waiting guarded =>
    match w.visit none ctx spans guarded with
    | (w, .ready reply) => (w.noteAll ctx spans (notes reply), some (.replied reply))
    | (w, .pending g) => (w, some (.waiting (some g)))
    | (w, .broken) => (w, none)

/-- Looks at both branches of an announcement. -/
def pollBranches (w : World) (ctx : Context) (spans : List Span) (change : DomainEvent)
    (cacheFirst : Bool) (cache : Branch (.writeCache change.cacheWrite))
    (events : Branch (.publish change)) :
    World × Option (Branch (.writeCache change.cacheWrite) × Branch (.publish change)) :=
  if cacheFirst then
    match w.pollBranch ctx spans (.writeCache change.cacheWrite) change.cacheNotes cache with
    | (w, none) => (w, none)
    | (w, some cache) =>
      match w.pollBranch ctx spans (.publish change) (fun _ => []) events with
      | (w, none) => (w, none)
      | (w, some events) => (w, some (cache, events))
  else
    match w.pollBranch ctx spans (.publish change) (fun _ => []) events with
    | (w, none) => (w, none)
    | (w, some events) =>
      match w.pollBranch ctx spans (.writeCache change.cacheWrite) change.cacheNotes cache with
      | (w, none) => (w, none)
      | (w, some cache) => (w, some (cache, events))

/-- Takes a request one stage further, if nothing has to be waited for. -/
def move (w : World) (ctx : Context) (spans : List Span) : Point → World × Poll Point Point
  | .asking ask guarded =>
    match w.visit none ctx spans guarded with
    | (w, .ready reply) =>
      let (notes, stage) := w.service.resume ask reply
      let (w, point) := (w.noteAll ctx spans notes).reach stage
      (w, .ready point)
    | (w, .pending g) => (w, .pending (.asking ask (some g)))
    | (w, .broken) => (w, .broken)
  | .settling change tickets =>
    match w.settle tickets with
    | (w, []) =>
      let (w, point) := w.reach (.announcing change)
      (w, .ready point)
    | (w, tickets) => (w, .pending (.settling change tickets))
  | .announcing change cacheFirst cache events =>
    match w.pollBranches ctx spans change cacheFirst cache events with
    | (w, none) => (w, .broken)
    | (w, some (.replied cache, .replied events)) =>
      let (notes, outcome) := change.conclude cache events
      (w.noteAll ctx spans notes, .ready (.finished outcome))
    | (w, some (cache, events)) => (w, .pending (.announcing change (!cacheFirst) cache events))
  | .finished outcome => (w, .pending (.finished outcome))

/-- Each move brings a request closer to its end. -/
theorem rank_move (w : World) (ctx : Context) (spans : List Span) (p : Point) {w' : World}
    {p' : Point} (h : w.move ctx spans p = (w', .ready p')) : p'.rank < p.rank := by
  cases p with
  | asking ask guarded =>
    simp only [move] at h
    split at h
    · simp only [Prod.mk.injEq, Poll.ready.injEq] at h
      rw [← h.2, rank_reach]
      exact Service.rank_resume _ ask _
    · simp at h
    · simp at h
  | settling change tickets =>
    simp only [move] at h
    split at h
    · simp only [Prod.mk.injEq, Poll.ready.injEq] at h
      rw [← h.2, rank_reach]
      exact Nat.lt_succ_self 1
    · simp at h
  | announcing change cacheFirst cache events =>
    simp only [move] at h
    split at h
    · simp at h
    · simp only [Prod.mk.injEq, Poll.ready.injEq] at h
      rw [← h.2]
      exact Nat.lt_succ_self 0
    · simp at h
  | finished outcome => simp [move] at h

/-- Takes a request as far as it can go. -/
def advance (w : World) (ctx : Context) (spans : List Span) (p : Point) :
    World × Poll Outcome Point :=
  match p with
  | .finished outcome => (w, .ready outcome)
  | p =>
    match h : w.move ctx spans p with
    | (w', .ready next) =>
      have := w.rank_move ctx spans p h
      w'.advance ctx spans next
    | (w', .pending p) => (w', .pending p)
    | (w', .broken) => (w', .broken)
termination_by p.rank

/-- Looks at a request under way. -/
def pollCall (w : World) (c : Call) : World × Poll Outcome Call :=
  match w.advance c.ctx c.spans c.point with
  | (w, .ready outcome) => (w, .ready outcome)
  | (w, .pending point) => (w, .pending { c with point })
  | (w, .broken) => (w, .broken)

/-- The span of the caller, around those of the operations. -/
def callerSpans (ctx : Context) : List Span :=
  (ctx.span.map fun name => (⟨"caller", .info, [("name", name)]⟩ : Span)).toList

/-- Starts a request. -/
def openCall (w : World) (ctx : Context) (request : Request) : World × Call :=
  let (w, point) := w.reach (w.service.begin request)
  (w, ⟨ctx.forOperation w.now w.service.config.defaultTimeout,
    callerSpans ctx ++ [request.span], point⟩)

end World

end CacheAside.Simulation
