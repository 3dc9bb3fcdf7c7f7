import CacheAside.Simulation.World

/-!
# Calls under way

A call of the service starts by taking the oldest fault that waits for it, and is then looked at
again whenever something may have happened.  A guarded call never starts under an interrupted
context.  Whenever it is looked at, a cancellation counts before the deadline, and the deadline
before the reply.
-/

namespace CacheAside.Simulation.World

/-- Gives the reply of a call, at once or after a wait. -/
def reply (w : World) (owner : Owner) {call : PortCall} (fault : Fault) (reply : call.Reply) :
    World × Poll call.Reply (Flight call) :=
  if fault.delayAfter = 0 then (w.land owner call.port, .ready reply)
  else
    let (timer, w) := w.setTimer (w.now + fault.delayAfter)
    (w, .pending (.after reply timer))

/-- The moment of a call's effect, or of its failure in place of an effect. -/
def act (w : World) (owner : Owner) (spans : List Span) (call : PortCall) (fault : Fault) :
    World × Poll call.Reply (Flight call) :=
  match fault.error, fault.after with
  -- it fails before it takes effect
  | some e, false => w.reply owner fault (.error (failWith e call))
  | error, _ =>
    match w.serveService spans call with
    | (none, w) => (w, .broken)
    | (some (.error e), w) => w.reply owner fault (.error e)
    -- it has taken effect, whatever the caller is told
    | (some (.ok value), w) => w.reply owner fault (match error with
      | some e => .error (failWith e call)
      | none => .ok value)

/-- Whether a call is counted and can be given faults: publishing into the void cannot. -/
def isWatched (w : World) : PortCall → Bool
  | .publish _ => !w.silent
  | _ => true

/-- Starts a call. -/
def depart (w : World) (owner : Owner) (spans : List Span) (call : PortCall) :
    World × Poll call.Reply (Flight call) :=
  if w.isWatched call then
    let (fault, w) := (w.launch owner call.port).takeFault call.port
    if fault.hang then (w, .pending (.before fault none))
    else if fault.delay = 0 then w.act owner spans call fault
    else
      let (timer, w) := w.setTimer (w.now + fault.delay)
      (w, .pending (.before fault (some timer)))
  else w.act owner spans call {}

/-- Looks at a call in flight. -/
def follow (w : World) (owner : Owner) (spans : List Span) {call : PortCall} :
    Flight call → World × Poll call.Reply (Flight call)
  | .before fault (some timer) =>
    if timer.due ≤ w.now then w.act owner spans call fault
    else (w, .pending (.before fault (some timer)))
  | .before fault none => (w, .pending (.before fault none))
  | .after reply timer =>
    if timer.due ≤ w.now then (w.land owner call.port, .ready reply)
    else (w, .pending (.after reply timer))

/-- A call in flight is kept together with the timer of its deadline. -/
def keepDeadline {call : PortCall} (deadline : Option Timer) :
    Poll call.Reply (Flight call) → Poll call.Reply (Guarded call)
  | .ready reply => .ready reply
  | .pending flight => .pending ⟨deadline, flight⟩
  | .broken => .broken

/-- Sets a timer for the deadline of a context, if it has one. -/
def setDeadline (w : World) (ctx : Context) : Option Timer × World :=
  match ctx.deadline with
  | some due => let (timer, w) := w.setTimer due; (some timer, w)
  | none => (none, w)

/-- Starts a call under a context. -/
def enter (w : World) (owner : Owner) (ctx : Context) (spans : List Span) (call : PortCall) :
    World × Poll call.Reply (Guarded call) :=
  match w.check ctx with
  | .error cause => (w, .ready (.error (call.interrupted cause)))
  | .ok () =>
    let (deadline, w) := w.setDeadline ctx
    let (w, poll) := w.depart owner spans call
    (w, keepDeadline deadline poll)

/-- Looks at a call under a context. -/
def revisit (w : World) (owner : Owner) (ctx : Context) (spans : List Span) {call : PortCall}
    (g : Guarded call) : World × Poll call.Reply (Guarded call) :=
  match w.check ctx with
  | .error cause => (w.dropCall owner call.port, .ready (.error (call.interrupted cause)))
  | .ok () =>
    let (w, poll) := w.follow owner spans g.flight
    (w, keepDeadline g.deadline poll)

/-- Starts a call under a context, or looks at it when it has been started. -/
def visit (w : World) (owner : Owner) (ctx : Context) (spans : List Span) {call : PortCall} :
    Option (Guarded call) → World × Poll call.Reply (Guarded call)
  | none => w.enter owner ctx spans call
  | some g => w.revisit owner ctx spans g

end CacheAside.Simulation.World
