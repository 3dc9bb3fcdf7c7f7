import CacheAside.Simulation.Call

/-!
# Actions

What a step of a script can do: ask the service, use the ports directly, make faults, move the
clock, wait, and work with contexts.
-/

namespace CacheAside.Simulation

/-- What is done in a step, under the context of the step. -/
inductive Action where
  | create (input : NewRecord)
  | request (request : Request)
  /-- Ask the service for a page, if the numbers make one. -/
  | list (offset limit : Int)
  /-- Let the next calls of a port meet a fault. -/
  | fault (port : Port) (fault : Fault) (times : Nat)
  /-- Take all faults back that no call has met. -/
  | heal
  /-- Move the clock by milliseconds, in either direction. -/
  | advanceClock (millis : Int)
  | setClock (time : Timestamp)
  | readClock
  | sleep (millis : Nat)
  /-- Name a new context: a copy of the one at hand, or a fresh one with a signal.  It may get a
  span of its own name. -/
  | newContext (name : String) (cancel : Bool) (timeout deadline : Option Nat) (span : Bool)
  /-- Give the signal of a name. -/
  | cancel (name : String)
  /-- Forget how to give the signal of a name. -/
  | dropHandle (name : String)
  /-- Forget the context of a name, but not how to give its signal. -/
  | forget (name : String)
  | check
  /-- Wait so many milliseconds for the cancellation of the context. -/
  | awaitCancel (millis : Nat)
  /-- Wait under the context; without an end if there is no delay. -/
  | guard (delay : Option Nat)
  /-- Call a port directly, with the time that a cache entry lives in nanoseconds. -/
  | call (ttl : Nat) (silent : Bool) (call : PortCall)
  /-- Read a page of the store directly, if the numbers make one. -/
  | readPage (offset limit : Int)
  | childRows (id : RecordId)
  | isStoreEmpty
  | peek (id : RecordId)
  | purge
  | isCacheEmpty
  | published
  | publishedFor (id : RecordId)
  | subscribe (name : String)
  | receive (name : String) (count : Nat)

/-- What comes of an action. -/
inductive Finding where
  | done
  | nothing
  | outcome (outcome : Outcome)
  | replied (call : PortCall) (reply : call.Reply)
  | interrupted (cause : Interruption)
  /-- A guarded wait has come to its end. -/
  | passed
  | time (time : Timestamp)
  | deadline (due : Option Nat)
  /-- The state of a signal before and after. -/
  | signal (before after : Bool)
  | verdict (holds : Bool)
  | count (n : Nat)
  | entry (record : Option Record)
  | events (events : List DomainEvent)
  | envelopes (envelopes : List EventEnvelope)
  | deliveries (deliveries : List Delivery)
  | several (findings : List Finding)
  /-- Nothing of that name is there. -/
  | unknown
  /-- Given up after too long a time. -/
  | stuck
  | brokeDown

/-- Something that is under way for the caller. -/
inductive Task where
  | call (call : Call)
  | sleeping (timer : Timer)
  | awaitingCancel (ctx : Context) (timer : Timer)
  | guarding (ctx : Context) (deadline timer : Option Timer)

/-- An action ends with a finding, or goes on as a task, or breaks down. -/
abbrev Progress := World × Poll Finding Task

namespace World

/-- Looks at a task. -/
def pollTask (w : World) : Task → Progress
  | .call c =>
    match w.pollCall c with
    | (w, .ready outcome) => (w, .ready (.outcome outcome))
    | (w, .pending c) => (w, .pending (.call c))
    | (w, .broken) => (w, .broken)
  | .sleeping timer =>
    (w, if timer.due ≤ w.now then .ready .done else .pending (.sleeping timer))
  | .awaitingCancel ctx timer =>
    (w, if ctx.isCancelled w.isGiven then .ready (.verdict true)
      else if timer.due ≤ w.now then .ready (.verdict false)
      else .pending (.awaitingCancel ctx timer))
  | .guarding ctx deadline timer =>
    (w, match w.check ctx with
      | .error cause => .ready (.interrupted cause)
      | .ok () =>
        if timer.any (·.due ≤ w.now) then .ready .passed
        else .pending (.guarding ctx deadline timer))

/-- Starts a request under a context. -/
def ask (w : World) (ctx : Context) (request : Request) : Progress :=
  let (w, c) := w.openCall ctx request
  w.pollTask (.call c)

/-- Makes a record of the caller's input and asks the service to store it. -/
def create (w : World) (ctx : Context) (input : NewRecord) : Progress :=
  let (id, w) := w.newId
  w.ask ctx (.create (.ofNew id input w.clock))

/-- Names a new context. -/
def newContext (w : World) (parent : Context) (name : String) (cancel : Bool)
    (timeout deadline : Option Nat) (span : Bool) : Progress :=
  let (ctx, w) : Context × World :=
    if cancel then
      let w := w.dropHandle name
      ({ signal := some w.signals }, { w with
        signals := w.signals + 1
        handles := assign name w.signals w.handles })
    else (parent, w)
  let ctx := match timeout with
    | some millis => ctx.withTimeout w.now millis
    | none => ctx
  let ctx := match deadline with
    | some due => ctx.withDeadline due
    | none => ctx
  let ctx := if span then { ctx with span := some name } else ctx
  ({ w with contexts := assign name ctx w.contexts }, .ready (.deadline ctx.deadline))

/-- Gives the signal of a name. -/
def cancel (w : World) (name : String) : Progress :=
  match w.handles.lookup name with
  | none => (w, .ready .unknown)
  | some signal =>
    let after := w.give signal
    (after, .ready (.signal (w.isGiven signal) (after.isGiven signal)))

/-- Calls a port directly. -/
def callDirectly (w : World) (ctx : Context) (ttl : Nat) (silent : Bool) (call : PortCall) :
    Progress :=
  match w.check ctx with
  | .error cause => (w, .ready (.replied call (.error (call.interrupted cause))))
  | .ok () =>
    match w.serve [] ttl silent call with
    | (some reply, w) => (w, .ready (.replied call reply))
    | (none, w) => (w, .broken)

/-- Reads on for a subscriber. -/
def receive (w : World) (name : String) (count : Nat) : Progress :=
  match w.feeds.lookup name with
  | none => (w, .ready .unknown)
  | some position =>
    let (deliveries, position) := w.backend.journal.receiveMany count position
    ({ w with feeds := assign name position w.feeds }, .ready (.deliveries deliveries))

/-- Starts a wait under a context. -/
def guard (w : World) (ctx : Context) (delay : Option Nat) : Progress :=
  match w.check ctx with
  | .error cause => (w, .ready (.interrupted cause))
  | .ok () =>
    let (deadline, w) := w.setDeadline ctx
    match delay with
    | none => (w, .pending (.guarding ctx deadline none))
    | some millis =>
      let (timer, w) := w.setTimer (w.now + millis)
      w.pollTask (.guarding ctx deadline (some timer))

/-- Starts an action under a context. -/
def start (w : World) (ctx : Context) : Action → Progress
  | .create input => w.create ctx input
  | .request request => w.ask ctx request
  | .list offset limit =>
    match Page.make? offset limit with
    | .ok page => w.ask ctx (.list page)
    | .error e => (w, .ready (.outcome (.error (.validation (.page e)))))
  | .fault port fault times =>
    ({ w with faults := w.faults ++ List.replicate times (port, fault) }, .ready .done)
  | .heal => ({ w with faults := [] }, .ready .done)
  | .advanceClock millis =>
    match w.clock.shift? (millis * 1000000) with
    | some clock => ({ w with clock }, .ready (.time clock))
    | none => (w, .broken)
  | .setClock clock => ({ w with clock }, .ready (.time clock))
  | .readClock => (w, .ready (.time w.clock))
  | .sleep millis =>
    let (timer, w) := w.setTimer (w.now + millis)
    w.pollTask (.sleeping timer)
  | .newContext name cancel timeout deadline span =>
    w.newContext ctx name cancel timeout deadline span
  | .cancel name => w.cancel name
  | .dropHandle name => (w.dropHandle name, .ready (.verdict (w.handles.lookup name).isSome))
  | .forget name =>
    ({ w with contexts := w.contexts.filter (·.1 ≠ name) },
      .ready (.verdict (w.contexts.lookup name).isSome))
  | .check =>
    match w.check ctx with
    | .ok () => (w, .ready (.deadline ctx.deadline))
    | .error cause => (w, .ready (.interrupted cause))
  | .awaitCancel millis =>
    let (timer, w) := w.setTimer (w.now + millis)
    w.pollTask (.awaitingCancel ctx timer)
  | .guard delay => w.guard ctx delay
  | .call ttl silent call => w.callDirectly ctx ttl silent call
  | .readPage offset limit =>
    match Page.make? offset limit with
    | .ok page => w.callDirectly ctx 0 false (.findAll page)
    | .error e => (w, .ready (.outcome (.error (.validation (.page e)))))
  | .childRows id => (w, .ready (.count (w.backend.store.childRows id)))
  | .isStoreEmpty => (w, .ready (.verdict (w.backend.store.size = 0)))
  | .peek id => (w, .ready (.entry (w.backend.cache.peek w.clock id)))
  | .purge =>
    let (dropped, cache) := w.backend.cache.purge w.clock
    ({ w with backend := { w.backend with cache } }, .ready (.count dropped))
  | .isCacheEmpty => (w, .ready (.verdict (w.backend.cache.size w.clock = 0)))
  | .published => (w, .ready (.envelopes w.backend.journal.events))
  | .publishedFor id => (w, .ready (.events (w.backend.journal.eventsFor id)))
  | .subscribe name =>
    ({ w with feeds := assign name w.backend.journal.size w.feeds }, .ready .done)
  | .receive name count => w.receive name count

end World

end CacheAside.Simulation
