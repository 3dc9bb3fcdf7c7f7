import CacheAside.Ident.Generator
import CacheAside.Service.Refresh
import CacheAside.Service.Stage
import CacheAside.Simulation.Flight

/-!
# The world of a simulation

A service, its ports and everything that goes on between them, in virtual time.  The clock that
stamps records stands still unless it is moved; the time of timers and deadlines is another one and
passes only when nothing else can happen.  A signal cancels the contexts that carry it.  It can be
given as long as a name stands for it and some context carries it.
-/

namespace CacheAside.Simulation

/-- A refresh in the background. -/
structure Refresh where
  ticket : Ticket
  record : Record
  ctx : Context
  /-- The spans of the read that started it. -/
  spans : List Span
  /-- Its call of the cache, once it has started. -/
  call : Option (Guarded (.writeCache (.keep record))) := none
  /-- It has been called off, but has not noticed yet. -/
  aborted : Bool := false

/-- On whose behalf a call is made: a refresh, or else the caller. -/
abbrev Owner := Option Ticket

/-- A part of the caller's work that is woken and looked at on its own.  It is named by its number
and those of the strands around it, from the inside out; the work as a whole is `[]`. -/
abbrev Strand := List Nat

structure World where
  service : Service := {}
  /-- Events of the service go nowhere. -/
  silent : Bool := false
  /-- The identifiers of the first new records. -/
  names : List RecordId := []
  /-- The number of record identifiers that were asked for. -/
  named : Nat := 0
  /-- The time with which records are stamped. -/
  clock : Timestamp
  /-- Virtual time in milliseconds. -/
  now : Nat := 0
  backend : Backend := {}
  tracker : RefreshTracker := {}
  /-- The refreshes that have not ended, oldest first. -/
  refreshes : List Refresh := []
  /-- The refreshes that can go on, in the order of their turns. -/
  queue : List Ticket := []
  /-- The faults that wait for a call, oldest first. -/
  faults : List (Port × Fault) := []
  /-- The calls that were started. -/
  started : List Port := []
  /-- The calls in flight. -/
  running : List (Owner × Port) := []
  /-- The calls that were given up before their end. -/
  dropped : List Port := []
  failures : FailureCounts := {}
  /-- The failures of the current step that no caller saw, oldest first. -/
  observed : List Failure := []
  /-- The log of the current step, oldest first. -/
  log : List LogEntry := []
  /-- The number of timers that were set. -/
  stamps : Nat := 0
  /-- The number of signals that were made. -/
  signals : Nat := 0
  /-- The signals that were given. -/
  given : List Nat := []
  contexts : List (String × Context) := []
  /-- The signals that can be given by name. -/
  handles : List (String × Nat) := []
  /-- The signals of the contexts under which something is being carried out for the caller. -/
  held : List Nat := []
  /-- The signals that strands wait for. -/
  listening : List (Nat × Strand) := []
  /-- The number of strands that were begun. -/
  strands : Nat := 0
  /-- The strands that were woken and not looked at since, in the order in which they were woken. -/
  woken : List Strand := []
  /-- The strands that let the refreshes go first, the latest in front. -/
  resting : List Strand := []
  /-- For each subscriber the number of events that it has read. -/
  feeds : List (String × Nat) := []

/-- A list of named things in which `name` is the given one. -/
def assign {α : Type} (name : String) (value : α) (list : List (String × α)) : List (String × α) :=
  (name, value) :: list.filter (·.1 ≠ name)

namespace World

/-- Sets a timer. -/
def setTimer (w : World) (due : Nat) : Timer × World :=
  (⟨due, w.stamps⟩, { w with stamps := w.stamps + 1 })

/-- Whether a signal was given. -/
def isGiven (w : World) (signal : Nat) : Bool :=
  w.given.contains signal

/-- The context of a name; the background if there is none. -/
def context (w : World) (name : String) : Context :=
  (w.contexts.lookup name).getD .background

/-- The state of a context now. -/
def check (w : World) (ctx : Context) : Except Interruption Unit :=
  ctx.check w.isGiven w.now

/-- The next record identifier: one of the given, or one made of the clock and a count. -/
def newId (w : World) : RecordId × World :=
  ((w.names[w.named]?).getD (.stamped w.clock (w.named + 1)), { w with named := w.named + 1 })

/-- What a call finds when it takes effect now. -/
def circumstances (w : World) (ttl : Nat) (silent : Bool) : Circumstances where
  now := w.clock
  eventId := .stamped w.clock (w.backend.journal.size + 1)
  ttl
  silent

/-- Writes into the log. -/
def say (w : World) (spans : List Span) (remark : Remark) : World :=
  { w with log := w.log ++ [⟨remark, spans⟩] }

/-- Carries out a call at once, with a time to live in nanoseconds. -/
def serve (w : World) (spans : List Span) (ttl : Nat) (silent : Bool) (call : PortCall) :
    Option call.Reply × World :=
  let served := w.backend.serve (w.circumstances ttl silent) call
  let w := { w with backend := served.backend }
  (served.reply, match served.published with
    | some envelope => w.say spans envelope.remark
    | none => w)

/-- Carries out a call of the service at once. -/
def serveService (w : World) (spans : List Span) (call : PortCall) : Option call.Reply × World :=
  w.serve spans (w.service.config.cacheTtl * nanosPerSecond) w.silent call

/-- The oldest fault that waits for a call of the port. -/
def takeFault (w : World) (port : Port) : Fault × World :=
  match w.faults.find? (·.1 = port) with
  | some (_, fault) => (fault, { w with faults := w.faults.eraseP (·.1 = port) })
  | none => ({}, w)

/-- Counts a call that starts. -/
def launch (w : World) (owner : Owner) (port : Port) : World :=
  { w with started := w.started ++ [port], running := w.running ++ [(owner, port)] }

/-- Counts a call that has replied. -/
def land (w : World) (owner : Owner) (port : Port) : World :=
  { w with running := w.running.erase (owner, port) }

/-- Counts a call that was given up. -/
def dropCall (w : World) (owner : Owner) (port : Port) : World :=
  { w.land owner port with dropped := w.dropped ++ [port] }

/-- Gives up all calls of an owner. -/
def release (w : World) (owner : Owner) : World :=
  { w with
    running := w.running.filter (·.1 ≠ owner)
    dropped := w.dropped ++ (w.running.filter (·.1 = owner)).map (·.2) }

/-- Puts a refresh at the end of the queue, unless it is in it. -/
def wake (w : World) (ticket : Ticket) : World :=
  if w.queue.contains ticket then w else { w with queue := w.queue ++ [ticket] }

/-- Starts a refresh on behalf of a read with the given context and spans. -/
def spawn (w : World) (ctx : Context) (spans : List Span) (record : Record) : World :=
  let (ticket, tracker) := w.tracker.spawn record.id
  let ctx := ctx.withTimeout w.now w.service.config.refreshTimeout
  let refresh : Refresh := { ticket, record, ctx, spans }
  World.wake { w with tracker, refreshes := w.refreshes ++ [refresh] } ticket

/-- What a note makes of the world. -/
def note (w : World) (ctx : Context) (spans : List Span) : Note → World
  | .said remark => w.say spans remark
  | .swallowed failure =>
    World.say { w with
      failures := w.failures.note failure
      observed := w.observed ++ [failure] } spans failure.remark
  | .refresh record => w.spawn ctx spans record

/-- What notes make of the world, one after another. -/
def noteAll (w : World) (ctx : Context) (spans : List Span) (notes : List Note) : World :=
  notes.foldl (fun w n => w.note ctx spans n) w

/-- Whether a refresh has not ended. -/
def isAlive (w : World) (ticket : Ticket) : Bool :=
  w.refreshes.any (·.ticket = ticket)

/-- Calls a refresh off.  It ends when its turn comes. -/
def abort (w : World) (ticket : Ticket) : World :=
  let call (r : Refresh) : Refresh := if r.ticket = ticket then { r with aborted := true } else r
  World.wake { w with refreshes := w.refreshes.map call } ticket

/-- Keeps the signal of a context for something that is carried out under it. -/
def hold (w : World) (ctx : Context) : World :=
  { w with held := ctx.signal.toList ++ w.held }

/-- Lets go of the signal of a context when something under it has ended. -/
def letGo (w : World) (ctx : Context) : World :=
  { w with held := ctx.signal.toList.foldl List.erase w.held }

/-- Whether there is a context with the signal: a named one, or that of something under way. -/
def isCarried (w : World) (signal : Nat) : Bool :=
  w.held.contains signal ||
    (w.contexts.map (·.2) ++ w.refreshes.map (·.ctx)).any (·.signal = some signal)

/-- Wakes a strand, and with it those around it.  One that is awake has woken them already. -/
def stir (w : World) : Strand → World
  | [] => if w.woken.contains [] then w else { w with woken := w.woken ++ [[]] }
  | n :: around =>
    if w.woken.contains (n :: around) then w
    else World.stir { w with woken := w.woken ++ [n :: around] } around

/-- Wakes strands in order. -/
def stirAll (w : World) (strands : List Strand) : World :=
  strands.foldl stir w

/-- Lets the refreshes go before a strand is looked at again. -/
def rest (w : World) (strand : Strand) : World :=
  { w with resting := strand :: w.resting }

/-- Wakes all that wait for a signal. -/
def rouse (w : World) (signal : Nat) : World :=
  let waiting := w.refreshes.filter fun r => r.call.isSome && r.ctx.signal = some signal
  (waiting.foldl (fun w r => w.wake r.ticket) w).stirAll
    ((w.listening.filter (·.1 = signal)).map (·.2))

/-- Gives a signal.  One that no context carries any more stays as it is. -/
def give (w : World) (signal : Nat) : World :=
  if w.isCarried signal then World.rouse { w with given := signal :: w.given } signal else w

/-- Takes away the means to give the signal of a name.  Those that wait for it are woken, to wait
on in vain. -/
def dropHandle (w : World) (name : String) : World :=
  match w.handles.lookup name with
  | some signal => World.rouse { w with handles := w.handles.filter (·.1 ≠ name) } signal
  | none => w

end World

end CacheAside.Simulation
