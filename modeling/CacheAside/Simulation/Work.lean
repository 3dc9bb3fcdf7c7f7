import CacheAside.Simulation.Action

/-!
# Steps

A step is an action, or a step under a named context, or a step that is repeated, or several steps
side by side.  `Work` is a step that is being carried out, and `Work.waits` says what it waits for.
-/

namespace CacheAside.Simulation

/-- A step of a script. -/
inductive Step where
  /-- Carries out an action; under the background, unless something else is said. -/
  | act (action : Action)
  /-- Carries out an action under the context of a name.  Any other step only keeps that context in
  use while it lasts.  The signal of the name may be given some milliseconds into the step. -/
  | under (name : String) (cancelAfter : Option Nat) (step : Step)
  | rounds (count : Nat) (step : Step)
  | abreast (steps : List Step)

/-- The state of a cancellation that may be to come. -/
inductive Alarm where
  | unset (after : Nat)
  | set (timer : Timer)
  /-- It has gone off, or there is none. -/
  | off

/-- A step that is being carried out. -/
inductive Work where
  | finished (finding : Finding)
  | fresh (action : Action)
  | underWay (task : Task)
  /-- The context of the name is taken up at the beginning. -/
  | entering (name : String) (cancelAfter : Option Nat) (work : Work)
  | under (ctx : Context) (name : String) (alarm : Alarm) (work : Work)
  /-- A round is being carried out; `left` more will follow, each from the start. -/
  | rounds (left : Nat) (round work : Work)
  /-- Goes on when it has been looked at so many times. -/
  | paused (looks : Nat) (work : Work)
  /-- Parts that are all looked at when one of them has been woken. -/
  | abreast (works : List Work)
  /-- Parts that are strands of their own.  Once they have begun, `first` is the number of the first
  of them; the others follow it. -/
  | crowd (first : Option Nat) (works : List Work)

/-- More steps side by side than these are looked at one by one. -/
def abreastLimit : Nat := 30

mutual

/-- A step that has not been started yet. -/
def Step.work : Step → Work
  | .act action => .fresh action
  | .under name cancelAfter step => .entering name cancelAfter step.work
  | .rounds 0 _ => .finished .nothing
  | .rounds (n + 1) step => .rounds n step.work step.work
  | .abreast steps =>
    if steps.length ≤ abreastLimit then .abreast (Step.works steps)
    else .crowd none (Step.works steps)

/-- Steps that have not been started yet. -/
def Step.works : List Step → List Work
  | [] => []
  | step :: steps => step.work :: Step.works steps

end

/-- The findings of works that have all ended. -/
def findings? : List Work → Option (List Finding)
  | [] => some []
  | .finished finding :: works => (findings? works).map (finding :: ·)
  | _ :: _ => none

/-- Whether work has ended. -/
def Work.isFinished : Work → Bool
  | .finished _ => true
  | _ => false

/-! ## What work waits for -/

/-- Something that work waits for. -/
structure Wait where
  timers : List Timer := []
  signal : Option Nat := none
  /-- A refresh that has to end. -/
  ticket : Option Ticket := none

/-- What a request under way waits for. -/
def Call.wait (c : Call) : Wait :=
  match c.point with
  | .asking _ (some g) => { timers := g.timers, signal := c.ctx.signal }
  | .settling _ (ticket :: _) => { ticket := some ticket }
  | .announcing _ _ cache events =>
    { timers := cache.timers ++ events.timers
      signal := if cache.isRunning || events.isRunning then c.ctx.signal else none }
  | _ => {}

/-- What a task waits for. -/
def Task.wait : Task → Wait
  | .call c => c.wait
  | .sleeping timer => { timers := [timer] }
  | .awaitingCancel ctx timer => { timers := [timer], signal := ctx.signal }
  | .guarding ctx deadline timer =>
    { timers := deadline.toList ++ timer.toList, signal := ctx.signal }

/-- What an alarm waits for. -/
def Alarm.wait : Alarm → Wait
  | .set timer => { timers := [timer] }
  | _ => {}

mutual

/-- All that the work of a strand waits for, each with the strand that it wakes. -/
def Work.waits (strand : Strand) : Work → List (Strand × Wait)
  | .finished _ => []
  | .fresh _ => []
  | .underWay task => [(strand, task.wait)]
  | .entering _ _ _ => []
  | .under _ _ alarm work => (strand, alarm.wait) :: work.waits strand
  | .rounds _ _ work => work.waits strand
  | .paused _ _ => []
  | .abreast works => Work.allWaits strand works
  | .crowd none _ => []
  | .crowd (some first) works => Work.crowdWaits strand first works

/-- All that any of several works of a strand waits for. -/
def Work.allWaits (strand : Strand) : List Work → List (Strand × Wait)
  | [] => []
  | work :: works => work.waits strand ++ Work.allWaits strand works

/-- All that any of several strands waits for; they are numbered from `n` on. -/
def Work.crowdWaits (around : Strand) (n : Nat) : List Work → List (Strand × Wait)
  | [] => []
  | work :: works => work.waits (n :: around) ++ Work.crowdWaits around (n + 1) works

end

/-! ## How long work can go on -/

/-- How often a repeated step that has ended a round is looked at before it goes on.  Meanwhile the
refreshes have their turns, and the steps beside it go on as far as they can. -/
def lull : Nat := 100

mutual

/-- A bound of how often work is woken without any time passing. -/
def Work.size : Work → Nat
  | .finished _ => 1
  | .fresh _ => 4
  | .underWay _ => 4
  | .entering _ _ work => work.size + 2
  | .under _ _ _ work => work.size + 2
  | .rounds left round work => (left + 1) * (round.size + lull + 2) + work.size
  | .paused looks work => work.size + looks + 1
  | .abreast works => Work.sizes works + 1
  | .crowd _ works => Work.sizes works + 1

/-- A bound for several works. -/
def Work.sizes : List Work → Nat
  | [] => 0
  | work :: works => work.size + Work.sizes works

end

mutual

/-- How deep strands lie within one another. -/
def Work.depth : Work → Nat
  | .finished _ => 0
  | .fresh _ => 0
  | .underWay _ => 0
  | .entering _ _ work => work.depth
  | .under _ _ _ work => work.depth
  | .rounds _ round work => max round.depth work.depth
  | .paused _ work => work.depth
  | .abreast works => Work.depths works
  | .crowd _ works => Work.depths works + 1

/-- How deep strands lie within one another in any of several works. -/
def Work.depths : List Work → Nat
  | [] => 0
  | work :: works => max work.depth (Work.depths works)

end

end CacheAside.Simulation
