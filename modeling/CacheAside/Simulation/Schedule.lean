import CacheAside.Simulation.Background
import CacheAside.Simulation.Look

/-!
# The schedule of a step

Whatever has been woken goes on before any time passes: first the step itself, then refreshes in the
order of their queue, then the step again if that has woken it.  When nothing can go on, time jumps
to the next timer.  A step that has not ended after an hour of virtual time is given up.
-/

namespace CacheAside.Simulation

/-- Milliseconds after which a step is given up. -/
def patience : Nat := 3600000

/-- The number of turns that refreshes have at most before the step is looked at again. -/
def turnsPerLook : Nat := 61

/-- The earliest of some moments. -/
def earliest (moments : List Nat) (last : Nat) : Nat :=
  moments.foldl min last

namespace World

/-- The moment to which time jumps when nothing can go on before it. -/
def nextMoment (w : World) (waits : List (Strand × Wait)) (limit : Nat) : Nat :=
  let timers := waits.flatMap (·.2.timers) ++ w.refreshes.flatMap timersOf
  max w.now (earliest (timers.map (·.due)) limit)

/-- The strands with a timer at the moment `now`, in the order in which the timers were set. -/
def dueStrands (waits : List (Strand × Wait)) (now : Nat) : List Strand :=
  let due := waits.flatMap fun (strand, wait) =>
    (wait.timers.filter (·.due ≤ now)).map fun timer => (timer.stamp, strand)
  (due.mergeSort fun a b => a.1 ≤ b.1).map (·.2)

/-- Lets time pass until the next moment, which wakes those that wait for it. -/
def jump (w : World) (waits : List (Strand × Wait)) (limit : Nat) : World :=
  let now := w.nextMoment waits limit
  let w := (w.passUntil now).stirAll (dueStrands waits now)
  if limit ≤ now then w.stir [] else w

/-- Gives refreshes their turns.  The strands that wait for one that has ended are woken, and then
those that have let the refreshes go first, the latest of them before the others. -/
def giveTurns (w : World) (waits : List (Strand × Wait)) : World :=
  let (w, ended) := w.serveTurns turnsPerLook
  let waiting := ended.flatMap fun ticket =>
    (waits.filter (·.2.ticket = some ticket)).map (·.1)
  { w with resting := [] }.stirAll (waiting ++ w.resting)

/-- Carries a step on until it has ended, broken down or been given up.  The fuel bounds how often
it is looked at, refreshes have turns and time jumps. -/
def carry (limit : Nat) : (fuel : Nat) → World → Work → World × Finding
  | 0, w, _ => (w.release none, .stuck)
  | fuel + 1, w, work =>
    if w.woken.contains [] then
      match w.look work with
      | (w, none) => (w.release none, .brokeDown)
      | (w, some (.finished finding)) => (w, finding)
      | (w, some work) =>
        if limit ≤ w.now then (w.release none, .stuck)
        else carry limit fuel (w.giveTurns (work.waits [])) work
    else if w.queue.isEmpty then carry limit fuel (w.jump (work.waits []) limit) work
    else carry limit fuel (w.giveTurns (work.waits [])) work

/-- Carries a step out from its start.  Afterwards the refreshes go on as far as they can without
any time passing, unless they are held back. -/
def runStep (w : World) (step : Step) (hold : Bool) : World × Finding :=
  let work := step.work
  -- time jumps at most once a millisecond, and between two jumps each part is woken a few times
  let size := work.size + w.refreshes.length + 1
  let (w, finding) := carry (w.now + patience) (4 * (patience + size) * size)
    { w with
      observed := [], log := [], held := [], listening := [], woken := [[]], resting := [] } work
  (if hold then w else w.drain, finding)

end World

/-- A step with the wish to hold the refreshes back after it. -/
structure ScriptStep where
  step : Step
  hold : Bool := false

/-- Carries out the steps of a script, and collects what each has found and left behind. -/
def run : World → List ScriptStep → List (Finding × World)
  | _, [] => []
  | w, s :: rest =>
    let (w, finding) := w.runStep s.step s.hold
    (finding, w) :: run w rest

end CacheAside.Simulation
