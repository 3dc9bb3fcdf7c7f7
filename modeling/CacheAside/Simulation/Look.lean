import CacheAside.Simulation.Work

/-!
# Looking at work

Work is looked at again whenever it has been woken, and everything in it that has not ended is then
looked at in order.  The parts of a crowd are strands of their own: of these only the ones that have
been woken are looked at, in the order in which they were woken.
-/

namespace CacheAside.Simulation

/-- A way to look at the work of a strand; nothing is left of work that breaks down. -/
abbrev Look := Strand → World → Work → World × Option Work

namespace World

/-- What becomes of a task.  What it waits for is noted. -/
def keepTask (strand : Strand) : Progress → World × Option Work
  | (w, .ready finding) => (w, some (.finished finding))
  | (w, .pending task) =>
    ({ w with listening := w.listening ++ task.wait.signal.toList.map (·, strand) },
      some (.underWay task))
  | (w, .broken) => (w, none)

/-- Looks at a task again. -/
def resumeTask (strand : Strand) (w : World) (task : Task) : World × Option Work :=
  let heard := task.wait.signal.toList.map (·, strand)
  keepTask strand (World.pollTask { w with listening := heard.foldl List.erase w.listening } task)

/-- Sets the timer of an alarm. -/
def setAlarm (w : World) : Alarm → World × Alarm
  | .unset after => let (timer, w) := w.setTimer (w.now + after); (w, .set timer)
  | alarm => (w, alarm)

/-- Gives the signal that a name has by now when the time of an alarm has come. -/
def ring (w : World) (name : String) : Alarm → World × Alarm
  | .set timer =>
    if timer.due ≤ w.now then
      (match w.handles.lookup name with
        | some signal => w.give signal
        | none => w, .off)
    else (w, .set timer)
  | alarm => (w, alarm)

/-- What becomes of work under a context.  It comes to its end before an alarm of the same
moment. -/
def keepUnder (ctx : Context) (name : String) (alarm : Alarm) :
    World × Option Work → World × Option Work
  | (w, none) => (w, none)
  | (w, some (.finished finding)) => (w.letGo ctx, some (.finished finding))
  | (w, some work) =>
    let (w, alarm) := w.setAlarm alarm
    let (w, alarm) := w.ring name alarm
    (w, some (.under ctx name alarm work))

/-! ## Strands -/

/-- The parts of a crowd that have not ended. -/
def unfinished (works : List Work) : Nat :=
  works.countP fun work => !work.isFinished

/-- Begins a crowd within a strand, unless it has begun already.  All its parts are awake then.  The
result goes with the number of the first part. -/
def assemble (w : World) (around : Strand) (size : Nat) : Option Nat → World × Nat
  | some first => (w, first)
  | none =>
    let parts := (List.range size).map fun i => (w.strands + i) :: around
    ({ w with woken := w.woken ++ parts, strands := w.strands + size }, w.strands)

/-- The place and the work of the part of a crowd that was woken first; parts that have ended are
passed over. -/
def nextPart (w : World) (around : Strand) (first : Nat) (works : List Work) :
    Option (Nat × Work) :=
  w.woken.findSome? fun
    | [] => none
    | n :: outer =>
      if outer = around ∧ first ≤ n then
        match works[n - first]? with
        | some (.finished _) => none
        | some work => some (n - first, work)
        | none => none
      else none

/-- Looks at the parts of a crowd that are awake.  Once it has looked at `left` of them in vain, or
at two that have woken themselves meanwhile, it stops and wakes the strand around them.  It counts
anew whenever a part ends. -/
def pollCrowd (look : Look) (around : Strand) (first : Nat) : (fuel left restless : Nat) →
    World → List Work → World × Option (List Work)
  | 0, _, _, w, works => (w, some works)
  | fuel + 1, left, restless, w, works =>
    match w.nextPart around first works with
    | none => (w, some works)
    | some (i, work) =>
      let part := (first + i) :: around
      match look part { w with woken := w.woken.erase part } work with
      | (w, none) => (w, none)
      | (w, some (.finished finding)) =>
        let works := works.set i (.finished finding)
        pollCrowd look around first fuel (unfinished works) 0
          { w with woken := w.woken.erase part } works
      | (w, some work) =>
        let works := works.set i work
        let restless := if w.woken.contains part then restless + 1 else restless
        if left ≤ 1 ∨ 2 ≤ restless then (w.stir around, some works)
        else pollCrowd look around first fuel (left - 1) restless w works

/-- What becomes of parts side by side. -/
def keepAbreast (keep : List Work → Work) :
    World × Option (List Work) → World × Option Work
  | (w, none) => (w, none)
  | (w, some works) =>
    match findings? works with
    | some findings => (w, some (.finished (.several findings)))
    | none => (w, some (keep works))

mutual

/-- Looks at work of a strand under a context.  The strands within it are looked at by `look`. -/
def pollWork (look : Look) (strand : Strand) (w : World) (ctx : Context) :
    Work → World × Option Work
  | .finished finding => (w, some (.finished finding))
  | .fresh action => keepTask strand (w.start ctx action)
  | .underWay task => w.resumeTask strand task
  | .entering name cancelAfter work =>
    let ctx := w.context name
    keepUnder ctx name (cancelAfter.elim .off .unset)
      (pollWork look strand (w.hold ctx) ctx work)
  | .under ctx name alarm work => keepUnder ctx name alarm (pollWork look strand w ctx work)
  | .rounds left round work =>
    match pollWork look strand w .background work with
    | (w, none) => (w, none)
    -- between two rounds the refreshes have their turns
    | (w, some (.finished finding)) =>
      (w.rest strand, some (.paused lull (match left with
        | 0 => .finished finding
        | left + 1 => .rounds left round round)))
    | (w, some work) => (w, some (.rounds left round work))
  | .paused looks work =>
    if looks ≤ 1 then pollWork look strand w .background work
    else (w.rest strand, some (.paused (looks - 1) work))
  | .abreast works => keepAbreast .abreast (pollWorks look strand w works)
  | .crowd first works =>
    let (w, first) := w.assemble strand works.length first
    let n := unfinished works
    keepAbreast (.crowd (some first))
      (w.pollCrowd look strand first ((n + 1) * (n + 1)) n 0 works)

/-- Looks at works of a strand in order, up to one that breaks down. -/
def pollWorks (look : Look) (strand : Strand) (w : World) :
    List Work → World × Option (List Work)
  | [] => (w, some [])
  | work :: works =>
    match pollWork look strand w .background work with
    | (w, none) => (w, none)
    | (w, some work) =>
      match pollWorks look strand w works with
      | (w, none) => (w, none)
      | (w, some works) => (w, some (work :: works))

end

/-- Looks at the work of a strand in which strands lie at most so deep within one another. -/
def lookAt : (depth : Nat) → Look
  | 0, strand, w, work => pollWork (fun _ w work => (w, some work)) strand w .background work
  | depth + 1, strand, w, work => pollWork (lookAt depth) strand w .background work

/-- Looks at the caller's work as a whole. -/
def look (w : World) (work : Work) : World × Option Work :=
  lookAt work.depth [] { w with woken := w.woken.erase [] } work

end World

end CacheAside.Simulation
