import CacheAside.Simulation.Guard

/-!
# Refreshes in the background

Refreshes take turns in the order in which they were woken.  A refresh that was called off ends
when its turn comes, without any further effect; one that was called off before its first turn has
made no call at all.  A refresh that breaks down ends silently.
-/

namespace CacheAside.Simulation.World

/-- Forgets a refresh that has ended. -/
def retire (w : World) (ticket : Ticket) : World :=
  { w with refreshes := w.refreshes.filter (·.ticket ≠ ticket) }

/-- Notes how far the call of a refresh has got. -/
def keepCall (w : World) (r : Refresh) (call : Guarded (.writeCache (.keep r.record))) : World :=
  { w with refreshes := w.refreshes.map fun s =>
      if s.ticket = r.ticket then { r with call := some call } else s }

/-- The turn of a refresh, and whether it has ended. -/
def turn (w : World) (r : Refresh) : World × Bool :=
  if r.aborted then ((w.release (some r.ticket)).retire r.ticket, true)
  else
    match w.visit (some r.ticket) r.ctx r.spans r.call with
    | (w, .ready reply) =>
      let w := w.noteAll r.ctx r.spans (Service.refillNotes r.record reply)
      -- it takes itself off the list, on which it is no more if a writer has taken it off
      let w := { w with tracker := w.tracker.finish r.record.id r.ticket }
      (w.retire r.ticket, true)
    | (w, .pending call) => (w.keepCall r call, false)
    | (w, .broken) => ((w.release (some r.ticket)).retire r.ticket, true)

/-- Gives a refresh its turn; adds it to those that have ended if it ends. -/
def serveTurn (state : World × List Ticket) (ticket : Ticket) : World × List Ticket :=
  match state.1.refreshes.find? (·.ticket = ticket) with
  | none => state
  | some r =>
    let (w, hasEnded) := state.1.turn r
    (w, if hasEnded then state.2 ++ [ticket] else state.2)

/-- Gives so many refreshes at the head of the queue their turns, and tells which of them have
ended. -/
def serveTurns (w : World) (turns : Nat) : World × List Ticket :=
  (w.queue.take turns).foldl serveTurn ({ w with queue := w.queue.drop turns }, [])

/-- Gives every refresh in the queue its turn. -/
def drain (w : World) : World :=
  (w.serveTurns w.queue.length).1

/-- The timers of a refresh. -/
def timersOf (r : Refresh) : List Timer :=
  match r.call with
  | some call => call.timers
  | none => []

/-- Lets time pass until `now`.  The refreshes that have a timer at that moment are woken in the
order in which the timers were set. -/
def passUntil (w : World) (now : Nat) : World :=
  let due := w.refreshes.flatMap fun r =>
    ((timersOf r).filter (·.due ≤ now)).map fun timer => (timer.stamp, r.ticket)
  let sorted := due.mergeSort fun a b => a.1 ≤ b.1
  sorted.foldl (fun w d => w.wake d.2) { w with now }

end CacheAside.Simulation.World
