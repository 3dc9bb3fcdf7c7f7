import CacheAside.Backend
import CacheAside.Trace

/-!
# Calls that take their time

In a simulation a call of a port may be given a fault: it then waits, or fails, or never answers.
This module says what a call is doing while it is in flight.
-/

namespace CacheAside.Simulation

/-- A moment of virtual time, in milliseconds, at which someone wants to be woken. -/
structure Timer where
  due : Nat
  /-- Of timers that are due together, the one with the lower stamp was set first. -/
  stamp : Nat
  deriving DecidableEq, Repr

/-- What goes wrong with one call.  It waits, fails or takes effect, and waits again before it
replies. -/
structure Fault where
  /-- The call never gets any further. -/
  hang : Bool := false
  /-- Milliseconds before the call takes effect or fails. -/
  delay : Nat := 0
  /-- The error with which the call fails. -/
  error : Option StoreError := none
  /-- The call fails only after it took effect. -/
  after : Bool := false
  /-- Milliseconds between the effect, or the failure, and the reply. -/
  delayAfter : Nat := 0
  deriving DecidableEq, Repr

/-- The failure of a call with a given error.  Only the store knows missing and conflicting
records; to the other ports their mention is a trouble of the backend. -/
def failWith (e : StoreError) : (call : PortCall) → call.Failure
  | .findAll _ => e
  | .find _ => e
  | .insert _ => e
  | .replace _ => e
  | .remove _ => e
  | .lookUp _ => match e with
    | .interrupted cause => .interrupted cause
    | .backend message => .backend message
    | e => .backend e.message
  | .writeCache _ => match e with
    | .interrupted cause => .interrupted cause
    | .backend message => .backend message
    | e => .backend e.message
  | .publish _ => match e with
    | .interrupted cause => .interrupted cause
    | .backend message => .backend message
    | e => .backend e.message

/-- A call in flight. -/
inductive Flight (call : PortCall) where
  /-- Before its effect; without a timer it stays there. -/
  | before (fault : Fault) (timer : Option Timer)
  /-- After its effect or failure, with the reply that it is going to give. -/
  | after (reply : call.Reply) (timer : Timer)

/-- The timer that a call in flight waits for. -/
def Flight.timer? {call : PortCall} : Flight call → Option Timer
  | .before _ timer => timer
  | .after _ timer => some timer

/-- A call in flight under a context, which may interrupt it. -/
structure Guarded (call : PortCall) where
  /-- Set for the deadline of the context. -/
  deadline : Option Timer
  flight : Flight call

/-- The timers that a guarded call waits for. -/
def Guarded.timers {call : PortCall} (g : Guarded call) : List Timer :=
  g.deadline.toList ++ g.flight.timer?.toList

/-- What comes of looking at something that may have to wait. -/
inductive Poll (α β : Type) where
  | ready (value : α)
  | pending (state : β)
  /-- It broke down and will never answer. -/
  | broken

end CacheAside.Simulation
