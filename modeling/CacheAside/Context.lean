/-!
# Calls and their contexts

A call may be cancelled by a signal and may have a deadline.  Deriving a context can only move the
deadline forward in time; of several, the earliest counts.  Time here is the time of timers, in
milliseconds, not the clock that stamps records.
-/

namespace CacheAside

/-- Why a call was interrupted. -/
inductive Interruption where
  | cancelled
  | deadlineExceeded
  deriving DecidableEq, Repr

def Interruption.message : Interruption → String
  | .cancelled => "operation cancelled by caller"
  | .deadlineExceeded => "operation deadline exceeded"

/-- What a call carries along. -/
structure Context where
  /-- The signal that cancels the call. -/
  signal : Option Nat := none
  /-- The moment from which on the call is over time. -/
  deadline : Option Nat := none
  /-- The name of the span in which the operations of the call are logged. -/
  span : Option String := none
  deriving DecidableEq, Repr

namespace Context

/-- Neither a signal nor a deadline. -/
def background : Context := {}

/-- The same context with a deadline no later than `deadline`. -/
def withDeadline (ctx : Context) (deadline : Nat) : Context :=
  { ctx with deadline := some (match ctx.deadline with
      | some current => min current deadline
      | none => deadline) }

/-- The same context with a deadline at most `timeout` from `now`. -/
def withTimeout (ctx : Context) (now timeout : Nat) : Context :=
  ctx.withDeadline (now + timeout)

/-- The context of an operation: one without a deadline gets the configured timeout. -/
def forOperation (ctx : Context) (now : Nat) (defaultTimeout : Option Nat) : Context :=
  match ctx.deadline, defaultTimeout with
  | none, some timeout => ctx.withTimeout now timeout
  | _, _ => ctx

/-- Whether the signal has been given. -/
def isCancelled (ctx : Context) (given : Nat → Bool) : Bool :=
  ctx.signal.any given

/-- Whether the deadline has been reached. -/
def isExpired (ctx : Context) (now : Nat) : Bool :=
  ctx.deadline.any (· ≤ now)

/-- The state of the context at a moment: cancellation counts before the deadline. -/
def check (ctx : Context) (given : Nat → Bool) (now : Nat) : Except Interruption Unit :=
  if ctx.isCancelled given then .error .cancelled
  else if ctx.isExpired now then .error .deadlineExceeded
  else .ok ()

end Context

end CacheAside
