import CacheAside.Demo
import Std.Time.DateTime

/-!
# The command line

Reads the configuration from the environment and plays the demonstration on the system's clock.
-/

namespace CacheAside.CommandLine

/-- The time on the system's clock. -/
def systemTime : IO Timestamp := do
  let nanos := (← Std.Time.Timestamp.now).toNanosecondsSinceUnixEpoch.val
  match Timestamp.ofDayNanos? 0 nanos with
  | some now => return now
  | none => throw (IO.userError "the clock shows no time that can be told")

/-- Random bits for an identifier. -/
def randomBits : IO Nat := do
  return (← IO.getRandomBytes 10).foldl (fun n byte => 256 * n + byte.toNat) 0

/-- A new identifier.  The last draw is never zero, so there is one. -/
def newIdent (kind : IdentKind) (now : Timestamp) : IO (Ident kind) := do
  match Ident.generate? now [← randomBits, ← randomBits, 1] with
  | some (id, _) => return id
  | none => return .stamped now 1

def nextMoment : IO Moment := do
  let now ← systemTime
  return { now, recordId := ← newIdent .record now, eventId := ← newIdent .event now }

/-- The values of the variables that the configuration is read from. -/
def environment : IO (String → Option String) := do
  let values ← Config.order.mapM fun var => return (var.name, ← IO.getEnv var.name)
  return fun name => (values.lookup name).join

/-- Plays the scenes one after another. -/
def playAll (demo : Demo) : List Scene → IO (Except Collapse Demo)
  | [] => return .ok demo
  | scene :: scenes => do
    match demo.play (← nextMoment) scene with
    | .error collapse => return .error collapse
    | .ok (lines, demo) =>
      lines.forM IO.println
      playAll demo scenes

/-- Plays the demonstration, and gives the exit code. -/
def demonstrate : IO UInt32 := do
  match (Config.read (← environment)).2 with
  | .error e =>
    IO.eprintln (Demo.refusal e)
    return 1
  | .ok config =>
    match ← playAll (Demo.ofConfig config) Demo.scenes with
    | .ok demo =>
      IO.println demo.summary
      return 0
    | .error (.failed e) =>
      IO.eprintln s!"Error: {e.message}"
      return 1
    | .error .brokeDown => return 101

end CacheAside.CommandLine

def main : IO UInt32 :=
  CacheAside.CommandLine.demonstrate
