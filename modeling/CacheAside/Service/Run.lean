import CacheAside.Backend
import CacheAside.Service.Stage

/-!
# One request after another

When nothing else goes on, a request runs from its first stage to its end: every call is answered at
once, and no refresh has to be settled.  `Service.follow` does that over any ports that answer;
`Conditions.ports` are the ports in memory, where a call may also be refused and then has no effect.
A refresh that a request starts has the ports for itself when the request has ended.
-/

namespace CacheAside

/-- Ports that answer every call at once; what they remember is of type `σ`.  A call without a
reply has broken down. -/
abbrev Ports (σ : Type) := σ → (call : PortCall) → Option call.Reply × σ

/-- What comes of a request. -/
structure Run (σ : Type) where
  /-- Missing if the request broke down. -/
  outcome : Option Outcome
  notes : List Note
  state : σ

namespace Run

variable {σ : Type}

/-- A run with more notes in front. -/
def after (notes : List Note) (run : Run σ) : Run σ :=
  { run with notes := notes ++ run.notes }

/-- The failures that no caller saw. -/
def failures (run : Run σ) : List Failure :=
  run.notes.filterMap fun
    | .swallowed failure => some failure
    | _ => none

/-- The records with which the cache is to be filled in the background. -/
def refreshes (run : Run σ) : List Record :=
  run.notes.filterMap fun
    | .refresh record => some record
    | _ => none

end Run

namespace Service

variable {σ : Type}

/-- Tells the cache of a change, and then the event bus. -/
def announce (ports : Ports σ) (state : σ) (change : DomainEvent) : Run σ :=
  match ports state (.writeCache change.cacheWrite) with
  | (none, state) => ⟨none, [], state⟩
  | (some written, state) =>
    match ports state (.publish change) with
    | (none, state) => ⟨none, change.cacheNotes written, state⟩
    | (some published, state) =>
      let (notes, outcome) := change.conclude written published
      ⟨some outcome, change.cacheNotes written ++ notes, state⟩

/-- Runs a request from a stage to its end. -/
def follow (s : Service) (ports : Ports σ) (state : σ) : Stage → Run σ
  | .asking ask =>
    match ports state ask.call with
    | (none, state) => ⟨none, [], state⟩
    | (some reply, state) =>
      have := s.rank_resume ask reply
      (s.follow ports state (s.resume ask reply).2).after (s.resume ask reply).1
  | .settling change => announce ports state change
  | .announcing change => announce ports state change
  | .finished outcome => ⟨some outcome, [], state⟩
termination_by stage => stage.rank

/-- Runs a request. -/
def run (s : Service) (ports : Ports σ) (state : σ) (request : Request) : Run σ :=
  s.follow ports state (s.begin request)

/-- Fills the cache in the background. -/
def fill (ports : Ports σ) (state : σ) (r : Record) : List Note × σ :=
  match ports state (.writeCache (.keep r)) with
  | (none, state) => ([], state)
  | (some reply, state) => (refillNotes r reply, state)

/-- Runs a request, and then the refreshes that it has started. -/
def runWithRefreshes (s : Service) (ports : Ports σ) (state : σ) (request : Request) : Run σ :=
  let run := s.run ports state request
  run.refreshes.foldl (fun run r =>
    let (notes, state) := fill ports run.state r
    { run with notes := run.notes ++ notes, state }) run

end Service

/-- What the calls of a request meet at the ports in memory. -/
structure Conditions where
  /-- What a call finds when it takes effect. -/
  circumstances : PortCall → Circumstances
  /-- The failure of a call that is refused. -/
  refuses : (call : PortCall) → Option call.Failure := fun _ => none

/-- The ports in memory: they refuse a call or carry it out. -/
def Conditions.ports (c : Conditions) : Ports Backend := fun b call =>
  match c.refuses call with
  | some e => (some (.error e), b)
  | none =>
    let served := b.serve (c.circumstances call) call
    (served.reply, served.backend)

end CacheAside
