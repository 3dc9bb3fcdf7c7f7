import CacheAside.Json.Printer
import CacheAside.Service.Assembly
import CacheAside.Wire.Counts
import CacheAside.Wire.Record

/-!
# A demonstration

The life of three records, told line by line: they are created, read, patched, replaced and listed,
and one of them is deleted.  A summary ends it.
-/

namespace CacheAside

/-- What a scene of the demonstration finds when it begins. -/
structure Moment where
  now : Timestamp
  /-- The identifier of the record, if one is created. -/
  recordId : RecordId
  /-- The identifier of the event, if one is published. -/
  eventId : EventId

/-- A part of the demonstration.  Records are counted from zero in the order of their creation. -/
inductive Scene where
  | create (label : String) (value : Int64)
  | get (n : Nat)
  | patch (n : Nat) (label : String)
  | replace (n : Nat) (label : String) (value : Int64) (weight : Binary64)
  | list
  | delete (n : Nat)
  | getDeleted (n : Nat)

/-- How the demonstration may end early. -/
inductive Collapse where
  | failed (error : ServiceError)
  | brokeDown

/-- The demonstration so far. -/
structure Demo where
  assembly : Assembly
  backend : Backend := {}
  failures : FailureCounts := {}
  ids : List RecordId := []
  listed : Nat := 0
  /-- The status with which a deleted record is answered. -/
  deletedStatus : Nat := 0

namespace Demo

/-- All scenes in order. -/
def scenes : List Scene :=
  [.create "alpha" 1, .create "beta" 2, .create "gamma" 3, .get 0, .patch 0 "alpha-2",
    .replace 1 "beta-2" 20 (.ofRatio false 1 2), .list, .delete 2, .getDeleted 2]

/-- The identifier of a record. -/
def id (d : Demo) (n : Nat) : RecordId :=
  d.ids.getD n (.ofNat 0)

/-- The request of a scene. -/
def request (d : Demo) (m : Moment) : Scene → Request
  | .create label value =>
    .create (d.assembly.candidate m.now m.recordId
      { label, value, weight := .ofInt 1, tags := ["demo"] })
  | .get n => .get (d.id n)
  | .patch n label =>
    .update (d.id n) (SparsePatch.merger { id := d.id n, label := .present label })
  | .replace n label value weight =>
    .update (d.id n) (FullReplace.merger { id := d.id n, label, value, weight, tags := [] })
  | .list => .list .first
  | .delete n => .delete (d.id n)
  | .getDeleted n => .get (d.id n)

/-- What a scene tells of the answer, and what it keeps. -/
def tell (d : Demo) : Scene → Outcome → Except Collapse (List String × Demo)
  | .create _ _, .ok (.record r) =>
    .ok ([s!"created: {r.id.toText} ({r.label})"], { d with ids := d.ids ++ [r.id] })
  | .get _, .ok (.record r) => .ok ([s!"fetched: {r.toJson.compress}"], d)
  | .patch _ _, .ok (.record r) =>
    .ok ([s!"patched: label={r.label} value={toString r.value.toInt}"], d)
  | .replace _ _ _ _, .ok (.record r) => .ok ([s!"replaced: {r.toJson.compress}"], d)
  | .list, .ok (.records rs) =>
    .ok (rs.map fun r => s!"listed: {r.id.toText} {r.label} {toString r.value.toInt}",
      { d with listed := rs.length })
  | .getDeleted _, .error (.notFound id) =>
    let e : ServiceError := .notFound id
    .ok ([s!"after delete: {e.message}"], { d with deletedStatus := e.kind.status })
  | .getDeleted _, .ok _ => .ok ([], { d with deletedStatus := 200 })
  | _, .ok _ => .ok ([], d)
  | _, .error e => .error (.failed e)

/-- How an event is shown. -/
def eventLine (e : EventEnvelope) : String :=
  s!"event: {e.event.name} {e.event.recordId.toText} at {e.occurredAt.toText}"

/-- Plays a scene: the lines that it prints, and the demonstration after it. -/
def play (d : Demo) (m : Moment) (scene : Scene) : Except Collapse (List String × Demo) := do
  let conditions := d.assembly.conditions m.now m.eventId
  let run := d.assembly.service.runWithRefreshes conditions.ports d.backend (d.request m scene)
  let some outcome := run.outcome | throw .brokeDown
  let events := run.state.journal.events.drop d.backend.journal.size
  let d := { d with
    backend := run.state
    failures := run.failures.foldl FailureCounts.note d.failures }
  let (lines, d) ← d.tell scene outcome
  return (events.map eventLine ++ lines, d)

/-- The last lines. -/
def summary (d : Demo) : String :=
  Json.pretty (.record [
    ("created", .int d.ids.length),
    ("listed", .int d.listed),
    ("events", .array (d.backend.journal.events.map fun e => .text e.event.name)),
    ("failures", d.failures.toJson),
    ("deleted_lookup_status", .int d.deletedStatus)])

/-- A demonstration of a service with a configuration, in memory and on the system's clock. -/
def ofConfig (config : Config) : Demo where
  assembly := {
    service := { config }
    store := .system
    cache := .system
    events := .journal .system
    clock := .system
    ids := .system }

/-- What is said of a bad configuration. -/
def refusal (e : ConfigError) : String :=
  String.join ["Error: InvalidEnvValue \x7b var: ", Text.quoted e.var.name, ", reason: ",
    Text.quoted e.fault.message, " \x7d"]

end Demo

end CacheAside
