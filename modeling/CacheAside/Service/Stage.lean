import CacheAside.Config
import CacheAside.Observer
import CacheAside.ServiceError

/-!
# The service, step by step

A request goes through stages.  At a stage the service asks one port and waits for the reply, or it
waits for the refreshes of a record to end, or it tells the cache and the event bus of a change at
the same time.  `Service.begin` is the first stage of a request and `Service.resume` the one after a
reply; nothing here depends on how long a port takes or on what else goes on meanwhile.

| request | store fails | cache fails | publishing fails |
|---------|-------------|-------------|------------------|
| list    | returned    | -           | -                |
| get     | returned    | noted       | -                |
| create  | returned    | noted       | returned         |
| update  | returned    | noted       | returned         |
| delete  | returned    | noted       | noted            |

Every stage is further along than the one before it (`Service.rank_resume`).
-/

namespace CacheAside

/-- What the service is set up with. -/
structure Service where
  config : Config := {}
  limits : Limits := {}
  deriving DecidableEq, Repr

/-- What a caller asks of the service. -/
inductive Request where
  | list (page : Page)
  | get (id : RecordId)
  /-- Store a record that was made from the caller's input. -/
  | create (candidate : Record)
  | update (id : RecordId) (merger : Merger)
  | delete (id : RecordId)

/-- What a caller gets when all is well. -/
inductive Answer where
  | records (records : List Record)
  | record (record : Record)
  | done
  deriving DecidableEq, Repr

/-- How a request ends. -/
abbrev Outcome := Except ServiceError Answer

/-- What a stage leaves behind besides the next stage. -/
inductive Note where
  | said (remark : Remark)
  /-- A failure that the caller does not see. -/
  | swallowed (failure : Failure)
  /-- The cache is to be filled with a record in the background. -/
  | refresh (record : Record)
  deriving DecidableEq, Repr

/-- A question to one port, with what has to be known when the reply comes. -/
inductive Ask where
  | listing (page : Page)
  | lookingUp (id : RecordId)
  | fetching (id : RecordId)
  | refilling (record : Record)
  | inserting (candidate : Record)
  | loading (id : RecordId) (merger : Merger)
  | replacing (merged : Record)
  | removing (id : RecordId)

/-- Where a request stands. -/
inductive Stage where
  | asking (ask : Ask)
  /-- The store has changed; refreshes with the older record are called off. -/
  | settling (change : DomainEvent)
  /-- The cache and the event bus are told of the change. -/
  | announcing (change : DomainEvent)
  | finished (outcome : Outcome)

namespace Request

/-- The operation that the request is for. -/
def operation : Request → Operation
  | .list _ => .list
  | .get _ => .get
  | .create _ => .create
  | .update _ _ => .update
  | .delete _ => .delete

/-- The span in which the request is logged. -/
def span : Request → Span
  | .list page =>
    ⟨"record.list", .debug, [("offset", toString page.offset), ("limit", toString page.limit)]⟩
  | .get id => ⟨"record.get", .debug, [("record_id", id.toText)]⟩
  | .create candidate => ⟨"record.create", .info, [("record_id", candidate.id.toText)]⟩
  | .update id _ => ⟨"record.update", .info, [("record_id", id.toText)]⟩
  | .delete id => ⟨"record.delete", .info, [("record_id", id.toText)]⟩

end Request

/-- The call of a question. -/
def Ask.call : Ask → PortCall
  | .listing page => .findAll page
  | .lookingUp id => .lookUp id
  | .fetching id => .find id
  | .refilling r => .writeCache (.keep r)
  | .inserting candidate => .insert candidate
  | .loading id _ => .find id
  | .replacing merged => .replace merged
  | .removing id => .remove id

namespace DomainEvent

/-- The operation that made the change. -/
def operation : DomainEvent → Operation
  | .created _ => .create
  | .updated _ => .update
  | .deleted _ => .delete

/-- What the cache is told of the change. -/
def cacheWrite : DomainEvent → CacheWrite
  | .created r => .keep r
  | .updated r => .keep r
  | .deleted id => .evict id

/-- What is noted as soon as the cache has replied: after a deletion nothing yet. -/
def cacheNotes : DomainEvent → Except CacheError Unit → List Note
  | .created r, .error e => [.swallowed (.cache .create .set r.id e)]
  | .updated r, .error e => [.swallowed (.cache .update .set r.id e)]
  | _, _ => []

/-- How the request ends when both the cache and the event bus have replied. -/
def conclude : DomainEvent → Except CacheError Unit → Except EventError Unit → List Note × Outcome
  | .created r, _, .ok () => ([.said ⟨.info, "record created", []⟩], .ok (.record r))
  | .created r, _, .error e => ([], .error (.ofPublish .create r.id e))
  | .updated r, _, .ok () => ([.said ⟨.info, "record updated", []⟩], .ok (.record r))
  | .updated r, _, .error e => ([], .error (.ofPublish .update r.id e))
  | .deleted id, evicted, published =>
    let cache := match evicted with
      | .ok () => []
      | .error e => [.swallowed (.cache .delete .delete id e)]
    let events := match published with
      | .ok () => []
      | .error e => [.swallowed (.event .delete id e)]
    (cache ++ events ++ [.said ⟨.info, "record deleted", []⟩], .ok .done)

end DomainEvent

namespace Service

/-- Refuses a record by the rules of the service, or passes it on. -/
def accept (s : Service) (r : Record) (next : Stage) : Stage :=
  match s.limits.check r with
  | .ok () => next
  | .error e => .finished (.error (.validation e))

/-- The first stage of a request. -/
def begin (s : Service) : Request → Stage
  | .list page => .asking (.listing page)
  | .get id => .asking (.lookingUp id)
  | .create candidate => s.accept candidate (.asking (.inserting candidate))
  | .update id merger =>
    if merger.target = id then .asking (.loading id merger)
    else .finished (.error (.validation (.targetMismatch merger.target id)))
  | .delete id => .asking (.removing id)

/-- The stage after the stored record was loaded: it is merged with the update and checked. -/
def merged (s : Service) (id : RecordId) (merger : Merger) (stored : Record) : Stage :=
  match merger.merge stored with
  | .error e => .finished (.error (.validation e))
  | .ok new =>
    if new.id = id then s.accept new (.asking (.replacing new))
    else .finished (.error (.validation (.targetMismatch new.id id)))

/-- What follows when a read has found a record in the store. -/
def refill (s : Service) (r : Record) : List Note × Stage :=
  match s.config.cacheRefresh with
  | .inlined => ([], .asking (.refilling r))
  | .background => ([.refresh r], .finished (.ok (.record r)))

/-- What a fill of the cache on behalf of a read leaves behind. -/
def refillNotes (r : Record) : Except CacheError Unit → List Note
  | .ok () => []
  | .error e => [.swallowed (.cache .get .set r.id e)]

/-- What follows a reply. -/
def resume (s : Service) : (ask : Ask) → ask.call.Reply → List Note × Stage
  | .listing _, .ok records =>
    ([.said ⟨.debug, "listed records", [("count", toString records.length)]⟩],
      .finished (.ok (.records records)))
  | .listing _, .error e => ([], .finished (.error (.ofStore .list e)))
  | .lookingUp _, .ok (some r) =>
    ([.said ⟨.debug, "cache hit", []⟩], .finished (.ok (.record r)))
  | .lookingUp id, .ok none => ([.said ⟨.debug, "cache miss", []⟩], .asking (.fetching id))
  | .lookingUp _, .error (.interrupted cause) => ([], .finished (.error (.cancelled cause)))
  | .lookingUp id, .error e => ([.swallowed (.cache .get .get id e)], .asking (.fetching id))
  | .fetching _, .ok r => s.refill r
  | .fetching _, .error e => ([], .finished (.error (.ofStore .get e)))
  | .refilling r, reply => (refillNotes r reply, .finished (.ok (.record r)))
  | .inserting _, .ok r => ([], .announcing (.created r))
  | .inserting _, .error e => ([], .finished (.error (.ofStore .create e)))
  | .loading id merger, .ok r => ([], s.merged id merger r)
  | .loading _ _, .error e => ([], .finished (.error (.ofStore .update e)))
  | .replacing _, .ok r => ([], .settling (.updated r))
  | .replacing _, .error e => ([], .finished (.error (.ofStore .update e)))
  | .removing id, .ok () => ([], .settling (.deleted id))
  | .removing _, .error e => ([], .finished (.error (.ofStore .delete e)))

end Service

/-! ## Progress -/

/-- An upper bound of the questions that may still follow. -/
def Ask.rank : Ask → Nat
  | .listing _ => 1
  | .lookingUp _ => 3
  | .fetching _ => 2
  | .refilling _ => 1
  | .inserting _ => 2
  | .loading _ _ => 4
  | .replacing _ => 3
  | .removing _ => 3

/-- An upper bound of the stages that may still follow. -/
def Stage.rank : Stage → Nat
  | .asking ask => ask.rank
  | .settling _ => 2
  | .announcing _ => 1
  | .finished _ => 0

namespace Service

theorem rank_accept_le (s : Service) (r : Record) (next : Stage) :
    (s.accept r next).rank ≤ next.rank := by
  unfold accept
  split
  · exact Nat.le_refl _
  · exact Nat.zero_le _

theorem rank_merged_le (s : Service) (id : RecordId) (merger : Merger) (stored : Record) :
    (s.merged id merger stored).rank ≤ 3 := by
  unfold merged
  split
  · exact Nat.zero_le _
  · split
    · exact s.rank_accept_le _ _
    · exact Nat.zero_le _

theorem rank_refill_le (s : Service) (r : Record) : (s.refill r).2.rank ≤ 1 := by
  unfold refill
  split
  · exact Nat.le_refl 1
  · exact Nat.zero_le 1

/-- A reply brings the request closer to its end. -/
theorem rank_resume (s : Service) (ask : Ask) (reply : ask.call.Reply) :
    (s.resume ask reply).2.rank < ask.rank := by
  cases ask with
  | listing page =>
    cases reply with
    | ok records => exact Nat.zero_lt_one
    | error e => exact Nat.zero_lt_one
  | lookingUp id =>
    match reply with
    | .ok (some r) => exact Nat.zero_lt_succ 2
    | .ok none => exact Nat.lt_succ_self 2
    | .error (.interrupted cause) => exact Nat.zero_lt_succ 2
    | .error (.backend message) => exact Nat.lt_succ_self 2
  | fetching id =>
    cases reply with
    | ok r => exact Nat.lt_succ_of_le (s.rank_refill_le r)
    | error e => exact Nat.zero_lt_succ 1
  | refilling r => exact Nat.zero_lt_one
  | inserting candidate =>
    cases reply with
    | ok r => exact Nat.lt_succ_self 1
    | error e => exact Nat.zero_lt_succ 1
  | loading id merger =>
    cases reply with
    | ok r => exact Nat.lt_succ_of_le (s.rank_merged_le id merger r)
    | error e => exact Nat.zero_lt_succ 3
  | replacing merged =>
    cases reply with
    | ok r => exact Nat.lt_succ_self 2
    | error e => exact Nat.zero_lt_succ 2
  | removing id =>
    cases reply with
    | ok value => exact Nat.lt_succ_self 2
    | error e => exact Nat.zero_lt_succ 2

end Service

end CacheAside
