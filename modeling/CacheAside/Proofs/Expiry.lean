import CacheAside.Proofs.Changes
import CacheAside.Proofs.Configuration
import CacheAside.Proofs.Interleaving.Stride
import CacheAside.Proofs.Ledger
import CacheAside.Proofs.Time
import CacheAside.Proofs.Transparency

/-!
# Entries that would outlast time

A configuration takes any number of seconds that fits a word for the time to live of an entry.  When
a record is put into the cache, a time to live that is no span of time is refused.  One that is a
span of time is added to the clock, and the sum need not be a moment: then the call breaks down
(`Backend.kept`).  This is the only way in which a request can break down
(`World.outlasts_of_broken`).

A creation or an update tells the cache after its change has been committed, and the event bus after
the cache.  If the call of the cache breaks down, the record stays in the store, and nobody is told.
Otherwise the request ends as it would without a cache, and a failure of the cache is only noted
(`Service.announced`).
-/

namespace CacheAside

/-! ## Times to live that a configuration can have -/

namespace Config

/-- Entries live for some seconds, as many as a word can count. -/
def HasTtl (config : Config) : Prop :=
  0 < config.cacheTtl ∧ config.cacheTtl < Nat.pow 2 64

theorem hasTtl_of_read {lookup : String → Option String} {config : Config}
    (accepted : (read lookup).2 = .ok config) : config.HasTtl :=
  (bounds_of_read accepted).1

end Config

/-! ## When an entry expires -/

namespace Cache

/-- The longest time to live, in seconds, that is a span of time. -/
def longestTtl : Nat :=
  maxSpan / nanosPerSecond

/-- An entry that is made now would expire when there are no moments any more, although its time to
live is a span of time. -/
def Outlasts (now : Timestamp) (seconds : Nat) : Prop :=
  seconds ≤ longestTtl ∧ Timestamp.endOfTime ≤ now.unixSeconds + seconds

instance (now : Timestamp) (seconds : Nat) : Decidable (Outlasts now seconds) :=
  inferInstanceAs (Decidable (_ ∧ _))

/-- What a time to live that is no span of time is told. -/
def ttlOutOfRange : CacheError :=
  .backend "ttl out of range: Source duration value is out of range for the target type"

theorem maxSpan_lt {seconds : Nat} :
    maxSpan < seconds * nanosPerSecond ↔ longestTtl < seconds := by
  have hpos : 0 < nanosPerSecond := by decide
  rw [longestTtl, Nat.div_lt_iff_lt_mul hpos]

theorem expiry_seconds (now : Timestamp) {seconds : Nat} (pos : 0 < seconds) :
    match expiry now (seconds * nanosPerSecond) with
    | .ok moment => seconds ≤ longestTtl ∧ moment.unixSeconds = now.unixSeconds + seconds ∧
        moment.nano = now.nano % nanosPerSecond
    | .error .span => longestTtl < seconds
    | .error .moment => Outlasts now seconds := by
  have hmoved := now.shift?_seconds pos
  by_cases hspan : maxSpan < seconds * nanosPerSecond
  · rw [expiry, if_pos hspan]
    exact maxSpan_lt.mp hspan
  · have hshort : seconds ≤ longestTtl := Nat.not_lt.mp fun h => hspan (maxSpan_lt.mpr h)
    rw [expiry, if_neg hspan]
    cases hshift : now.shift? (seconds * nanosPerSecond : Nat) with
    | some moment =>
      rw [hshift] at hmoved
      exact ⟨hshort, hmoved⟩
    | none =>
      rw [hshift] at hmoved
      exact ⟨hshort, hmoved⟩

end Cache

namespace Backend

variable {b b' : Backend} {now : Timestamp} {seconds : Nat} {r : Record}

/-- What comes of putting a record into the cache for some seconds: the reply, and the backend. -/
inductive Kept (b : Backend) (now : Timestamp) (seconds : Nat) (r : Record) :
    Option (Except CacheError Unit) → Backend → Prop where
  | stored {moment : Timestamp} (short : seconds ≤ Cache.longestTtl)
      (later : moment.unixSeconds = now.unixSeconds + seconds)
      (nano : moment.nano = now.nano % nanosPerSecond) :
      Kept b now seconds r (some (.ok ()))
        { b with cache := ⟨b.cache.entries.insert r.id ⟨r, moment⟩⟩ }
  | refused (long : Cache.longestTtl < seconds) :
      Kept b now seconds r (some (.error Cache.ttlOutOfRange)) b
  | breaks (outlasts : Cache.Outlasts now seconds) : Kept b now seconds r none b

theorem kept (b : Backend) {c : Circumstances} {seconds : Nat} (r : Record) (pos : 0 < seconds)
    (ttl : c.ttl = seconds * nanosPerSecond) :
    b.Kept c.now seconds r (b.serve c (.writeCache (.keep r))).reply
      (b.serve c (.writeCache (.keep r))).backend := by
  have hexpiry := Cache.expiry_seconds c.now pos
  rw [← ttl] at hexpiry
  simp only [serve, keep, Cache.set]
  rcases heq : Cache.expiry c.now c.ttl with (_ | _) | moment
  all_goals rw [heq] at hexpiry
  · exact .refused hexpiry
  · exact .breaks hexpiry
  · exact .stored hexpiry.1 hexpiry.2.1 hexpiry.2.2

namespace Kept

variable {reply : Option (Except CacheError Unit)}

/-- The call breaks down exactly when the entry would outlast time. -/
theorem reply_eq_none (h : b.Kept now seconds r reply b') :
    reply = none ↔ Cache.Outlasts now seconds := by
  cases h with
  | @stored moment short later nano =>
    refine iff_of_false (by simp) fun outlasts => ?_
    have hlast := moment.unixSeconds_lt
    rw [later] at hlast
    exact absurd outlasts.2 (Int.not_le.mpr hlast)
  | refused long =>
    exact iff_of_false (by simp) fun outlasts => absurd outlasts.1 (Nat.not_le.mpr long)
  | breaks outlasts => exact iff_of_true rfl outlasts

/-- A reply is a failure exactly when the time to live is no span of time. -/
theorem reply_eq_some (h : b.Kept now seconds r reply b') {written : Except CacheError Unit}
    (replied : reply = some written) :
    written = if Cache.longestTtl < seconds then .error Cache.ttlOutOfRange else .ok () := by
  cases h with
  | stored short later nano =>
    cases replied
    rw [if_neg (Nat.not_lt.mpr short)]
  | refused long =>
    cases replied
    rw [if_pos long]
  | breaks outlasts => cases replied

/-- Whatever does not succeed leaves everything as it was. -/
theorem backend_eq (h : b.Kept now seconds r reply b') (failed : reply ≠ some (.ok ())) :
    b' = b := by
  cases h with
  | stored short later nano => exact absurd rfl failed
  | refused long => rfl
  | breaks outlasts => rfl

/-- The store and the journal stay as they were. -/
theorem sameBooks (h : b.Kept now seconds r reply b') : b'.SameBooks b := by
  cases h <;> exact ⟨rfl, rfl⟩

end Kept

end Backend

/-! ## Requests that put a record into the store -/

/-- The request is to put a record into the store. -/
def Request.IsWrite : Request → Prop
  | .create _ => True
  | .update _ _ => True
  | _ => False

namespace DomainEvent

variable {change : DomainEvent} {r : Record}

/-- A change that leaves a record ends as the event bus has replied, and nothing more is noted. -/
theorem conclude_of_record? (keeps : change.record? = some r) (written : Except CacheError Unit)
    (published : Except EventError Unit) :
    (change.conclude written published).2 = change.verdict published ∧
      (change.conclude written published).1.filterMap Note.failure? = [] := by
  cases change with
  | created x => cases published <;> exact ⟨rfl, rfl⟩
  | updated x => cases published <;> exact ⟨rfl, rfl⟩
  | deleted id => cases keeps

/-- What is noted of the cache's reply. -/
theorem failures_of_record? (keeps : change.record? = some r) (written : Except CacheError Unit) :
    (change.cacheNotes written).filterMap Note.failure? = match written with
      | .ok () => []
      | .error e => [.cache change.operation .set r.id e] := by
  cases change with
  | created x =>
    cases keeps
    cases written <;> rfl
  | updated x =>
    cases keeps
    cases written <;> rfl
  | deleted id => cases keeps

theorem verdict_of_record? (keeps : change.record? = some r) (published : Except EventError Unit) :
    change.verdict published = match published with
      | .ok () => .ok (.record r)
      | .error e => .error (.ofPublish change.operation r.id e) := by
  cases change with
  | created x =>
    cases keeps
    cases published <;> rfl
  | updated x =>
    cases keeps
    cases published <;> rfl
  | deleted id => cases keeps

end DomainEvent

/-- The failures of notes that a run has come to are those of its parts. -/
theorem Run.failures_append {σ : Type} (outcome : Option Outcome) (notes notes' : List Note)
    (state : σ) : (Run.mk outcome (notes ++ notes') state).failures =
      notes.filterMap Note.failure? ++ notes'.filterMap Note.failure? :=
  List.filterMap_append

namespace Conditions

variable {c : Conditions} {b b' : Backend}

/-- A call that fails leaves everything as it was. -/
theorem eq_of_failed {call : PortCall} {e : call.Failure}
    (h : c.ports b call = (some (.error e), b')) : b' = b := by
  cases hrefuses : c.refuses call with
  | some e' =>
    cases (ports_of_refused hrefuses).symm.trans h
    rfl
  | none =>
    obtain ⟨hreply, rfl⟩ := Prod.mk.inj ((ports_of_not_refused hrefuses).symm.trans h)
    refine Backend.serve_of_not_ok fun value hvalue => ?_
    cases hreply.symm.trans hvalue

/-- A record that is loaded stays as it is. -/
theorem ports_find (c : Conditions) (b : Backend) (id : RecordId) :
    ∃ reply, c.ports b (.find id) = (some reply, b) := by
  cases hrefuses : c.refuses (.find id) with
  | some e => exact ⟨_, ports_of_refused hrefuses⟩
  | none => exact ⟨_, ports_of_not_refused hrefuses⟩

/-- Every call of the store is answered. -/
theorem ports_answered {call : PortCall} (uncached : call.isUncached) :
    ∃ reply b', c.ports b call = (some reply, b') := by
  have hsame : b.SameBooks b := ⟨rfl, rfl⟩
  obtain ⟨reply, b', -, hports, -, -, -⟩ := ports_sameBooks (c := c) uncached hsame
  exact ⟨reply, b', hports⟩

/-- A record is put into the cache, unless the call is refused. -/
theorem ports_keep (c : Conditions) (b : Backend) (r : Record) {seconds : Nat} (pos : 0 < seconds)
    (ttl : (c.circumstances (.writeCache (.keep r))).ttl = seconds * nanosPerSecond) :
    (∃ e, c.refuses (.writeCache (.keep r)) = some e ∧
        c.ports b (.writeCache (.keep r)) = (some (.error e), b)) ∨
      c.refuses (.writeCache (.keep r)) = none ∧
        b.Kept (c.circumstances (.writeCache (.keep r))).now seconds r
          (c.ports b (.writeCache (.keep r))).1 (c.ports b (.writeCache (.keep r))).2 := by
  cases hrefuses : c.refuses (.writeCache (.keep r)) with
  | some e => exact .inl ⟨e, rfl, ports_of_refused hrefuses⟩
  | none =>
    refine .inr ⟨rfl, ?_⟩
    rw [ports_of_not_refused hrefuses]
    exact b.kept r pos ttl

end Conditions

namespace Service

variable {s : Service} {c : Conditions} {b b' : Backend} {request : Request}
  {change : DomainEvent} {r : Record}

/-- The store commits the change that a creation or an update is for; `b'` is what it leaves. -/
inductive Commits (s : Service) (c : Conditions) (b : Backend) :
    Request → DomainEvent → Backend → Prop where
  | creates {candidate r : Record} {b' : Backend} (valid : s.limits.check candidate = .ok ())
      (inserted : c.ports b (.insert candidate) = (some (.ok r), b')) :
      Commits s c b (.create candidate) (.created r) b'
  | updates {id : RecordId} {merger : Merger} {stored new r : Record} {b' : Backend}
      (target : merger.target = id) (loaded : c.ports b (.find id) = (some (.ok stored), b))
      (merged : merger.merge stored = .ok new) (same : new.id = id)
      (valid : s.limits.check new = .ok ())
      (replaced : c.ports b (.replace new) = (some (.ok r), b')) :
      Commits s c b (.update id merger) (.updated r) b'

/-- What is left of a request whose change has been committed is to tell of it. -/
theorem run_of_commits (h : s.Commits c b request change b') :
    s.run c.ports b request = announce c.ports b' change := by
  cases h with
  | @creates candidate r b' valid inserted =>
    simp only [run, begin, accept, valid]
    rw [follow_asking (q := .inserting candidate) inserted]
    simp only [resume]
    rw [follow]
    rfl
  | @updates id merger stored new r b' target loaded merged same valid replaced =>
    simp only [run, begin, target, if_true]
    rw [follow_asking (q := .loading id merger) loaded]
    simp only [resume, Service.merged, merged, same, if_true, accept, valid]
    rw [follow_asking (q := .replacing new) replaced]
    simp only [resume]
    rw [follow]
    rfl

theorem record?_of_commits (h : s.Commits c b request change b') :
    ∃ r, change.record? = some r := by
  cases h with
  | creates valid inserted => exact ⟨_, rfl⟩
  | updates target loaded merged same valid replaced => exact ⟨_, rfl⟩

/-- The request has failed, its error says that nothing was committed, and nothing has changed. -/
def FailsAt (b : Backend) (run : Run Backend) : Prop :=
  ∃ e, run.outcome = some (.error e) ∧ e.isCommitted = false ∧ run.state = b

/-- What the rules refuse fails at once. -/
theorem fails_validation (e : ValidationError) :
    FailsAt b (s.follow c.ports b (.finished (.error (.validation e)))) := by
  rw [follow_finished]
  exact ⟨_, rfl, rfl, rfl⟩

/-- What the store refuses fails as soon as it has replied. -/
theorem fails_asking {q : Ask} {op : Operation} {e : q.call.Failure} {cause : StoreError}
    (refused : c.ports b q.call = (some (.error e), b'))
    (ends : s.resume q (.error e) = ([], .finished (.error (.ofStore op cause)))) :
    FailsAt b (s.follow c.ports b (.asking q)) := by
  obtain rfl := c.eq_of_failed refused
  rw [follow_asking refused, ends, follow_finished]
  exact ⟨_, rfl, ServiceError.isCommitted_ofStore op cause, rfl⟩

/-- A request to put a record into the store commits its change or fails. -/
theorem commits_or_fails (s : Service) (c : Conditions) (b : Backend) (write : request.IsWrite) :
    (∃ change b', s.Commits c b request change b') ∨ FailsAt b (s.run c.ports b request) := by
  cases request with
  | create candidate =>
    simp only [run, begin, accept]
    cases hvalid : s.limits.check candidate with
    | error e => exact .inr (fails_validation e)
    | ok _ =>
      obtain ⟨reply, b', hinserted⟩ :=
        c.ports_answered (b := b) (rfl : (PortCall.insert candidate).isUncached)
      cases reply with
      | ok r => exact .inl ⟨_, _, .creates hvalid hinserted⟩
      | error e => exact .inr (fails_asking (q := .inserting candidate) hinserted rfl)
  | update id merger =>
    simp only [run, begin]
    split
    · rename_i htarget
      obtain ⟨loaded, hloaded⟩ := c.ports_find b id
      cases loaded with
      | error e => exact .inr (fails_asking (q := .loading id merger) hloaded rfl)
      | ok stored =>
        rw [follow_asking (q := .loading id merger) hloaded]
        simp only [resume, Service.merged]
        cases hmerged : merger.merge stored with
        | error e => exact .inr (fails_validation e)
        | ok new =>
          simp only [accept]
          split
          · rename_i hsame
            cases hvalid : s.limits.check new with
            | error e => exact .inr (fails_validation e)
            | ok _ =>
              obtain ⟨reply, b', hreplaced⟩ :=
                c.ports_answered (b := b) (rfl : (PortCall.replace new).isUncached)
              cases reply with
              | ok r =>
                exact .inl ⟨_, _, .updates htarget hloaded hmerged hsame hvalid hreplaced⟩
              | error e => exact .inr (fails_asking (q := .replacing new) hreplaced rfl)
          · exact .inr (fails_validation _)
    · exact .inr (fails_validation _)
  | list page => exact write.elim
  | get id => exact write.elim
  | delete id => exact write.elim

/-- How the rest of a creation or an update goes when the store, which has left `b`, has committed
its change, and the record is to be kept for some seconds. -/
structure Announced (c : Conditions) (b : Backend) (change : DomainEvent) (r : Record)
    (seconds : Nat) (run : Run Backend) : Prop where
  /-- It breaks down exactly when the cache carries out its call and the entry would outlast
  time. -/
  breaks : run.outcome = none ↔ c.refuses (.writeCache (.keep r)) = none ∧
    Cache.Outlasts (c.circumstances (.writeCache (.keep r))).now seconds
  /-- Then nobody is told of what the store holds. -/
  untold : run.outcome = none → run.state = b ∧ run.failures = []
  /-- Otherwise it ends as it would without a cache. -/
  ends : run.outcome.isSome = true → run.outcome = (publish c.ports b change).1 ∧
    run.state.SameBooks (publish c.ports b change).2
  /-- The record is returned, or what became of its publication. -/
  outcome : ∀ outcome, run.outcome = some outcome → outcome = .ok (.record r) ∨
    (∃ message, outcome =
      .error (.propagation change.operation r.id (.backend message))) ∨
    ∃ cause, c.refuses (.publish change) = some (.interrupted cause) ∧
      outcome = .error (.cancelled cause)
  /-- A failure of the cache is noted, and nothing else. -/
  failures : run.outcome.isSome = true →
    run.failures = match c.refuses (.writeCache (.keep r)) with
      | some e => [.cache change.operation .set r.id e]
      | none => if Cache.longestTtl < seconds then
          [.cache change.operation .set r.id Cache.ttlOutOfRange] else []

section Announcing

variable {σ : Type} {ports : Ports σ} {state state₁ state₂ : σ}

/-- If the cache breaks down, so does the announcement. -/
theorem announce_of_broken (keeps : change.record? = some r)
    (broken : ports state (.writeCache (.keep r)) = (none, state₁)) :
    announce ports state change = ⟨none, [], state₁⟩ := by
  cases change with
  | created x =>
    cases keeps
    simp only [announce, DomainEvent.cacheWrite, broken]
  | updated x =>
    cases keeps
    simp only [announce, DomainEvent.cacheWrite, broken]
  | deleted id => cases keeps

/-- Otherwise the event bus is told, and its reply decides. -/
theorem announce_of_replies (keeps : change.record? = some r) {written : Except CacheError Unit}
    {published : (PortCall.publish change).Reply}
    (wrote : ports state (.writeCache (.keep r)) = (some written, state₁))
    (told : ports state₁ (.publish change) = (some published, state₂)) :
    announce ports state change = ⟨some (change.conclude written published).2,
      change.cacheNotes written ++ (change.conclude written published).1, state₂⟩ := by
  cases change with
  | created x =>
    cases keeps
    simp only [announce, DomainEvent.cacheWrite, wrote, told]
  | updated x =>
    cases keeps
    simp only [announce, DomainEvent.cacheWrite, wrote, told]
  | deleted id => cases keeps

end Announcing

/-- Publications fail for reasons of the ports, or because they are refused. -/
theorem verdict_of_ports (keeps : change.record? = some r)
    {published : (PortCall.publish change).Reply}
    (told : c.ports b (.publish change) = (some published, b')) :
    change.verdict published = .ok (.record r) ∨
      (∃ message, change.verdict published =
        .error (.propagation change.operation r.id (.backend message))) ∨
      ∃ cause, c.refuses (.publish change) = some (.interrupted cause) ∧
        change.verdict published = .error (.cancelled cause) := by
  rw [DomainEvent.verdict_of_record? keeps]
  match published with
  | .ok () => exact .inl rfl
  | .error (.backend message) => exact .inr (.inl ⟨message, rfl⟩)
  | .error (.interrupted cause) =>
    refine .inr (.inr ⟨cause, ?_, rfl⟩)
    cases hrefuses : c.refuses (.publish change) with
    | some e =>
      cases (Conditions.ports_of_refused hrefuses).symm.trans told
      rfl
    | none =>
      -- the journal itself never fails
      have hreply := congrArg Prod.fst ((Conditions.ports_of_not_refused hrefuses).symm.trans told)
      simp only [Backend.serve] at hreply
      split at hreply <;> cases hreply

/-- When the cache has replied, the event bus is told, and that decides. -/
theorem announced_of_reply {seconds : Nat} {written : Except CacheError Unit}
    (keeps : change.record? = some r)
    (wrote : c.ports b (.writeCache (.keep r)) = (some written, b')) (books : b'.SameBooks b)
    (inTime : ¬ (c.refuses (.writeCache (.keep r)) = none ∧
      Cache.Outlasts (c.circumstances (.writeCache (.keep r))).now seconds))
    (noted : (match written with
      | .ok () => []
      | .error e => [Failure.cache change.operation .set r.id e]) =
        match c.refuses (.writeCache (.keep r)) with
        | some e => [.cache change.operation .set r.id e]
        | none => if Cache.longestTtl < seconds then
            [.cache change.operation .set r.id Cache.ttlOutOfRange] else []) :
    Announced c b change r seconds (announce c.ports b change) := by
  obtain ⟨published, b₁, plain, hpublished, hplain, hbooks, -⟩ :=
    Conditions.ports_sameBooks (c := c) (rfl : (PortCall.publish change).isUncached) books
  obtain ⟨hverdict, hquiet⟩ := DomainEvent.conclude_of_record? keeps written published
  have hpublish : publish c.ports b change = (some (change.verdict published), plain) :=
    ask_eq hplain _
  rw [announce_of_replies keeps wrote hpublished, hverdict]
  constructor
  · exact iff_of_false (by simp) inTime
  · intro hnone
    cases hnone
  · intro _
    rw [hpublish]
    exact ⟨rfl, hbooks⟩
  · rintro outcome ⟨⟩
    exact verdict_of_ports keeps hplain
  · intro _
    rw [Run.failures_append, hquiet, List.append_nil, DomainEvent.failures_of_record? keeps]
    exact noted

/-- A change that has been committed is told to the cache and the event bus, unless the cache breaks
down. -/
theorem announced {seconds : Nat} (keeps : change.record? = some r) (pos : 0 < seconds)
    (ttl : (c.circumstances (.writeCache (.keep r))).ttl = seconds * nanosPerSecond) :
    Announced c b change r seconds (announce c.ports b change) := by
  rcases c.ports_keep b r pos ttl with ⟨e, hrefuses, hports⟩ | ⟨hrefuses, hkept⟩
  · refine announced_of_reply keeps hports ⟨rfl, rfl⟩ ?_ ?_
    · rw [hrefuses]
      rintro ⟨⟨⟩, -⟩
    · rw [hrefuses]
  · rcases hports : c.ports b (.writeCache (.keep r)) with ⟨_ | written, b₁⟩
    all_goals rw [hports] at hkept
    · -- the call of the cache has broken down
      have hnone := hkept.reply_eq_none.mp rfl
      have hsame : b₁ = b := hkept.backend_eq (by simp)
      rw [announce_of_broken keeps hports]
      constructor
      · exact iff_of_true rfl ⟨hrefuses, hnone⟩
      · exact fun _ => ⟨hsame, rfl⟩
      -- nothing else is said of a run without an outcome
      all_goals simp
    · have hreply := hkept.reply_eq_some rfl
      refine announced_of_reply keeps hports hkept.sameBooks ?_ ?_
      · rintro ⟨-, outlasts⟩
        cases hkept.reply_eq_none.mpr outlasts
      · rw [hrefuses, hreply]
        by_cases hlong : Cache.longestTtl < seconds
        · simp only [if_pos hlong]
        · simp only [if_neg hlong]

end Service

namespace Simulation.World

variable {w w' : World} {ctx : Context} {spans : List Span}

/-- Only a call to keep a record beyond the end of time breaks down. -/
theorem outlasts_of_broken {call : PortCall} {owner : Owner} {g : Option (Guarded call)}
    (pos : 0 < w.service.config.cacheTtl)
    (visit : w.visit owner ctx spans g = (w', .broken)) :
    Cache.Outlasts w.clock w.service.config.cacheTtl := by
  obtain ⟨r, rfl⟩ := eq_keep_of_broken visit
  have hkept := w.backend.kept
    (c := w.circumstances (w.service.config.cacheTtl * nanosPerSecond) w.silent) r pos rfl
  exact hkept.reply_eq_none.mp (broken_spec visit).2

/-- The same goes for a request, whatever else is going on. -/
theorem outlasts_of_stride {side : Side} {p : Point} (pos : 0 < w.service.config.cacheTtl)
    (stride : w.stride ctx spans side p = (w', none)) :
    Cache.Outlasts w.clock w.service.config.cacheTtl := by
  cases strode stride with
  | askBreaks visit => exact outlasts_of_broken pos visit
  | cacheBreaks visit => exact outlasts_of_broken pos visit
  | busBreaks visit => exact outlasts_of_broken pos visit

/-- Putting a record into the cache directly, for some seconds. -/
def keepDirectly (w : World) (ctx : Context) (seconds : Nat) (r : Record) :
    World × Poll Finding Task :=
  w.callDirectly ctx (seconds * nanosPerSecond) false (.writeCache (.keep r))

theorem keepDirectly_kept (h : w.check ctx = .ok ()) {seconds : Nat} (pos : 0 < seconds)
    (r : Record) :
    ∃ reply, w.backend.Kept w.clock seconds r reply (w.keepDirectly ctx seconds r).1.backend ∧
      (w.keepDirectly ctx seconds r).2 = reply.elim .broken
        fun reply => .ready (.replied (.writeCache (.keep r)) reply) := by
  obtain ⟨hbackend, htold⟩ :=
    callDirectly_of_ok h (seconds * nanosPerSecond) false (.writeCache (.keep r))
  have hkept := w.backend.kept
    (c := w.circumstances (seconds * nanosPerSecond) false) r pos rfl
  rw [← hbackend] at hkept
  exact ⟨_, hkept, htold⟩

/-- Whatever time to live an accepted configuration has, a record that is put into the cache is
stored until its expiry, or refused without any effect, unless its entry would outlast time.
Nothing else breaks a request down.  A creation or an update whose change has been committed breaks
down exactly then before anybody is told; otherwise it returns the record, or what became of its
publication, and a time to live that is too long is only noted. -/
theorem breaks_only_by_outlasting {lookup : String → Option String} {config : Config}
    (accepted : (Config.read lookup).2 = .ok config) :
    config.HasTtl ∧
    (∀ (w : World) (ctx : Context) (r : Record), w.check ctx = .ok () →
      ∃ reply, w.backend.Kept w.clock config.cacheTtl r reply
          (w.keepDirectly ctx config.cacheTtl r).1.backend ∧
        (reply = none ↔ Cache.Outlasts w.clock config.cacheTtl) ∧
        (w.keepDirectly ctx config.cacheTtl r).2 = reply.elim .broken
          fun reply => .ready (.replied (.writeCache (.keep r)) reply)) ∧
    (∀ (s : Service) (c : Conditions) (b : Backend) (request : Request), s.config = config →
      (∀ call, (c.circumstances call).ttl = config.cacheTtl * nanosPerSecond) → request.IsWrite →
      (∃ change b' r, s.Commits c b request change b' ∧ change.record? = some r ∧
        Service.Announced c b' change r config.cacheTtl (s.run c.ports b request)) ∨
      Service.FailsAt b (s.run c.ports b request)) ∧
    ∀ (w w' : World) (ctx : Context) (spans : List Span) (side : Side) (p : Point),
      w.service.config = config → w.stride ctx spans side p = (w', none) →
      Cache.Outlasts w.clock config.cacheTtl := by
  have httl := Config.hasTtl_of_read accepted
  have hpos := httl.1
  refine ⟨httl, fun w ctx r hcheck => ?_, fun s c b request hconfig hseconds hwrite => ?_,
    fun w w' ctx spans side p hconfig hstride => ?_⟩
  · obtain ⟨reply, hkept, htold⟩ := keepDirectly_kept hcheck hpos r
    exact ⟨reply, hkept, hkept.reply_eq_none, htold⟩
  · rcases s.commits_or_fails c b hwrite with ⟨change, b', hcommits⟩ | hfails
    · obtain ⟨r, hrecord⟩ := Service.record?_of_commits hcommits
      refine .inl ⟨change, b', r, hcommits, hrecord, ?_⟩
      rw [Service.run_of_commits hcommits]
      exact Service.announced hrecord hpos (hseconds _)
    · exact .inr hfails
  · subst hconfig
    exact outlasts_of_stride hpos hstride

/-- Nothing but the time to live is set. -/
def onlyTtl (text : String) (name : String) : Option String :=
  if name = Variable.cacheTtl.name then some text else none

/-- The ports when all clocks show the third minute of 1970, and entries are to live for some
seconds. -/
def inThirdMinute (seconds : Nat) : Conditions :=
  (Service.atTime (.minute 3) (seconds * nanosPerSecond) (.list .first)).conditions

/-- A record is created in the third minute of 1970. -/
theorem creates_draft (config : Config) (seconds : Nat) :
    Service.Commits { config } (inThirdMinute seconds) {} (.create (.draft 3))
      (.created (.draft 3))
      ((inThirdMinute seconds).ports {} (.insert (.draft 3))).2 :=
  .creates rfl rfl

/-- A second more than a span of time can be is refused by the cache, and the creation of a record
does not fail. -/
theorem too_long_ttl_is_only_noted :
    let config : Config := { cacheTtl := 9223372036854776 }
    let w : World := { clock := .minute 3 }
    let run := Service.run { config } (inThirdMinute 9223372036854776).ports {}
      (.create (.draft 3))
    (Config.read (onlyTtl " +9223372036854776")).2 = .ok config ∧
      w.check {} = .ok () ∧ ¬ Cache.Outlasts w.clock config.cacheTtl ∧
      (w.keepDirectly {} config.cacheTtl (.draft 3)).2 =
        .ready (.replied (.writeCache (.keep (.draft 3))) (.error Cache.ttlOutOfRange)) ∧
      run.outcome = some (.ok (.record (.draft 3))) ∧
      run.failures = [.cache .create .set (Record.draft 3).id Cache.ttlOutOfRange] := by
  intro config w run
  have haccepted : (Config.read (onlyTtl " +9223372036854776")).2 = .ok config := rfl
  have hlasts : ¬ Cache.Outlasts w.clock config.cacheTtl := by decide
  obtain ⟨-, hkeep, hwrite, -⟩ := breaks_only_by_outlasting haccepted
  refine ⟨haccepted, rfl, hlasts, ?_, ?_⟩
  · obtain ⟨reply, hkept, hbroken, htold⟩ := hkeep w {} (.draft 3) rfl
    rw [htold]
    cases reply with
    | none => exact absurd (hbroken.mp rfl) hlasts
    | some written =>
      rw [hkept.reply_eq_some rfl]
      rfl
  · have hrun : run = _ := Service.run_of_commits (creates_draft config 9223372036854776)
    have houtcome : run.outcome = some (.ok (.record (.draft 3))) := by
      rw [hrun]
      rfl
    refine ⟨houtcome, ?_⟩
    rcases hwrite { config } (inThirdMinute 9223372036854776) {} (.create (.draft 3)) rfl
      (fun _ => rfl) trivial with ⟨change, b', r, hcommits, hrecord, hannounced⟩ | ⟨e, hfails, -⟩
    · cases hcommits with
      | creates valid inserted =>
        obtain ⟨hreply, -⟩ := Prod.mk.inj inserted
        obtain rfl := Except.ok.inj (Option.some.inj hreply)
        obtain rfl := Option.some.inj hrecord
        refine hannounced.failures ?_
        rw [houtcome]
        rfl
    · cases houtcome.symm.trans hfails

/-- The cache breaks down when a record is to be kept for as many seconds as a span of time can
have, which is accepted.  The creation of the record is not answered then, though the store holds
it and nobody is told. -/
theorem creation_breaks_down :
    let config : Config := { cacheTtl := 9223372036854775 }
    let w : World := { clock := .minute 3 }
    let run := Service.run { config } (inThirdMinute 9223372036854775).ports {}
      (.create (.draft 3))
    (Config.read (onlyTtl "9223372036854775")).2 = .ok config ∧
      (w.keepDirectly {} config.cacheTtl (.draft 3)).2 = .broken ∧
      run.outcome = none ∧ run.failures = [] ∧
      run.state.store.find (Record.draft 3).id = .ok (.draft 3) ∧ run.state.journal = {} := by
  intro config w run
  have hrun : run = _ := Service.run_of_commits (creates_draft config 9223372036854775)
  have hpos : 0 < config.cacheTtl := by decide
  obtain ⟨reply, hkept, htold⟩ :=
    keepDirectly_kept (show w.check {} = .ok () from rfl) hpos (.draft 3)
  rw [hkept.reply_eq_none.mpr (by decide)] at htold
  rw [hrun]
  exact ⟨rfl, htold, rfl, rfl, rfl, rfl⟩

end Simulation.World

end CacheAside
