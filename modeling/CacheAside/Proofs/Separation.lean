import CacheAside.Proofs.Staleness

/-!
# Requests for different records

Everything that the ports in memory hold belongs to one record: its row, its tags, its entry in the
cache and its events (`Backend.cell`).  A call for a record is answered by what they hold for it and
changes nothing else (`Conditions.isLocal_faulty`), and so is a whole request, since it asks about
nothing but its record (`Service.runs_local`).  Hence two requests for different records make no
difference to each other, whichever comes first (`Service.requests_for_different_records_commute`).

Only the identifiers of events do not belong to a record, as they are given out in the order of the
publications.
-/

namespace CacheAside

/-! ## What is held for a record -/

/-- What the ports in memory hold for a record. -/
structure Cell where
  row : Option Row
  tags : Option (List String)
  entry : Option CacheEntry
  /-- The events of the record, oldest first. -/
  logged : List EventEnvelope

def Backend.cell (b : Backend) (id : RecordId) : Cell where
  row := b.store.rows.get? id
  tags := b.store.tags.get? id
  entry := b.cache.entries.get? id
  logged := b.journal.events.filter (·.event.recordId = id)

/-- What an event says and when, but not the identifier that it has got. -/
def EventEnvelope.content (e : EventEnvelope) : Timestamp × DomainEvent :=
  (e.occurredAt, e.event)

/-- The same is held, apart from the identifiers of events. -/
structure Cell.Alike (cell cell' : Cell) : Prop where
  row : cell.row = cell'.row
  tags : cell.tags = cell'.tags
  entry : cell.entry = cell'.entry
  logged : cell.logged.map (·.content) = cell'.logged.map (·.content)

theorem Cell.Alike.refl (cell : Cell) : cell.Alike cell :=
  ⟨rfl, rfl, rfl, rfl⟩

theorem Cell.Alike.of_eq {cell cell' : Cell} (h : cell = cell') : cell.Alike cell' :=
  h ▸ .refl cell

theorem Cell.Alike.symm {cell cell' : Cell} (h : cell.Alike cell') : cell'.Alike cell :=
  ⟨h.row.symm, h.tags.symm, h.entry.symm, h.logged.symm⟩

theorem Cell.Alike.trans {cell cell' cell'' : Cell} (h : cell.Alike cell')
    (h' : cell'.Alike cell'') : cell.Alike cell'' :=
  ⟨h.row.trans h'.row, h.tags.trans h'.tags, h.entry.trans h'.entry, h.logged.trans h'.logged⟩

namespace Backend

/-- A store and a cache are known by what they hold for each record. -/
theorem eq_of_alike {b b' : Backend} (h : ∀ id, (b.cell id).Alike (b'.cell id)) :
    b.store = b'.store ∧ b.cache = b'.cache := by
  have hrows : b.store.rows = b'.store.rows := Table.ext_get? fun id => (h id).row
  have htags : b.store.tags = b'.store.tags := Table.ext_get? fun id => (h id).tags
  have hentries : b.cache.entries = b'.cache.entries := Table.ext_get? fun id => (h id).entry
  obtain ⟨⟨_, _⟩, ⟨_⟩, _⟩ := b
  obtain ⟨⟨_, _⟩, ⟨_⟩, _⟩ := b'
  cases hrows
  cases htags
  cases hentries
  exact ⟨rfl, rfl⟩

end Backend

/-! ## Calls for a record -/

/-- The record that a call is for. -/
def PortCall.subject? : PortCall → Option RecordId
  | .findAll _ => none
  | .find id => some id
  | .insert r => some r.id
  | .replace r => some r.id
  | .remove id => some id
  | .lookUp id => some id
  | .writeCache (.keep r) => some r.id
  | .writeCache (.evict id) => some id
  | .publish event => some event.recordId

/-- A record of the store that a reply tells of is the one that the call is for. -/
def PortCall.Reports (x : RecordId) : (call : PortCall) → call.Reply → Prop
  | .find _, .ok r => r.id = x
  | .insert _, .ok r => r.id = x
  | .replace _, .ok r => r.id = x
  | _, _ => True

theorem PortCall.reports_error {x : RecordId} {call : PortCall} (e : call.Failure) :
    call.Reports x (.error e) := by
  cases call <;> trivial

/-- Two answers to a call for a record are the same and leave the same for it.  The first leaves
everything else as it was. -/
structure Answered (x : RecordId) {call : PortCall} (b : Backend)
    (answer answer' : Option call.Reply × Backend) : Prop where
  reply : answer.1 = answer'.1
  about : ∀ reply, answer.1 = some reply → call.Reports x reply
  alike : (answer.2.cell x).Alike (answer'.2.cell x)
  others : ∀ id, id ≠ x → answer.2.cell id = b.cell id

/-- Ports that go by what is held for the record that a call is for, and agree with each other. -/
def Ports.IsLocal (ports ports' : Ports Backend) : Prop :=
  ∀ (x : RecordId) (call : PortCall) (b b' : Backend), call.subject? = some x →
    (b.cell x).Alike (b'.cell x) → Answered x b (ports b call) (ports' b' call)

namespace Store

theorem get?_putTags (tags : Table (List String)) (id key : RecordId) (new : List String) :
    (putTags tags id new).get? key =
      if key = id then (if new.isEmpty then none else some new) else tags.get? key := by
  unfold putTags
  split
  · rw [Table.get?_erase]
  · rw [Table.get?_insert]

/-- A record is added to two stores in the same way if it is in both or in neither. -/
theorem create_alike {s s' : Store} (now : Timestamp) {r : Record}
    (alike : s.rows.get? r.id = s'.rows.get? r.id) :
    (∃ e, s.create now r = .error e ∧ s'.create now r = .error e) ∨
      ∃ row stored, stored.id = r.id ∧
        s.create now r = .ok (stored, (s.put r.id row r.tags).2) ∧
        s'.create now r = .ok (stored, (s'.put r.id row r.tags).2) := by
  unfold create Table.contains
  rw [← alike]
  split
  · exact .inl ⟨_, rfl, rfl⟩
  · let row : Row := ⟨r.label, r.value, r.weight, now, none⟩
    refine .inr ⟨row, (s.put r.id row r.tags).1, rfl, rfl, ?_⟩
    exact congrArg Except.ok (Prod.ext ((put_fst ..).trans (put_fst ..).symm) rfl)

/-- A record is updated in the same way in two stores that hold the same row for it. -/
theorem update_alike {s s' : Store} (now : Timestamp) {r : Record}
    (alike : s.rows.get? r.id = s'.rows.get? r.id) :
    (∃ e, s.update now r = .error e ∧ s'.update now r = .error e) ∨
      ∃ row stored, stored.id = r.id ∧
        s.update now r = .ok (stored, (s.put r.id row r.tags).2) ∧
        s'.update now r = .ok (stored, (s'.put r.id row r.tags).2) := by
  unfold update
  rw [← alike]
  split
  · rename_i old _
    let row : Row :=
      ⟨r.label, r.value, r.weight, old.createdAt, some (now.latest old.createdAt)⟩
    refine .inr ⟨row, (s.put r.id row r.tags).1, rfl, rfl, ?_⟩
    exact congrArg Except.ok (Prod.ext ((put_fst ..).trans (put_fst ..).symm) rfl)
  · exact .inl ⟨_, rfl, rfl⟩

/-- A record is removed in the same way from two stores if it is in both or in neither. -/
theorem delete_alike {s s' : Store} {id : RecordId} (alike : s.rows.get? id = s'.rows.get? id) :
    (∃ e, s.delete id = .error e ∧ s'.delete id = .error e) ∨
      s.delete id = .ok ⟨s.rows.erase id, s.tags.erase id⟩ ∧
        s'.delete id = .ok ⟨s'.rows.erase id, s'.tags.erase id⟩ := by
  unfold delete Table.contains
  rw [← alike]
  split
  · exact .inr ⟨rfl, rfl⟩
  · exact .inl ⟨_, rfl, rfl⟩

end Store

namespace Backend

variable {b b' : Backend} {x : RecordId}

/-- What a call leaves that does nothing but reply. -/
theorem answered_same (call : PortCall) {reply : Option call.Reply}
    (alike : (b.cell x).Alike (b'.cell x)) (about : ∀ r, reply = some r → call.Reports x r) :
    Answered x b (reply, b) (reply, b') :=
  ⟨rfl, about, alike, fun _ _ => rfl⟩

theorem answered_error (call : PortCall) (alike : (b.cell x).Alike (b'.cell x))
    (e : call.Failure) : Answered x b (some (.error e), b) (some (.error e), b') :=
  answered_same call alike fun _ h => Option.some.inj h ▸ call.reports_error e

/-- Dropping the entry of a record from the cache. -/
theorem answered_erase (call : PortCall) (alike : (b.cell x).Alike (b'.cell x))
    {reply : call.Reply} (about : call.Reports x reply) :
    Answered x b (some reply, { b with cache := ⟨b.cache.entries.erase x⟩ })
      (some reply, { b' with cache := ⟨b'.cache.entries.erase x⟩ }) := by
  refine ⟨rfl, fun r hr => Option.some.inj hr ▸ about, ⟨alike.row, alike.tags, ?_, alike.logged⟩,
    fun id hid => ?_⟩
  · simp [cell]
  · simp [cell, hid]

/-- Putting a row and tags under an identifier. -/
theorem answered_put (call : PortCall) (alike : (b.cell x).Alike (b'.cell x)) {value : call.Value}
    (row : Row) (tags : List String) (about : call.Reports x (.ok value)) :
    Answered x b
      (some (.ok value), { b with store := (b.store.put x row tags).2 })
      (some (.ok value), { b' with store := (b'.store.put x row tags).2 }) := by
  refine ⟨rfl, fun r hr => Option.some.inj hr ▸ about, ⟨?_, ?_, alike.entry, alike.logged⟩,
    fun id hid => ?_⟩
  · simp [cell, Store.put]
  · simp [cell, Store.put, Store.get?_putTags]
  · simp [cell, Store.put, Store.get?_putTags, hid]

/-- Removing the row and the tags of an identifier. -/
theorem answered_delete (call : PortCall) (alike : (b.cell x).Alike (b'.cell x))
    {value : call.Value} (about : call.Reports x (.ok value)) :
    Answered x b
      (some (.ok value), { b with store := ⟨b.store.rows.erase x, b.store.tags.erase x⟩ })
      (some (.ok value), { b' with store := ⟨b'.store.rows.erase x, b'.store.tags.erase x⟩ }) := by
  refine ⟨rfl, fun r hr => Option.some.inj hr ▸ about, ⟨?_, ?_, alike.entry, alike.logged⟩,
    fun id hid => ?_⟩
  · simp [cell]
  · simp [cell]
  · simp [cell, hid]

/-- Putting an entry into the cache. -/
theorem answered_entry (call : PortCall) (alike : (b.cell x).Alike (b'.cell x))
    {reply : call.Reply} (entry : CacheEntry) (about : call.Reports x reply) :
    Answered x b (some reply, { b with cache := ⟨b.cache.entries.insert x entry⟩ })
      (some reply, { b' with cache := ⟨b'.cache.entries.insert x entry⟩ }) := by
  refine ⟨rfl, fun r hr => Option.some.inj hr ▸ about, ⟨alike.row, alike.tags, ?_, alike.logged⟩,
    fun id hid => ?_⟩
  · simp [cell]
  · simp [cell, hid]

/-- Putting an event of the record at the end of the journal. -/
theorem answered_event (call : PortCall) (alike : (b.cell x).Alike (b'.cell x))
    {reply : call.Reply} {e e' : EventEnvelope} (own : e.event.recordId = x)
    (same : e.content = e'.content) (about : call.Reports x reply) :
    Answered x b (some reply, { b with journal := b.journal.append e })
      (some reply, { b' with journal := b'.journal.append e' }) := by
  have own' : e'.event.recordId = x := (congrArg (·.2.recordId) same).symm.trans own
  refine ⟨rfl, fun r hr => Option.some.inj hr ▸ about, ⟨alike.row, alike.tags, alike.entry, ?_⟩,
    fun id hid => ?_⟩
  · have hlogged := alike.logged
    simp only [cell] at hlogged
    simp [cell, Journal.append, own, own', hlogged, same]
  · simp [cell, Journal.append, own, hid.symm]

theorem find_alike (alike : (b.cell x).Alike (b'.cell x)) : b.store.find x = b'.store.find x := by
  have hrow : b.store.rows.get? x = b'.store.rows.get? x := alike.row
  have htags : b.store.tags.get? x = b'.store.tags.get? x := alike.tags
  simp only [Store.find, Store.join, hrow, htags]

/-- A call for a record goes by what is held for it, whatever an event is called. -/
theorem answered_serve (c : Circumstances) (name name' : EventId) {call : PortCall}
    (subject : call.subject? = some x) (alike : (b.cell x).Alike (b'.cell x)) :
    Answered x b
      ((b.serve { c with eventId := name } call).reply,
        (b.serve { c with eventId := name } call).backend)
      ((b'.serve { c with eventId := name' } call).reply,
        (b'.serve { c with eventId := name' } call).backend) := by
  have hrow : b.store.rows.get? x = b'.store.rows.get? x := alike.row
  have hentry : b.cache.entries.get? x = b'.cache.entries.get? x := alike.entry
  cases call with
  | findAll page => cases subject
  | find id =>
    cases subject
    simp only [serve, ← find_alike alike]
    exact answered_same _ alike fun reply hreply => by
      cases reply with
      | ok r => exact Store.id_of_find (Option.some.inj hreply)
      | error e => trivial
  | insert r =>
    cases subject
    obtain ⟨e, he, he'⟩ | ⟨row, stored, hid, hput, hput'⟩ := Store.create_alike c.now hrow
    · simp only [serve, he, he']
      exact answered_error (.insert r) alike e
    · simp only [serve, hput, hput']
      exact answered_put (.insert r) alike row r.tags hid
  | replace r =>
    cases subject
    obtain ⟨e, he, he'⟩ | ⟨row, stored, hid, hput, hput'⟩ := Store.update_alike c.now hrow
    · simp only [serve, he, he']
      exact answered_error (.replace r) alike e
    · simp only [serve, hput, hput']
      exact answered_put (.replace r) alike row r.tags hid
  | remove id =>
    cases subject
    obtain ⟨e, he, he'⟩ | ⟨hdelete, hdelete'⟩ := Store.delete_alike hrow
    · simp only [serve, he, he']
      exact answered_error (.remove x) alike e
    · simp only [serve, hdelete, hdelete']
      exact answered_delete (.remove x) alike trivial
  | lookUp id =>
    cases subject
    simp only [serve, Cache.get, ← hentry]
    split
    · split
      · exact answered_same _ alike fun _ _ => trivial
      · exact answered_erase _ alike trivial
    · exact answered_same _ alike fun _ _ => trivial
  | writeCache write =>
    cases write with
    | keep r =>
      cases subject
      simp only [serve, keep, Cache.set]
      cases Cache.expiry c.now c.ttl with
      | ok moment => exact answered_entry _ alike ⟨r, moment⟩ trivial
      | error fault =>
        cases fault with
        | span => exact answered_error _ alike _
        | moment => exact answered_same _ alike fun _ h => by cases h
    | evict id =>
      cases subject
      exact answered_erase _ alike trivial
  | publish event =>
    cases subject
    simp only [serve]
    split
    · exact answered_same _ alike fun _ _ => trivial
    · exact answered_event _ alike rfl rfl trivial

end Backend

/-! ## Ports with faults -/

/-- Ports some of whose calls are reported as failed although they have been carried out. -/
def Ports.misreporting {σ : Type} (ports : Ports σ)
    (belied : (call : PortCall) → Option call.Failure) : Ports σ := fun state call =>
  match ports state call, belied call with
  | (some (.ok _), state), some e => (some (.error e), state)
  | answer, _ => answer

namespace Conditions

/-- The same conditions, but for the identifier of an event. -/
def naming (c : Conditions) (name : EventId) : Conditions :=
  { c with circumstances := fun call => { c.circumstances call with eventId := name } }

/-- The ports in memory for a request whose event gets the given identifier.  Some calls are refused
and some are belied. -/
def faulty (c : Conditions) (belied : (call : PortCall) → Option call.Failure) (name : EventId) :
    Ports Backend :=
  (c.naming name).ports.misreporting belied

theorem isLocal_naming (c : Conditions) (name name' : EventId) :
    Ports.IsLocal (c.naming name).ports (c.naming name').ports := by
  intro x call b b' subject alike
  cases hrefuses : c.refuses call with
  | some e =>
    rw [ports_of_refused (c := c.naming name) hrefuses,
      ports_of_refused (c := c.naming name') hrefuses]
    exact Backend.answered_error call alike e
  | none =>
    rw [ports_of_not_refused (c := c.naming name) hrefuses,
      ports_of_not_refused (c := c.naming name') hrefuses]
    exact Backend.answered_serve (c.circumstances call) name name' subject alike

/-- Faults that depend on the call alone do not connect one record with another. -/
theorem isLocal_faulty (c : Conditions) (belied : (call : PortCall) → Option call.Failure)
    (name name' : EventId) : Ports.IsLocal (c.faulty belied name) (c.faulty belied name') := by
  intro x call b b' subject alike
  have h := c.isLocal_naming name name' x call b b' subject alike
  unfold faulty Ports.misreporting
  rcases hanswer : (c.naming name).ports b call with ⟨reply, after⟩
  rcases hanswer' : (c.naming name').ports b' call with ⟨reply', after'⟩
  rw [hanswer, hanswer'] at h
  obtain rfl : reply = reply' := h.reply
  match reply, belied call with
  | some (.ok value), some e =>
    exact ⟨rfl, fun r hr => Option.some.inj hr ▸ call.reports_error e, h.alike, h.others⟩
  | some (.ok value), none => exact h
  | some (.error e), _ => exact h
  | none, _ => exact h

end Conditions

/-! ## Requests for a record -/

/-- The record that a request is for. -/
def Request.subject? : Request → Option RecordId
  | .list _ => none
  | .get id => some id
  | .create candidate => some candidate.id
  | .update id _ => some id
  | .delete id => some id

/-- What is left to do at the stage is for the record. -/
def Stage.Concerns (x : RecordId) : Stage → Prop
  | .asking ask => ask.call.subject? = some x
  | .settling change => change.recordId = x
  | .announcing change => change.recordId = x
  | .finished _ => True

/-- A change of the store is made to the record that the call is for. -/
theorem PortCall.recordId_of_reports {x : RecordId} {call : PortCall} {reply : call.Reply}
    {change : DomainEvent} (subject : call.subject? = some x) (about : call.Reports x reply)
    (made : call.change? reply = some change) : change.recordId = x := by
  cases call with
  | insert r =>
    cases reply with
    | ok stored =>
      cases made
      exact about
    | error e => cases made
  | replace r =>
    cases reply with
    | ok stored =>
      cases made
      exact about
    | error e => cases made
  | remove id =>
    cases reply with
    | ok done =>
      cases made
      exact Option.some.inj subject
    | error e => cases made
  | _ => cases made

namespace Service

variable {s : Service} {x : RecordId}

theorem concerns_begin {request : Request} (subject : request.subject? = some x) :
    (s.begin request).Concerns x := by
  cases request with
  | list page => cases subject
  | get id => exact subject
  | create candidate =>
    obtain ⟨-, hstage⟩ | ⟨outcome, hstage⟩ :=
      s.accept_spec candidate (.asking (.inserting candidate))
    · rw [begin, hstage]
      exact subject
    · rw [begin, hstage]
      trivial
  | update id merger =>
    simp only [begin]
    split
    · exact subject
    · trivial
  | delete id => exact subject

/-- What follows a reply that tells of the record is for the record, too. -/
theorem concerns_resume {ask : Ask} {reply : ask.call.Reply} (subject : ask.call.subject? = some x)
    (about : ask.call.Reports x reply) : (s.resume ask reply).2.Concerns x := by
  cases hnext : (s.resume ask reply).2 with
  | finished outcome => trivial
  | asking ask' =>
    cases follows_of_resume hnext with
    | fetches => exact subject
    | refills inlined => exact congrArg some about
    | replaces same checked => exact (congrArg some same).trans subject
  | settling change =>
    exact PortCall.recordId_of_reports subject about (change_of_resume (.inl hnext))
  | announcing change =>
    exact PortCall.recordId_of_reports subject about (change_of_resume (.inr hnext))

/-- A record that is put aside for the background is the one that the reply tells of. -/
theorem id_of_refresh {ask : Ask} {reply : ask.call.Reply} {r : Record}
    (about : ask.call.Reports x reply) (h : .refresh r ∈ (s.resume ask reply).1) : r.id = x := by
  by_cases hfetching : ∃ id, ask = .fetching id
  · obtain ⟨id, rfl⟩ := hfetching
    cases reply with
    | ok found =>
      simp only [resume, refill] at h
      split at h
      · cases h
      · cases List.mem_singleton.mp h
        exact about
    | error e => cases h
  · exact (s.quiet_resume ask reply (fun id hid => hfetching ⟨id, hid⟩) _ h).elim

end Service

/-- Two runs for a record are the same and leave the same for it.  The first leaves everything else
as it was, and starts no refresh but of the record. -/
structure Run.Agrees (x : RecordId) (b : Backend) (run run' : Run Backend) : Prop where
  outcome : run.outcome = run'.outcome
  notes : run.notes = run'.notes
  refreshes : ∀ r, .refresh r ∈ run.notes → r.id = x
  alike : (run.state.cell x).Alike (run'.state.cell x)
  others : ∀ id, id ≠ x → run.state.cell id = b.cell id

namespace Service

variable {s : Service} {x : RecordId} {ports ports' : Ports Backend} {b b' : Backend}

theorem agrees_announce (isLocal : ports.IsLocal ports') {change : DomainEvent}
    (concerns : change.recordId = x) (alike : (b.cell x).Alike (b'.cell x)) :
    (announce ports b change).Agrees x b (announce ports' b' change) := by
  have hquiet (r : Record) (h : .refresh r ∈ (announce ports b change).notes) : r.id = x :=
    False.elim (quiet_announce ports b change (.refresh r) h)
  have hsubject : (PortCall.writeCache change.cacheWrite).subject? = some x := by
    cases change <;> exact congrArg some concerns
  obtain ⟨hreply, -, halike, hothers⟩ := isLocal x _ b b' hsubject alike
  unfold announce at hquiet ⊢
  rcases hwrite : ports b (.writeCache change.cacheWrite) with ⟨reply, b₁⟩
  rcases hwrite' : ports' b' (.writeCache change.cacheWrite) with ⟨reply', b₁'⟩
  simp only [hwrite, hwrite'] at hreply halike hothers hquiet ⊢
  cases hreply
  cases reply with
  | none => exact ⟨rfl, rfl, hquiet, halike, hothers⟩
  | some written =>
    obtain ⟨hreply, -, halike', hothers'⟩ :=
      isLocal x (.publish change) b₁ b₁' (congrArg some concerns) halike
    have hothers₂ (id : RecordId) (hid : id ≠ x) :=
      (hothers' id hid).trans (hothers id hid)
    rcases hpublish : ports b₁ (.publish change) with ⟨published, b₂⟩
    rcases hpublish' : ports' b₁' (.publish change) with ⟨published', b₂'⟩
    simp only [hpublish, hpublish'] at hreply halike' hothers₂ hquiet ⊢
    cases hreply
    cases published with
    | none => exact ⟨rfl, rfl, hquiet, halike', hothers₂⟩
    | some published => exact ⟨rfl, rfl, hquiet, halike', hothers₂⟩

/-- From a stage that is for a record on, a request goes by what is held for the record. -/
theorem agrees_follow (isLocal : ports.IsLocal ports') {stage : Stage} (concerns : stage.Concerns x)
    (alike : (b.cell x).Alike (b'.cell x)) :
    (s.follow ports b stage).Agrees x b (s.follow ports' b' stage) := by
  induction b, stage using follow.induct s ports generalizing b' with
  | case1 b ask b₁ hports =>
    obtain ⟨hreply, -, halike, hothers⟩ := isLocal x _ b b' concerns alike
    rcases hports' : ports' b' ask.call with ⟨reply', b₁'⟩
    simp only [hports, hports'] at hreply halike hothers
    rw [follow, follow]
    simp only [hports, hports', ← hreply]
    exact ⟨rfl, rfl, by simp, halike, hothers⟩
  | case2 b ask reply b₁ hports _ ih =>
    obtain ⟨hreply, habout, halike, hothers⟩ := isLocal x _ b b' concerns alike
    rcases hports' : ports' b' ask.call with ⟨reply', b₁'⟩
    simp only [hports, hports'] at hreply habout halike hothers
    have hreports := habout reply rfl
    obtain ⟨houtcome, hnotes, hrefreshes, halike', hothers'⟩ :=
      ih (concerns_resume concerns hreports) halike
    rw [follow_asking hports, follow_asking (hports'.trans (by rw [← hreply]))]
    refine ⟨houtcome, congrArg (_ ++ ·) hnotes, fun r hr => ?_, halike',
      fun id hid => (hothers' id hid).trans (hothers id hid)⟩
    rcases List.mem_append.mp hr with hnow | hlater
    · exact id_of_refresh hreports hnow
    · exact hrefreshes r hlater
  | case3 b change =>
    rw [follow, follow]
    exact agrees_announce isLocal concerns alike
  | case4 b change =>
    rw [follow, follow]
    exact agrees_announce isLocal concerns alike
  | case5 b outcome =>
    rw [follow_finished, follow_finished]
    exact ⟨rfl, rfl, by simp, alike, fun _ _ => rfl⟩

theorem fill_fst {σ : Type} (ports : Ports σ) (state : σ) (r : Record) :
    (fill ports state r).1 =
      ((ports state (.writeCache (.keep r))).1.map (refillNotes r)).getD [] := by
  unfold fill
  split <;> simp_all

theorem quiet_fill {σ : Type} (ports : Ports σ) (state : σ) (r : Record) :
    ∀ n ∈ (fill ports state r).1, n.IsQuiet := by
  unfold fill
  split
  · simp
  · exact quiet_refillNotes r _

/-- A fill of the cache with the record goes by what is held for it. -/
theorem agrees_fillAll (isLocal : ports.IsLocal ports') {run run' : Run Backend}
    (h : run.Agrees x b run') {records : List Record} (about : ∀ r ∈ records, r.id = x) :
    (fillAll ports run records).Agrees x b (fillAll ports' run' records) := by
  induction records generalizing run run' with
  | nil => exact h
  | cons r records ih =>
    obtain ⟨hr, hrest⟩ := List.forall_mem_cons.mp about
    obtain ⟨houtcome, hnotes, hrefreshes, halike, hothers⟩ := h
    obtain ⟨hreply, -, halike', hothers'⟩ :=
      isLocal x (.writeCache (.keep r)) run.state run'.state (congrArg some hr) halike
    rw [fillAll_cons, fillAll_cons]
    refine ih ⟨houtcome, ?_, fun r' hr' => ?_, ?_, fun id hid => ?_⟩ hrest
    · simp only [fill_fst, hnotes, hreply]
    · rcases List.mem_append.mp hr' with hthere | hnew
      · exact hrefreshes r' hthere
      · exact False.elim (quiet_fill ports run.state r (.refresh r') hnew)
    · simpa only [fill_snd] using halike'
    · simpa only [fill_snd] using (hothers' id hid).trans (hothers id hid)

/-- A request for a record goes by what is held for it, and so do its refreshes. -/
theorem agrees_runWithRefreshes (isLocal : ports.IsLocal ports') {request : Request}
    (subject : request.subject? = some x) (alike : (b.cell x).Alike (b'.cell x)) :
    (s.runWithRefreshes ports b request).Agrees x b (s.runWithRefreshes ports' b' request) := by
  have hrun : (s.run ports b request).Agrees x b (s.run ports' b' request) :=
    agrees_follow isLocal (concerns_begin subject) alike
  have hrefreshes : (s.run ports b request).refreshes = (s.run ports' b' request).refreshes := by
    simp only [Run.refreshes, hrun.notes]
  rw [runWithRefreshes_eq, runWithRefreshes_eq, ← hrefreshes]
  exact agrees_fillAll isLocal hrun fun r hr => hrun.refreshes r (Run.mem_refreshes.mp hr)

/-- When refreshes are inlined, no note starts one. -/
theorem quiet_follow_of_inlined {σ : Type} (inlined : s.config.cacheRefresh = .inlined)
    (ports : Ports σ) (state : σ) (stage : Stage) :
    ∀ n ∈ (s.follow ports state stage).notes, n.IsQuiet := by
  induction state, stage using follow.induct s ports with
  | case1 state ask state' hports =>
    rw [follow, hports]
    simp
  | case2 state ask reply state' hports _ ih =>
    rw [follow_asking hports]
    refine List.forall_mem_append.mpr ⟨?_, ih⟩
    by_cases hfetching : ∃ id, ask = .fetching id
    · obtain ⟨id, rfl⟩ := hfetching
      cases reply <;> simp [resume, refill, inlined]
    · exact s.quiet_resume ask reply fun id hid => hfetching ⟨id, hid⟩
  | case3 state change =>
    rw [follow]
    exact quiet_announce ports state change
  | case4 state change =>
    rw [follow]
    exact quiet_announce ports state change
  | case5 state outcome => simp

theorem runWithRefreshes_of_inlined {σ : Type} (inlined : s.config.cacheRefresh = .inlined)
    (ports : Ports σ) (state : σ) (request : Request) :
    s.runWithRefreshes ports state request = s.run ports state request := by
  have hnone : (s.run ports state request).refreshes = [] :=
    List.eq_nil_iff_forall_not_mem.mpr
      (Run.refreshes_of_quiet (quiet_follow_of_inlined inlined ports state (s.begin request)))
  rw [runWithRefreshes_eq, hnone]
  rfl

/-! ## Two requests -/

/-- A request for a record changes nothing that is held for another. -/
theorem others_runWithRefreshes (s : Service) (c : Conditions)
    (belied : (call : PortCall) → Option call.Failure) (name : EventId) (b : Backend)
    {request : Request} (subject : request.subject? = some x) (id : RecordId) (hid : id ≠ x) :
    (s.runWithRefreshes (c.faulty belied name) b request).state.cell id = b.cell id :=
  (agrees_runWithRefreshes (c.isLocal_faulty belied name name) subject (.refl _)).others id hid

/-- Two requests one after the other, each with the refreshes that it starts and with ports of its
own over the same backend. -/
def inTurn (s : Service) (ports ports' : Ports Backend) (b : Backend) (request request' : Request) :
    Run Backend × Run Backend :=
  let run := s.runWithRefreshes ports b request
  (run, s.runWithRefreshes ports' run.state request')

/-- Two failures are counted in whatever order. -/
theorem note_comm (counts : FailureCounts) (failure failure' : Failure) :
    (counts.note failure).note failure' = (counts.note failure').note failure := by
  rcases failure with ⟨_, _ | _ | _, _, _⟩ | ⟨_, _, _⟩ <;>
    rcases failure' with ⟨_, _ | _ | _, _, _⟩ | ⟨_, _, _⟩ <;> rfl

/-- Requests for different records commute.  Whichever comes first, each ends in the same way with
the same notes, and they leave the same store and the same cache, the same counts of failures, and
for each record the same events at the same times.  A request changes nothing that is held for
another record.  The calls meet the same conditions and faults in both orders, but the events get
other identifiers.  Without refreshes in the background the runs are those of the requests alone. -/
theorem requests_for_different_records_commute (s : Service) (c : Conditions)
    (belied : (call : PortCall) → Option call.Failure) (b : Backend) {request request' : Request}
    {x y : RecordId} (subject : request.subject? = some x) (subject' : request'.subject? = some y)
    (apart : x ≠ y) (names names' : EventId × EventId) (counts : FailureCounts) :
    let one := s.inTurn (c.faulty belied names.1) (c.faulty belied names.2) b request request'
    let two := s.inTurn (c.faulty belied names'.1) (c.faulty belied names'.2) b request' request
    (one.1.outcome = two.2.outcome ∧ one.1.notes = two.2.notes) ∧
    (one.2.outcome = two.1.outcome ∧ one.2.notes = two.1.notes) ∧
    one.2.state.store = two.2.state.store ∧
    one.2.state.cache = two.2.state.cache ∧
    (one.1.failures ++ one.2.failures).foldl FailureCounts.note counts =
      (two.1.failures ++ two.2.failures).foldl FailureCounts.note counts ∧
    (∀ id, (one.2.state.cell id).logged.map (·.content) =
      (two.2.state.cell id).logged.map (·.content)) ∧
    (∀ id, id ≠ x → one.1.state.cell id = b.cell id) ∧
    (∀ id, id ≠ y → two.1.state.cell id = b.cell id) ∧
    (s.config.cacheRefresh = .inlined →
      one.1 = s.run (c.faulty belied names.1) b request ∧
      one.2 = s.run (c.faulty belied names.2) one.1.state request') := by
  intro one two
  have hfirst := others_runWithRefreshes s c belied names.1 b subject
  have hsecond := others_runWithRefreshes s c belied names.2 one.1.state subject'
  have hfirst' := others_runWithRefreshes s c belied names'.1 b subject'
  have hsecond' := others_runWithRefreshes s c belied names'.2 two.1.state subject
  -- a request finds for its record what there was at first, whether it comes first or second
  have hown : one.1.Agrees x b two.2 :=
    agrees_runWithRefreshes (c.isLocal_faulty belied names.1 names'.2) subject
      (.of_eq (hfirst' x apart).symm)
  have hother : two.1.Agrees y b one.2 :=
    agrees_runWithRefreshes (c.isLocal_faulty belied names'.1 names.2) subject'
      (.of_eq (hfirst y apart.symm).symm)
  have hcells (id : RecordId) : (one.2.state.cell id).Alike (two.2.state.cell id) := by
    by_cases hx : id = x
    · subst hx
      exact (Cell.Alike.of_eq (hsecond id apart)).trans hown.alike
    · by_cases hy : id = y
      · subst hy
        exact hother.alike.symm.trans (.of_eq (hsecond' id hx).symm)
      · refine .of_eq ?_
        calc one.2.state.cell id
            = one.1.state.cell id := hsecond id hy
          _ = b.cell id := hfirst id hx
          _ = two.1.state.cell id := (hfirst' id hy).symm
          _ = two.2.state.cell id := (hsecond' id hx).symm
  obtain ⟨hstore, hcache⟩ := Backend.eq_of_alike hcells
  have hfailures : one.1.failures = two.2.failures := congrArg (List.filterMap _) hown.notes
  have hfailures' : one.2.failures = two.1.failures := congrArg (List.filterMap _) hother.notes.symm
  refine ⟨⟨hown.outcome, hown.notes⟩, ⟨hother.outcome.symm, hother.notes.symm⟩, hstore, hcache, ?_,
    fun id => (hcells id).logged, hfirst, hfirst', fun inlined => ?_⟩
  · rw [hfailures, hfailures']
    exact List.perm_append_comm.foldl_eq' (fun f _ g _ counts => note_comm counts f g) counts
  · exact ⟨runWithRefreshes_of_inlined inlined _ _ _, runWithRefreshes_of_inlined inlined _ _ _⟩

/-- Two records in the store and nothing else. -/
def twoDrafts : Backend where
  store := (((({} : Store).put (.ofNat 5) row ["red"]).2).put (.ofNat 7) row []).2
where
  row : Row := ⟨"old", 0, .ofRank false 0, .minute 3, none⟩

/-- The cache drops no records. -/
def inFourthMinute : Conditions where
  circumstances _ := ⟨.minute 4, .ofNat 0, 60 * nanosPerSecond, false⟩
  refuses
    | .writeCache (.evict _) => some (.backend "lost")
    | _ => none

/-- The cache keeps records, but says that it does not. -/
def keepsBelied : (call : PortCall) → Option call.Failure
  | .writeCache (.keep _) => some (.backend "late")
  | _ => none

/-- An update of one record and a deletion of the other. -/
theorem update_and_deletion_commute :
    let update := Request.update (.ofNat 5)
      (SparsePatch.merger { id := .ofNat 5, label := .present "new" })
    let delete := Request.delete (.ofNat 7)
    let ports (n : Nat) := inFourthMinute.faulty keepsBelied (.ofNat n)
    update.subject? = some (.ofNat 5) ∧ delete.subject? = some (.ofNat 7) ∧
      (.ofNat 5 : RecordId) ≠ .ofNat 7 ∧
      (inlining.inTurn (ports 1) (ports 2) twoDrafts update delete).2.state.store =
        (inlining.inTurn (ports 1) (ports 2) twoDrafts delete update).2.state.store := by
  intro update delete ports
  have hapart : (.ofNat 5 : RecordId) ≠ .ofNat 7 := by decide
  obtain ⟨-, -, hstore, -⟩ := requests_for_different_records_commute inlining inFourthMinute
    keepsBelied twoDrafts (rfl : update.subject? = some (.ofNat 5))
    (rfl : delete.subject? = some (.ofNat 7)) hapart (.ofNat 1, .ofNat 2) (.ofNat 1, .ofNat 2) {}
  exact ⟨rfl, rfl, hapart, hstore⟩

end Service

end CacheAside
