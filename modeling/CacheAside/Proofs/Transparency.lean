import CacheAside.Proofs.Backend
import CacheAside.Service.Run

/-!
# A cache that nobody notices

Without a cache a service answers a read directly from its store (`Service.answerUncached`).  When a
read fills the cache before it ends, and every write to the cache succeeds, a service with a cache
answers every sequence of requests just as one without, whatever the clocks show, whether entries
have expired or not, and whichever look-ups, changes of the store and publications fail.

The two backends are compared after every request (`Backend.Tracks`): they have the same store and
the same journal, and every entry of the cache is the store's record, those included that do not
count any more, since a clock that goes back makes them count again.
-/

namespace CacheAside

/-! ## A service without a cache -/

/-- How a request for a change ends when the event bus has replied. -/
def DomainEvent.verdict : DomainEvent → Except EventError Unit → Outcome
  | .created r, .ok () => .ok (.record r)
  | .created r, .error e => .error (.ofPublish .create r.id e)
  | .updated r, .ok () => .ok (.record r)
  | .updated r, .error e => .error (.ofPublish .update r.id e)
  | .deleted _, _ => .ok .done

namespace Service

variable {σ : Type}

/-- Asks a port and goes on with its reply, if there is one. -/
def ask (ports : Ports σ) (state : σ) (call : PortCall)
    (next : call.Reply → σ → Option Outcome × σ) : Option Outcome × σ :=
  match ports state call with
  | (none, state) => (none, state)
  | (some reply, state) => next reply state

/-- Tells only the event bus of a change. -/
def publish (ports : Ports σ) (state : σ) (change : DomainEvent) : Option Outcome × σ :=
  ask ports state (.publish change) fun published state => (some (change.verdict published), state)

/-- Puts a record that was merged with an update into the store. -/
def replaceUncached (ports : Ports σ) (state : σ) (new : Record) : Option Outcome × σ :=
  ask ports state (.replace new) fun
    | .ok r, state => publish ports state (.updated r)
    | .error e, state => (some (.error (.ofStore .update e)), state)

/-- What a service without a cache does for a request: it never looks anything up in a cache, and
writes nothing to one. -/
def answerUncached (s : Service) (ports : Ports σ) (state : σ) : Request → Option Outcome × σ
  | .list page => ask ports state (.findAll page) fun
    | .ok records, state => (some (.ok (.records records)), state)
    | .error e, state => (some (.error (.ofStore .list e)), state)
  | .get id => ask ports state (.find id) fun
    | .ok r, state => (some (.ok (.record r)), state)
    | .error e, state => (some (.error (.ofStore .get e)), state)
  | .create candidate =>
    match s.limits.check candidate with
    | .error e => (some (.error (.validation e)), state)
    | .ok () => ask ports state (.insert candidate) fun
      | .ok r, state => publish ports state (.created r)
      | .error e, state => (some (.error (.ofStore .create e)), state)
  | .update id merger =>
    if merger.target = id then
      ask ports state (.find id) fun
        | .error e, state => (some (.error (.ofStore .update e)), state)
        | .ok stored, state =>
          match merger.merge stored with
          | .error e => (some (.error (.validation e)), state)
          | .ok new =>
            if new.id = id then
              match s.limits.check new with
              | .error e => (some (.error (.validation e)), state)
              | .ok () => replaceUncached ports state new
            else (some (.error (.validation (.targetMismatch new.id id))), state)
    else (some (.error (.validation (.targetMismatch merger.target id))), state)
  | .delete id => ask ports state (.remove id) fun
    | .ok (), state => publish ports state (.deleted id)
    | .error e, state => (some (.error (.ofStore .delete e)), state)

/-- What a service with a cache does for a request. -/
def answer (s : Service) (ports : Ports σ) (state : σ) (request : Request) : Option Outcome × σ :=
  ((s.run ports state request).outcome, (s.run ports state request).state)

end Service

/-- A request, with what its calls meet. -/
structure Turn where
  request : Request
  conditions : Conditions

/-- What comes of one request after another. -/
def answersInTurn (answer : Ports Backend → Backend → Request → Option Outcome × Backend) :
    Backend → List Turn → List (Option Outcome)
  | _, [] => []
  | b, t :: turns =>
    (answer t.conditions.ports b t.request).1 ::
      answersInTurn answer (answer t.conditions.ports b t.request).2 turns

/-! ## What the ports do -/

/-- No look-up is interrupted, the store can be read, and every write to the cache succeeds; all
other calls may be refused. -/
structure Conditions.Benign (c : Conditions) : Prop where
  lookUp : ∀ id e, c.refuses (.lookUp id) = some e → ∃ message, e = .backend message
  find : ∀ id, c.refuses (.find id) = none
  write : ∀ b write, (c.ports b (.writeCache write)).1 = some (.ok ())

/-- Every record in the cache is the one in the store, also where its entry does not count. -/
def Backend.Agrees (b : Backend) : Prop :=
  ∀ id r, b.cache.stored? id = some r → b.store.find id = .ok r

/-- The store has made a change of which the cache has not been told: they agree on all other
records. -/
structure Backend.Owes (b : Backend) (change : DomainEvent) : Prop where
  others : ∀ id r, id ≠ change.recordId → b.cache.stored? id = some r → b.store.find id = .ok r
  found : b.store.find change.recordId = change.found

/-- A backend without a cache in use has the same store and the same journal. -/
structure Backend.SameBooks (b plain : Backend) : Prop where
  store : b.store = plain.store
  journal : b.journal = plain.journal

/-- Besides, the cache agrees with the store. -/
structure Backend.Tracks (b plain : Backend) : Prop extends Backend.SameBooks b plain where
  agrees : b.Agrees

/-- Records that have left the cache cannot disagree. -/
theorem Backend.Agrees.of_fewer {b b' : Backend} (h : b.Agrees) (hstore : b'.store = b.store)
    (hcache : ∀ key, b'.cache.stored? key = b.cache.stored? key ∨ b'.cache.stored? key = none) :
    b'.Agrees := by
  intro id r hr
  rw [hstore]
  rcases hcache id with hsame | hnone
  · exact h id r (hsame ▸ hr)
  · rw [hnone] at hr
    cases hr

/-- A call of the store or of the event bus. -/
def PortCall.isUncached : PortCall → Bool
  | .lookUp _ => false
  | .writeCache _ => false
  | _ => true

namespace Conditions

variable {c : Conditions} {b b' plain : Backend}

theorem ports_of_refused {call : PortCall} {e : call.Failure} (h : c.refuses call = some e) :
    c.ports b call = (some (.error e), b) := by
  simp [ports, h]

theorem ports_of_not_refused {call : PortCall} (h : c.refuses call = none) :
    c.ports b call = ((b.serve (c.circumstances call) call).reply,
      (b.serve (c.circumstances call) call).backend) := by
  simp [ports, h]

/-- A call of the store or of the event bus is answered in the same way with a cache and without,
and it leaves the cache alone. -/
theorem ports_sameBooks {call : PortCall} (hcall : call.isUncached) (h : b.SameBooks plain) :
    ∃ reply b' plain', c.ports b call = (some reply, b') ∧
      c.ports plain call = (some reply, plain') ∧
      b'.SameBooks plain' ∧ b'.cache = b.cache := by
  obtain ⟨hstore, hjournal⟩ := h
  cases hrefuses : c.refuses call with
  | some e =>
    rw [ports_of_refused hrefuses, ports_of_refused hrefuses]
    exact ⟨_, _, _, rfl, rfl, ⟨hstore, hjournal⟩, rfl⟩
  | none =>
    rw [ports_of_not_refused hrefuses, ports_of_not_refused hrefuses]
    cases call with
    | findAll page => exact ⟨_, _, _, rfl, by rw [hstore]; rfl, ⟨hstore, hjournal⟩, rfl⟩
    | find id => exact ⟨_, _, _, rfl, by rw [hstore]; rfl, ⟨hstore, hjournal⟩, rfl⟩
    | insert r =>
      simp only [Backend.serve, hstore]
      split
      · exact ⟨_, _, _, rfl, rfl, ⟨rfl, hjournal⟩, rfl⟩
      · exact ⟨_, _, _, rfl, rfl, ⟨hstore, hjournal⟩, rfl⟩
    | replace r =>
      simp only [Backend.serve, hstore]
      split
      · exact ⟨_, _, _, rfl, rfl, ⟨rfl, hjournal⟩, rfl⟩
      · exact ⟨_, _, _, rfl, rfl, ⟨hstore, hjournal⟩, rfl⟩
    | remove id =>
      simp only [Backend.serve, hstore]
      split
      · exact ⟨_, _, _, rfl, rfl, ⟨rfl, hjournal⟩, rfl⟩
      · exact ⟨_, _, _, rfl, rfl, ⟨hstore, hjournal⟩, rfl⟩
    | publish event =>
      simp only [Backend.serve]
      split
      · exact ⟨_, _, _, rfl, rfl, ⟨hstore, hjournal⟩, rfl⟩
      · exact ⟨_, _, _, rfl, rfl, ⟨hstore, by rw [hjournal]⟩, rfl⟩
    | lookUp id => cases hcall
    | writeCache write => cases hcall

/-- What is left of an agreement after a call of the store or of the event bus: all of it, unless
the call has changed a record. -/
theorem agrees_ports {call : PortCall} {reply : call.Reply} (hb : b.Agrees)
    (hports : c.ports b call = (some reply, b')) (hcache : b'.cache = b.cache) :
    match call.change? reply with
    | none => b'.Agrees
    | some change => b'.Owes change := by
  cases hrefuses : c.refuses call with
  | some e =>
    cases (ports_of_refused hrefuses).symm.trans hports
    rw [PortCall.change?_error]
    exact hb
  | none =>
    obtain ⟨hreply, rfl⟩ := Prod.mk.inj ((ports_of_not_refused hrefuses).symm.trans hports)
    split
    · rename_i hnone
      refine hb.of_fewer (Backend.store_serve fun reply' hreply' => ?_) fun key => .inl ?_
      · cases hreply.symm.trans hreply'
        exact hnone
      · rw [hcache]
    · rename_i change hchange
      have hfind := Backend.find_serve hreply hchange
      refine ⟨fun id r hid hr => ?_, by rw [hfind, if_pos rfl]⟩
      rw [hcache] at hr
      rw [hfind, if_neg hid]
      exact hb id r hr

/-- A call of the store or of the event bus between two backends that track each other. -/
theorem ports_tracks {call : PortCall} (hcall : call.isUncached) (h : b.Tracks plain) :
    ∃ reply b' plain', c.ports b call = (some reply, b') ∧
      c.ports plain call = (some reply, plain') ∧
      b'.SameBooks plain' ∧
      match call.change? reply with
      | none => b'.Agrees
      | some change => b'.Owes change := by
  obtain ⟨reply, b', plain', hports, hplain, hbooks, hcache⟩ :=
    ports_sameBooks (c := c) hcall h.toSameBooks
  exact ⟨reply, b', plain', hports, hplain, hbooks, agrees_ports h.agrees hports hcache⟩

/-- A write to the cache that succeeds is carried out. -/
theorem ports_write (benign : c.Benign) (write : CacheWrite) :
    (b.serve (c.circumstances (.writeCache write)) (.writeCache write)).reply = some (.ok ()) ∧
      c.ports b (.writeCache write) = (some (.ok ()),
        (b.serve (c.circumstances (.writeCache write)) (.writeCache write)).backend) := by
  have hwritten := benign.write b write
  cases hrefuses : c.refuses (.writeCache write) with
  | some e =>
    rw [ports_of_refused hrefuses] at hwritten
    cases hwritten
  | none =>
    rw [ports_of_not_refused hrefuses] at hwritten ⊢
    exact ⟨hwritten, Prod.ext hwritten rfl⟩

/-- When the cache is told of a change that the store has made, they agree on all records again. -/
theorem ports_news (benign : c.Benign) {change : DomainEvent} (hbooks : b.SameBooks plain)
    (howes : b.Owes change) :
    ∃ b', c.ports b (.writeCache change.cacheWrite) = (some (.ok ()), b') ∧ b'.Tracks plain := by
  obtain ⟨hserved, hports⟩ := ports_write (b := b) benign change.cacheWrite
  have hstore : (b.serve (c.circumstances (.writeCache change.cacheWrite))
      (.writeCache change.cacheWrite)).backend.store = b.store :=
    Backend.store_serve fun _ _ => rfl
  refine ⟨_, hports, ⟨hstore.trans hbooks.store,
    Backend.journal_serve_write.trans hbooks.journal⟩, fun id r hr => ?_⟩
  rw [Backend.stored?_serve_news hserved] at hr
  rw [hstore]
  split at hr
  · rename_i hid
    rw [hid, howes.found]
    exact DomainEvent.found_eq_ok.mpr hr
  · rename_i hid
    exact howes.others id r hid hr

/-- A read fills the cache with the record that it has found. -/
theorem ports_fill (benign : c.Benign) {r : Record} (h : b.Tracks plain)
    (hfound : b.store.find r.id = .ok r) :
    ∃ b', c.ports b (.writeCache (.keep r)) = (some (.ok ()), b') ∧ b'.Tracks plain := by
  -- the cache is told of the record as if it had just been created
  have howes : b.Owes (.created r) := ⟨fun id x _ hx => h.agrees id x hx, hfound⟩
  exact ports_news benign h.toSameBooks howes

/-- A look-up finds the store's record, or nothing, or fails for reasons of the cache's own. -/
theorem ports_lookUp (benign : c.Benign) (h : b.Tracks plain) (id : RecordId) :
    ∃ reply b', c.ports b (.lookUp id) = (some reply, b') ∧ b'.Tracks plain ∧
      ((∃ r, reply = .ok (some r) ∧ b.store.find id = .ok r) ∨ reply = .ok none ∨
        ∃ message, reply = .error (.backend message)) := by
  cases hrefuses : c.refuses (.lookUp id) with
  | some e =>
    obtain ⟨message, rfl⟩ := benign.lookUp id e hrefuses
    exact ⟨_, _, ports_of_refused hrefuses, h, .inr (.inr ⟨message, rfl⟩)⟩
  | none =>
    -- the look-up may drop an entry, which leaves nothing that could disagree
    have hspec := Cache.get_spec b.cache (c.circumstances (.lookUp id)).now id
    refine ⟨_, _, ports_of_not_refused hrefuses,
      ⟨⟨h.store, h.journal⟩, h.agrees.of_fewer rfl hspec.2⟩, ?_⟩
    cases hfound : (b.cache.get (c.circumstances (.lookUp id)).now id).1 with
    | none => exact .inr (.inl (congrArg Except.ok hfound))
    | some r =>
      refine .inl ⟨r, congrArg Except.ok hfound, h.agrees id r ?_⟩
      rw [hfound] at hspec
      simpa [eq_comm] using hspec.1

end Conditions

/-! ## A request with the cache and without -/

/-- A request has been answered, in the same way with a cache and without, and the two backends
still track each other. -/
structure Run.Matches (run : Run Backend) (uncached : Option Outcome × Backend) : Prop where
  outcome : ∃ outcome, run.outcome = some outcome ∧ uncached.1 = some outcome
  state : run.state.Tracks uncached.2

/-- Notes make no difference to a caller. -/
theorem Run.Matches.after {run : Run Backend} {uncached : Option Outcome × Backend}
    (h : run.Matches uncached) (notes : List Note) : (run.after notes).Matches uncached :=
  ⟨h.outcome, h.state⟩

namespace Service

variable {s : Service} {c : Conditions} {b plain : Backend}

@[simp] theorem follow_finished {σ : Type} (ports : Ports σ) (state : σ) (outcome : Outcome) :
    s.follow ports state (.finished outcome) = ⟨some outcome, [], state⟩ := by
  rw [follow]

theorem follow_asking {σ : Type} {ports : Ports σ} {state state' : σ} {q : Ask}
    {reply : q.call.Reply} (h : ports state q.call = (some reply, state')) :
    s.follow ports state (.asking q) =
      (s.follow ports state' (s.resume q reply).2).after (s.resume q reply).1 := by
  rw [follow]
  simp only [h]

theorem ask_eq {σ : Type} {ports : Ports σ} {state state' : σ} {call : PortCall}
    {reply : call.Reply} (h : ports state call = (some reply, state'))
    (next : call.Reply → σ → Option Outcome × σ) :
    ask ports state call next = next reply state' := by
  simp only [ask, h]

/-- A request goes on in the same way with a cache and without after a call of the store. -/
theorem matches_asking {q : Ask} (hcall : q.call.isUncached) (h : b.Tracks plain)
    {next : q.call.Reply → Backend → Option Outcome × Backend}
    (go : ∀ reply b' plain', b'.SameBooks plain' →
      (match q.call.change? reply with
        | none => b'.Agrees
        | some change => b'.Owes change) →
      (s.follow c.ports b' (s.resume q reply).2).Matches (next reply plain')) :
    (s.follow c.ports b (.asking q)).Matches (ask c.ports plain q.call next) := by
  obtain ⟨reply, b', plain', hports, hplain, hbooks, hchange⟩ := Conditions.ports_tracks hcall h
  rw [follow_asking hports, ask_eq hplain]
  exact (go reply b' plain' hbooks hchange).after _

/-- The cache and the event bus are told of a change that the store has made. -/
theorem matches_announce (benign : c.Benign) {change : DomainEvent} (hbooks : b.SameBooks plain)
    (howes : b.Owes change) :
    (announce c.ports b change).Matches (publish c.ports plain change) := by
  obtain ⟨b₁, hnews, htracks⟩ := Conditions.ports_news benign hbooks howes
  obtain ⟨published, b₂, plain', hports, hplain, hbooks', hagrees⟩ :=
    Conditions.ports_tracks (c := c) (rfl : (PortCall.publish change).isUncached) htracks
  rw [publish, ask_eq hplain, announce]
  simp only [hnews, hports]
  refine ⟨⟨change.verdict published, ?_, rfl⟩, hbooks', hagrees⟩
  cases change <;> cases published <;> rfl

/-- A request that ends at once has changed nothing. -/
theorem matches_finished (h : b.Tracks plain) (outcome : Outcome) :
    (s.follow c.ports b (.finished outcome)).Matches (some outcome, plain) := by
  rw [follow_finished]
  exact ⟨⟨outcome, rfl, rfl⟩, h⟩

/-- A read that has to go to the store is answered as without a cache, and fills the cache. -/
theorem matches_fetch (inlined : s.config.cacheRefresh = .inlined) (benign : c.Benign)
    (h : b.Tracks plain) (id : RecordId) :
    (s.follow c.ports b (.asking (.fetching id))).Matches
      (s.answerUncached c.ports plain (.get id)) := by
  have hports : c.ports b (.find id) = (some (b.store.find id), b) :=
    Conditions.ports_of_not_refused (benign.find id)
  have hplain : c.ports plain (.find id) = (some (b.store.find id), plain) :=
    h.store ▸ Conditions.ports_of_not_refused (benign.find id)
  rw [follow_asking hports, answerUncached, ask_eq hplain]
  cases hfind : b.store.find id with
  | error e => exact (matches_finished h _).after _
  | ok r =>
    obtain ⟨b', hfill, htracks⟩ :=
      Conditions.ports_fill benign h (Store.id_of_find hfind ▸ hfind)
    simp only [resume, refill, inlined]
    rw [follow_asking (q := .refilling r) hfill]
    exact ((matches_finished htracks _).after _).after _

/-- A read is answered by the cache with the record that the store would give. -/
theorem matches_get (inlined : s.config.cacheRefresh = .inlined) (benign : c.Benign)
    (h : b.Tracks plain) (id : RecordId) :
    (s.run c.ports b (.get id)).Matches (s.answerUncached c.ports plain (.get id)) := by
  obtain ⟨reply, b', hports, htracks, ⟨r, rfl, hfound⟩ | rfl | ⟨message, rfl⟩⟩ :=
    Conditions.ports_lookUp benign h id
  · have hplain : c.ports plain (.find id) = (some (.ok r), plain) := by
      rw [Conditions.ports_of_not_refused (benign.find id)]
      exact Prod.ext (congrArg some (h.store ▸ hfound)) rfl
    rw [run, begin, follow_asking hports, answerUncached, ask_eq hplain]
    exact (matches_finished htracks _).after _
  · rw [run, begin, follow_asking hports]
    exact (matches_fetch inlined benign htracks id).after _
  · rw [run, begin, follow_asking hports]
    exact (matches_fetch inlined benign htracks id).after _

theorem matches_list (h : b.Tracks plain) (page : Page) :
    (s.run c.ports b (.list page)).Matches (s.answerUncached c.ports plain (.list page)) := by
  refine matches_asking rfl h fun reply b' plain' hbooks hagrees => ?_
  cases reply with
  | ok records => exact matches_finished ⟨hbooks, hagrees⟩ _
  | error e => exact matches_finished ⟨hbooks, hagrees⟩ _

theorem matches_delete (benign : c.Benign) (h : b.Tracks plain) (id : RecordId) :
    (s.run c.ports b (.delete id)).Matches (s.answerUncached c.ports plain (.delete id)) := by
  refine matches_asking rfl h fun reply b' plain' hbooks hchange => ?_
  match reply with
  | .ok () =>
    rw [resume, follow]
    exact matches_announce benign hbooks hchange
  | .error e => exact matches_finished ⟨hbooks, hchange⟩ _

theorem matches_create (benign : c.Benign) (h : b.Tracks plain) (candidate : Record) :
    (s.run c.ports b (.create candidate)).Matches
      (s.answerUncached c.ports plain (.create candidate)) := by
  simp only [run, begin, accept, answerUncached]
  cases s.limits.check candidate with
  | error e => exact matches_finished h _
  | ok _ =>
    refine matches_asking (q := .inserting candidate) rfl h fun reply b' plain' hbooks hchange => ?_
    cases reply with
    | ok r =>
      rw [resume, follow]
      exact matches_announce benign hbooks hchange
    | error e => exact matches_finished ⟨hbooks, hchange⟩ _

/-- A record that was merged with an update is checked and replaced as without a cache. -/
theorem matches_replace (benign : c.Benign) (h : b.Tracks plain) (new : Record) :
    (s.follow c.ports b (.asking (.replacing new))).Matches
      (replaceUncached c.ports plain new) := by
  refine matches_asking (q := .replacing new) rfl h fun reply b' plain' hbooks hchange => ?_
  cases reply with
  | ok r =>
    rw [resume, follow]
    exact matches_announce benign hbooks hchange
  | error e => exact matches_finished ⟨hbooks, hchange⟩ _

theorem matches_update (benign : c.Benign) (h : b.Tracks plain) (id : RecordId) (merger : Merger) :
    (s.run c.ports b (.update id merger)).Matches
      (s.answerUncached c.ports plain (.update id merger)) := by
  simp only [run, begin, answerUncached]
  split
  · refine matches_asking rfl h fun reply b' plain' hbooks hagrees => ?_
    cases reply with
    | error e => exact matches_finished ⟨hbooks, hagrees⟩ _
    | ok stored =>
      simp only [resume, merged]
      cases merger.merge stored with
      | error e => exact matches_finished ⟨hbooks, hagrees⟩ _
      | ok new =>
        simp only [accept]
        split
        · cases s.limits.check new with
          | error e => exact matches_finished ⟨hbooks, hagrees⟩ _
          | ok _ => exact matches_replace benign ⟨hbooks, hagrees⟩ new
        · exact matches_finished ⟨hbooks, hagrees⟩ _
  · exact matches_finished h _

/-- Every request is answered in the same way with a cache and without. -/
theorem matches_run (inlined : s.config.cacheRefresh = .inlined) (benign : c.Benign)
    (h : b.Tracks plain) (request : Request) :
    (s.run c.ports b request).Matches (s.answerUncached c.ports plain request) := by
  cases request with
  | list page => exact matches_list h page
  | get id => exact matches_get inlined benign h id
  | create candidate => exact matches_create benign h candidate
  | update id merger => exact matches_update benign h id merger
  | delete id => exact matches_delete benign h id

/-- Two backends that track each other give the same answers to all requests that follow, and none
of them is left without an answer. -/
theorem answers_of_tracks (inlined : s.config.cacheRefresh = .inlined) {turns : List Turn}
    (benign : ∀ t ∈ turns, t.conditions.Benign) (h : b.Tracks plain) :
    answersInTurn s.answer b turns = answersInTurn s.answerUncached plain turns ∧
      ∀ answer ∈ answersInTurn s.answer b turns, answer.isSome := by
  induction turns generalizing b plain with
  | nil => exact ⟨rfl, by simp [answersInTurn]⟩
  | cons t turns ih =>
    obtain ⟨⟨outcome, hrun, hplain⟩, htracks⟩ :=
      matches_run inlined (benign t (.head _)) h t.request
    obtain ⟨hsame, hall⟩ := ih (fun u hu => benign u (.tail _ hu)) htracks
    have hfirst : (s.answer t.conditions.ports b t.request).1 = some outcome := hrun
    constructor
    · simp only [answersInTurn]
      rw [hfirst, hplain]
      exact congrArg _ hsame
    · intro answer hanswer
      rcases List.mem_cons.mp hanswer with rfl | hlater
      · rw [hfirst]
        rfl
      · exact hall answer hlater

/-- A service that fills the cache before a read ends, and starts with an empty one, answers every
request of a sequence, and answers it exactly as it would without a cache. -/
theorem answers_as_without_cache (inlined : s.config.cacheRefresh = .inlined) (store : Store)
    (journal : Journal) {turns : List Turn} (benign : ∀ t ∈ turns, t.conditions.Benign) :
    answersInTurn s.answer { store, journal } turns =
        answersInTurn s.answerUncached { store, journal } turns ∧
      ∀ answer ∈ answersInTurn s.answer { store, journal } turns, answer.isSome :=
  answers_of_tracks inlined benign ⟨⟨rfl, rfl⟩, fun _ _ h => by cases h⟩

/-- A turn for which all clocks show the same time. -/
def atTime (now : Timestamp) (ttl : Nat) (request : Request)
    (refuses : (call : PortCall) → Option call.Failure := fun _ => none) : Turn where
  request
  conditions := { circumstances := fun _ => { now, eventId := .ofNat 0, ttl }, refuses }

theorem benign_atTime {now : Timestamp} {ttl : Nat} {request : Request}
    {refuses : (call : PortCall) → Option call.Failure}
    (expiry : ∃ moment, Cache.expiry now ttl = .ok moment)
    (lookUp : ∀ id e, refuses (.lookUp id) = some e → ∃ message, e = .backend message)
    (find : ∀ id, refuses (.find id) = none)
    (write : ∀ write, refuses (.writeCache write) = none) :
    (atTime now ttl request refuses).conditions.Benign := by
  refine ⟨lookUp, find, fun b w => ?_⟩
  rw [Conditions.ports_of_not_refused (write w)]
  cases w with
  | keep r => exact Backend.serve_keep_eq_ok.mpr expiry
  | evict id => rfl

/-- A turn in a minute, with entries of the cache that live for one minute. -/
def inMinute (n : Fin 10) (request : Request)
    (refuses : (call : PortCall) → Option call.Failure := fun _ => none) : Turn :=
  atTime (.minute n) (60 * nanosPerSecond) request refuses

theorem expiry_minute (n : Fin 10) :
    ∃ moment, Cache.expiry (.minute n) (60 * nanosPerSecond) = .ok moment := by
  have hok : ∀ n : Fin 10, (Cache.expiry (.minute n) (60 * nanosPerSecond)).isOk := by decide
  have hn := hok n
  cases h : Cache.expiry (.minute n) (60 * nanosPerSecond) with
  | ok moment => exact ⟨moment, rfl⟩
  | error fault =>
    rw [h] at hn
    cases hn

def inlining : Service where
  config := { cacheRefresh := .inlined }

/-- A new record, and what an update makes of it. -/
def draft : Record :=
  .draft 3

def relabeled : Record :=
  { draft with label := "new", updatedAt := some (.minute 8) }

/-- A record is created, read from the cache, read again after its entry has expired, updated while
nothing can be published, read with a broken cache and then on a clock that has gone back, and
deleted. -/
def lifeOfDraft : List Turn :=
  [inMinute 3 (.create draft),
    inMinute 3 (.get draft.id),
    inMinute 7 (.get draft.id),
    inMinute 8 (.update draft.id (SparsePatch.merger { id := draft.id, label := .present "new" }))
      fun
      | .publish _ => some (.backend "full")
      | _ => none,
    inMinute 8 (.get draft.id) fun
      | .lookUp _ => some (.backend "lost")
      | _ => none,
    inMinute 2 (.get draft.id),
    inMinute 2 (.delete draft.id),
    inMinute 2 (.get draft.id)]

theorem answers_in_lifeOfDraft :
    inlining.config.cacheRefresh = .inlined ∧ (∀ t ∈ lifeOfDraft, t.conditions.Benign) ∧
      answersInTurn inlining.answer { store := {}, journal := {} } lifeOfDraft =
        [some (.ok (.record draft)), some (.ok (.record draft)), some (.ok (.record draft)),
          some (.error (.ofPublish .update draft.id (.backend "full"))),
          some (.ok (.record relabeled)), some (.ok (.record relabeled)), some (.ok .done),
          some (.error (.notFound draft.id))] := by
  have hbenign : ∀ t ∈ lifeOfDraft, t.conditions.Benign := by
    simp only [lifeOfDraft, List.forall_mem_cons]
    refine ⟨?_, ?_, ?_, ?_, ?_, ?_, ?_, ?_, by simp⟩
    all_goals exact benign_atTime (expiry_minute _) (by simp) (by simp) (by simp)
  refine ⟨rfl, hbenign, (answers_as_without_cache rfl {} {} hbenign).1.trans ?_⟩
  rfl

end Service

end CacheAside
