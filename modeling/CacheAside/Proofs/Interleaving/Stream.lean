import CacheAside.Proofs.Interleaving.Alone
import CacheAside.Proofs.Interleaving.Validity
import CacheAside.Proofs.Ledger

/-!
# The journal as a stream of changes

When creations, updates and deletions come one after another, the journal holds the changes that
the store has committed, in this order and with the records that the store has replied, except for
those whose publication has failed.  Who has asked for such a change can tell: a creation or an
update returns an error, and the failure of a deletion's event is counted (`Deal.IsFair`).  So if
none has failed, the journal is all that is needed to rebuild the records (`Ledger.replay`).

This holds as long as every call comes to its end.  One that has been committed breaks down before
it publishes anything if the cache cannot tell when the entry would expire.
-/

namespace CacheAside

namespace Ledger

/-- What a change makes of a plain map. -/
def apply (m : Ledger) : DomainEvent → Ledger
  | .created r => m.insert r.id r
  | .updated r => m.insert r.id r
  | .deleted id => m.erase id

/-- The plain map that some changes make of nothing. -/
def replay (changes : List DomainEvent) : Ledger :=
  changes.foldl apply .empty

end Ledger

/-- A request makes the same change of a store and of the map that it stands for. -/
theorem Request.Writes.view {store store' : Store} {request : Request} {change : DomainEvent}
    (h : request.Writes store change store') :
    store'.view = store.view.apply change ∧ (store.IsTidy → store'.IsTidy) := by
  cases h with
  | @creates candidate r store' now created =>
    refine ⟨?_, fun tidy => tidy.create created⟩
    have hledger := store.create_ledger now candidate
    rw [created] at hledger
    obtain ⟨-, hstored, -⟩ := Store.create_eq_ok created
    unfold Ledger.create at hledger
    split at hledger
    · cases congrArg Prod.fst hledger
    · have hview := congrArg Prod.snd hledger
      subst hstored
      exact hview.symm
  | @updates id merger stored new r store' now found merged same updated =>
    refine ⟨?_, fun tidy => tidy.update updated⟩
    have hledger := store.update_ledger now new
    rw [updated] at hledger
    obtain ⟨old, -, hstored, -⟩ := Store.update_eq_ok updated
    unfold Ledger.update at hledger
    split at hledger
    · have hid : r.id = new.id := by rw [hstored]
      have hreply := Except.ok.inj (congrArg Prod.fst hledger)
      have hview := congrArg Prod.snd hledger
      rw [Ledger.apply, hid, ← hreply]
      exact hview.symm
    · cases congrArg Prod.fst hledger
  | @deletes id store' deleted =>
    refine ⟨?_, fun tidy => tidy.delete deleted⟩
    have hledger := store.delete_ledger id
    rw [deleted] at hledger
    unfold Ledger.delete at hledger
    split at hledger
    · exact (congrArg Prod.snd hledger).symm
    · cases congrArg Prod.fst hledger

namespace Simulation

/-- Of the two calls that tell of a change only the publication is one. -/
theorem Branch.any_isPublication (op : Operation) {change : DomainEvent}
    (written : (PortCall.writeCache change.cacheWrite).Reply)
    (published : (PortCall.publish change).Reply) :
    (Mishap.ofReply op written ++ Mishap.ofReply op published).any Mishap.isPublication =
      (Branch.replied published).isLost := by
  cases written <;> cases published <;> rfl

/-- How the request has ended. -/
def Point.outcome? : Point → Option Outcome
  | .finished outcome => some outcome
  | _ => none

/-- A call of the service, with what happens until it has ended. -/
structure Errand where
  ctx : Context
  request : Request
  acts : List Act

/-- What has come of a call. -/
structure Deal where
  /-- What the store has committed. -/
  committed : List DomainEvent
  /-- Missing if the call has not come to its end. -/
  outcome : Option Outcome
  /-- Whether a publication has failed. -/
  lost : Bool
  /-- By how much the count of failed publications has risen. -/
  counted : Nat

namespace Deal

/-- What has been committed and whose publication has not failed. -/
def published (d : Deal) : List DomainEvent :=
  if d.lost then [] else d.committed

/-- Nothing but a change that was committed can have failed to be published, and the caller or the
observer knows of it. -/
structure IsFair (d : Deal) : Prop where
  single : d.committed.length ≤ 1
  calm : d.committed = [] → d.lost = false ∧ d.counted = 0
  written : ∀ change ∈ d.committed, change.record?.isSome = true →
    (d.lost = true ↔ ∃ e, d.outcome = some (.error e) ∧
      ((∃ op id cause, e = .propagation op id cause) ∨ ∃ cause, e = .cancelled cause))
  deleted : ∀ change ∈ d.committed, change.record? = none →
    (d.lost = true ↔ d.counted = 1) ∧ (d.lost = false ↔ d.counted = 0)

/-- Nothing has been committed. -/
theorem fair_of_nothing (outcome : Option Outcome) : IsFair ⟨[], outcome, false, 0⟩ :=
  ⟨Nat.zero_le 1, fun _ => ⟨rfl, rfl⟩, by simp, by simp⟩

/-- A change has been committed, and the cache and the event bus have both replied. -/
theorem fair_of_change (change : DomainEvent) (written : Except CacheError Unit)
    (published : (PortCall.publish change).Reply) :
    IsFair ⟨[change], some (change.conclude written published).2,
      (Branch.replied published).isLost,
      change.uncaught (Branch.replied published).isLost⟩ := by
  refine ⟨Nat.le_refl 1, by simp, fun c hc kept => ?_, fun c hc gone => ?_⟩
  all_goals obtain rfl : c = change := by simpa using hc
  · cases c with
    | created r =>
      rcases published with e | ⟨⟩
      · simpa [Branch.isLost, DomainEvent.conclude] using ServiceError.ofPublish_eq .create r.id e
      · simp [Branch.isLost, DomainEvent.conclude]
    | updated r =>
      rcases published with e | ⟨⟩
      · simpa [Branch.isLost, DomainEvent.conclude] using ServiceError.ofPublish_eq .update r.id e
      · simp [Branch.isLost, DomainEvent.conclude]
    | deleted id => cases kept
  · cases c with
    | created r => cases gone
    | updated r => cases gone
    | deleted id => rcases published with e | ⟨⟩ <;> simp [Branch.isLost, DomainEvent.uncaught]

end Deal

namespace Scene

/-- The scene when a call has ended, and its caller has not taken the outcome yet. -/
def during (s : Scene) (e : Errand) : Scene :=
  s.perform (.start e.ctx e.request :: e.acts)

/-- The scene when the caller has taken the outcome. -/
def after (s : Scene) (e : Errand) : Scene :=
  (s.during e).act (.leave s.asked.length)

def deal (s : Scene) (e : Errand) : Deal where
  committed := (s.during e).changes.drop s.changes.length
  outcome := ((s.during e).threads.find? (·.key = s.asked.length)).bind (·.point.outcome?)
  lost := (s.mishaps (.start e.ctx e.request :: e.acts)).any Mishap.isPublication
  counted := (s.during e).world.failures.eventPublish - s.world.failures.eventPublish

/-- Calls that are made one after another, and what comes of each. -/
def session (s : Scene) : List Errand → List Deal × Scene
  | [] => ([], s)
  | e :: errands =>
    let (deals, s') := (s.after e).session errands
    (s.deal e :: deals, s')

/-- The events in the journal, without their numbers and times. -/
def stream (s : Scene) : List DomainEvent :=
  s.world.backend.journal.events.map (·.event)

/-- What one call leaves when it has come to its end. -/
structure Attended (s : Scene) (d : Deal) (s' : Scene) : Prop where
  idle : s'.IsIdle
  silent : s'.world.silent = s.world.silent
  changes : s'.changes = s.changes ++ d.committed
  stream : s'.stream = s.stream ++ d.published
  fair : d.IsFair
  view : s'.world.backend.store.view = d.committed.foldl Ledger.apply s.world.backend.store.view
  tidy : s.world.backend.store.IsTidy → s'.world.backend.store.IsTidy

/-- The journal has got the event of a change, or its publication has failed. -/
theorem stream_of_logged {s s' : Scene} {change : DomainEvent}
    {published : (PortCall.publish change).Reply}
    (logged : (Branch.replied published).Logged false s.world.backend.journal
      s'.world.backend.journal) :
    s'.stream = s.stream ++ if (Branch.replied published).isLost then [] else [change] := by
  unfold Scene.stream
  match published with
  | .error e =>
    have hjournal : s'.world.backend.journal = s.world.backend.journal := logged
    simp [Branch.isLost, hjournal]
  | .ok () =>
    obtain ⟨envelope, hevent, hjournal⟩ := logged
    simp [Branch.isLost, hjournal, Journal.append, hevent]

/-- Going by where a request stands that has come to its end. -/
theorem attended_of_stands {s s' : Scene} {request : Request} {heard : List Mishap} {d : Deal}
    {outcome : Outcome} (idle : s'.IsIdle) (audible : s.world.silent = false)
    (silent : s'.world.silent = s.world.silent)
    (stands : World.Stands s.world s.changes request s'.world s'.changes heard
      (some (.finished outcome)))
    (fails : d.lost = heard.any Mishap.isPublication)
    (committed : d.committed = s'.changes.drop s.changes.length)
    (ended : d.outcome = some outcome)
    (counted : d.counted = s'.world.failures.eventPublish - s.world.failures.eventPublish) :
    s.Attended d s' := by
  obtain ⟨changes, ending, lost, count⟩ := d
  dsimp only at fails committed ended counted
  subst ended
  generalize hchanges : s'.changes = now at stands committed
  cases stands with
  | refused same counted' uncommitted ofStore =>
    obtain rfl : changes = [] := by rw [committed, List.drop_length]
    obtain rfl : lost = false := by rw [fails, Mishap.any_isPublication_of_isOfStore ofStore]
    obtain rfl : count = 0 := by rw [counted, counted', Nat.sub_self]
    refine ⟨idle, silent, by rw [hchanges, List.append_nil], ?_, Deal.fair_of_nothing _, ?_, ?_⟩
    · simp [Scene.stream, same, Deal.published]
    · rw [same]
      rfl
    · rw [same]
      exact id
  | @concludes change written published _ _ writes logged counted' failed ends =>
    obtain rfl : changes = [change] := by rw [committed, List.drop_left]
    obtain rfl : count = change.uncaught (Branch.replied published).isLost := by
      rw [counted, counted', Nat.add_sub_cancel_left]
    obtain rfl : lost = (Branch.replied published).isLost := by
      rw [fails, failed.any_eq, Branch.any_isPublication]
    subst ends
    rw [audible] at logged
    exact ⟨idle, silent, hchanges, stream_of_logged logged,
      Deal.fair_of_change change written published, writes.view.1, writes.view.2⟩

/-- A call that has come to its end leaves its change, if any, in the store, and the event in the
journal unless its publication has failed. -/
theorem attended {s : Scene} (idle : s.IsIdle) (audible : s.world.silent = false) {e : Errand}
    (isChange : e.request.IsChange) (around : ∀ a ∈ e.acts, a.IsAround)
    (ended : (s.deal e).outcome.isSome = true) : s.Attended (s.deal e) (s.after e) := by
  have halone : s.Alone e.request _ (s.during e) :=
    (Alone.start idle isChange e.ctx).perform around
  obtain ⟨o, hthreads, hkey, hstands⟩ := halone.stands
  obtain ⟨t, rfl⟩ : ∃ t, o = some t := by
    cases o with
    | some t => exact ⟨t, rfl⟩
    | none => simp [deal, hthreads] at ended
  have hmine : t.key = s.asked.length := (hkey t rfl).1
  have hfind : (s.during e).threads.find? (·.key = s.asked.length) = some t := by
    simp [hthreads, hmine]
  have houtcome : (s.deal e).outcome = t.point.outcome? := by simp [deal, hfind]
  obtain ⟨outcome, hpoint⟩ : ∃ outcome, t.point = .finished outcome := by
    rw [houtcome] at ended
    cases hpoint : t.point with
    | finished outcome => exact ⟨outcome, rfl⟩
    | _ => simp [hpoint, Point.outcome?] at ended
  -- when the caller leaves, no request is left, and nothing else changes
  have hafter : s.after e = { s.during e with
      threads := (s.during e).threads.filter (·.key ≠ s.asked.length)
      forsaken := (s.during e).forsaken ++ t.point.tickets } := by
    simp only [after, act, hfind]
  have hgone : (s.after e).threads = [] := by
    rw [hafter]
    simp [hthreads, hmine]
  have hworld : (s.after e).world = (s.during e).world := by rw [hafter]
  have hchanges : (s.after e).changes = (s.during e).changes := by rw [hafter]
  simp only [Option.map_some, hpoint] at hstands
  rw [← hworld, ← hchanges] at hstands
  refine attended_of_stands ⟨hgone, hworld ▸ halone.refreshes, hworld ▸ halone.prompt⟩ audible
    (hworld ▸ halone.silent) hstands rfl (hchanges ▸ rfl) ?_ (hworld ▸ rfl)
  rw [houtcome, hpoint]
  rfl

/-! ## One call after another -/

/-- What a session leaves whose calls have all come to their ends. -/
structure Streams (s : Scene) (deals : List Deal) (s' : Scene) : Prop where
  changes : s'.changes = s.changes ++ deals.flatMap (·.committed)
  stream : s'.stream = s.stream ++ deals.flatMap (·.published)
  fair : ∀ d ∈ deals, d.IsFair
  view : s'.world.backend.store.view =
    (deals.flatMap (·.committed)).foldl Ledger.apply s.world.backend.store.view
  tidy : s.world.backend.store.IsTidy → s'.world.backend.store.IsTidy

theorem Streams.cons {s s₁ s' : Scene} {d : Deal} {deals : List Deal} (first : s.Attended d s₁)
    (rest : s₁.Streams deals s') : s.Streams (d :: deals) s' where
  changes := by rw [rest.changes, first.changes, List.append_assoc, List.flatMap_cons]
  stream := by rw [rest.stream, first.stream, List.append_assoc, List.flatMap_cons]
  fair := List.forall_mem_cons.mpr ⟨first.fair, rest.fair⟩
  view := by rw [rest.view, first.view, List.flatMap_cons, List.foldl_append]
  tidy := rest.tidy ∘ first.tidy

theorem streams {s : Scene} (idle : s.IsIdle) (audible : s.world.silent = false)
    {errands : List Errand}
    (requests : ∀ e ∈ errands, e.request.IsChange ∧ ∀ a ∈ e.acts, a.IsAround)
    (ended : ∀ d ∈ (s.session errands).1, d.outcome.isSome = true) :
    s.Streams (s.session errands).1 (s.session errands).2 := by
  induction errands generalizing s with
  | nil => exact ⟨by simp [session], by simp [session], by simp [session], rfl, id⟩
  | cons e errands ih =>
    obtain ⟨⟨isChange, around⟩, hrest⟩ := List.forall_mem_cons.mp requests
    obtain ⟨hfirst, hlater⟩ := List.forall_mem_cons.mp ended
    have hattended := attended idle audible isChange around hfirst
    exact .cons hattended (ih hattended.idle (hattended.silent.trans audible) hrest hlater)

/-- Over ports that were empty at first, the journal holds in order what the store has committed and
whose publication has not failed.  If none has failed, the records in the store are what the journal
makes of nothing. -/
theorem journal_streams_changes {s : Scene} (idle : s.IsIdle) (audible : s.world.silent = false)
    (empty : s.world.backend = {}) {errands : List Errand}
    (requests : ∀ e ∈ errands, e.request.IsChange ∧ ∀ a ∈ e.acts, a.IsAround)
    (ended : ∀ d ∈ (s.session errands).1, d.outcome.isSome = true) :
    let deals := (s.session errands).1
    let s' := (s.session errands).2
    s'.changes = s.changes ++ deals.flatMap (·.committed) ∧
      s'.stream = deals.flatMap (·.published) ∧ (∀ d ∈ deals, d.IsFair) ∧
      ((∀ d ∈ deals, d.lost = false) →
        s'.world.backend.store.Represents (.replay s'.stream)) := by
  intro deals s'
  have h : s.Streams deals s' := streams idle audible requests ended
  have hstream : s'.stream = deals.flatMap (·.published) := by
    rw [h.stream, Scene.stream, empty]
    rfl
  refine ⟨h.changes, hstream, h.fair, fun unlost => ?_⟩
  have htidy : s'.world.backend.store.IsTidy := by
    refine h.tidy fun id tags htags => ?_
    rw [empty] at htags
    cases htags
  have hpublished : deals.flatMap (·.published) = deals.flatMap (·.committed) := by
    rw [List.flatMap_def, List.flatMap_def]
    refine congrArg List.flatten (List.map_congr_left fun d hd => ?_)
    simp [Deal.published, unlost d hd]
  have hview : s'.world.backend.store.view = .replay s'.stream := by
    rw [h.view, empty, hstream, hpublished]
    rfl
  exact hview ▸ htidy.represents

/-- A request with this number that is taken to its end at once, among some faults. -/
def atOnce (key : Nat) (request : Request) (faults : List (Port × Fault)) : Errand where
  ctx := {}
  request := request
  acts := [.setFaults faults, .look key .cache, .look key .cache, .look key .cache,
    .look key .cache, .look key .bus, .look key .cache]

/-- A record is created, updated, deleted and created once more; the event bus fails in between. -/
def livesOfRecord : List Errand :=
  let fails (port : Port) : Port × Fault := (port, { error := some (.backend "out of order") })
  [atOnce 0 (.create oldRecord) [],
    atOnce 1 (.update oldRecord.id relabeling) [fails .publishUpdated],
    atOnce 2 (.delete oldRecord.id) [fails .cacheDeleteById, fails .publishDeleted],
    atOnce 3 (.create oldRecord) []]

theorem journal_streams_livesOfRecord :
    let deals := (withNothing.session livesOfRecord).1
    let s' := (withNothing.session livesOfRecord).2
    withNothing.IsIdle ∧
      (∀ e ∈ livesOfRecord, e.request.IsChange ∧ ∀ a ∈ e.acts, a.IsAround) ∧
      deals.map (·.lost) = [false, true, true, false] ∧
      s'.changes = [.created oldRecord, .updated newRecord, .deleted oldRecord.id,
        .created oldRecord] ∧
      s'.stream = [.created oldRecord, .created oldRecord] ∧
      s'.stream = deals.flatMap (·.published) ∧ ∀ d ∈ deals, d.IsFair := by
  intro deals s'
  have hidle : withNothing.IsIdle := ⟨rfl, rfl, by simp [World.IsPrompt, withNothing]⟩
  have hrequests : ∀ e ∈ livesOfRecord, e.request.IsChange ∧ ∀ a ∈ e.acts, a.IsAround := by
    decide
  have hended : ∀ d ∈ deals, d.outcome.isSome = true := by decide
  obtain ⟨-, hstream, hfair, -⟩ := journal_streams_changes hidle rfl rfl hrequests hended
  exact ⟨hidle, hrequests, by decide, by decide, by decide, hstream, hfair⟩

/-- The entries of the cache are to live for more years than there are. -/
def withEndlessEntries : Scene where
  world := {
    clock := firstMoment
    service := { config := { cacheTtl := 10000000000000 } } }

/-- The store commits the creation of a record, and its publication does not fail, but there is
none. -/
theorem creation_goes_unpublished :
    let deals := (withEndlessEntries.session [atOnce 0 (.create oldRecord) []]).1
    let s' := (withEndlessEntries.session [atOnce 0 (.create oldRecord) []]).2
    deals.flatMap (·.published) = [.created oldRecord] ∧ s'.stream = [] ∧
      s'.world.backend.store.size = 1 ∧ s'.world.failures.total = 0 ∧
      ∀ d ∈ deals, d.outcome.isSome = false := by
  decide

end Scene

end Simulation

end CacheAside
