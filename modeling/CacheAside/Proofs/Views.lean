import CacheAside.Proofs.Expiry
import CacheAside.Proofs.Staleness

/-!
# What a creation or an update leaves

A record that is created or updated passes through many hands: the caller's rule merges it, the
store stamps it and keeps its tags apart, and what the store gives back goes to the cache, to the
event bus and to the caller.  When no one of these fails, they all have the same record in the end,
and it is the one that was asked for (`Service.views_agree`); one that fails just goes without.
-/

namespace CacheAside

/-! ## What is asked for -/

/-- A creation from a caller's input, or an update. -/
inductive Request.Puts : Request → Prop where
  | create (id : RecordId) (input : NewRecord) (made : Timestamp) :
      Puts (.create (.ofNew id input made))
  | update (id : RecordId) (merger : Merger) : Puts (.update id merger)

/-- The change that is asked for, going by what the store holds.  Neither a caller nor a merger has
a say in the identifier or in the times. -/
inductive Request.Yields (c : Conditions) (store : Store) : Request → DomainEvent → Prop where
  | creates {id : RecordId} {input : NewRecord} {made : Timestamp}
      (absent : store.find id = .error (.notFound id)) :
      Yields c store (.create (.ofNew id input made))
        (.created ⟨id, input.label, input.value, input.weight, input.tags,
          (c.circumstances (.insert (.ofNew id input made))).now, none⟩)
  | updates {id : RecordId} {merger : Merger} {previous merged : Record}
      (found : store.find id = .ok previous) (merge : merger.merge previous = .ok merged) :
      Yields c store (.update id merger)
        (.updated ⟨previous.id, merged.label, merged.value, merged.weight, merged.tags,
          previous.createdAt,
          some ((c.circumstances (.replace merged)).now.latest previous.createdAt)⟩)

namespace Conditions

variable {c : Conditions} {b b' : Backend} {r stored : Record}

/-- Events go to the journal. -/
def Loud (c : Conditions) : Prop :=
  ∀ change, (c.circumstances (.publish change)).silent = false

/-- The cache takes the record when it is told to, until some moment. -/
def Keeps (c : Conditions) (r : Record) (moment : Timestamp) : Prop :=
  c.refuses (.writeCache (.keep r)) = none ∧
    Cache.expiry (c.circumstances (.writeCache (.keep r))).now
      (c.circumstances (.writeCache (.keep r))).ttl = .ok moment

/-- The event of a change, as the journal gets it. -/
def envelope (c : Conditions) (change : DomainEvent) : EventEnvelope :=
  ⟨(c.circumstances (.publish change)).eventId, (c.circumstances (.publish change)).now, change⟩

/-- The cache takes the record, or stays as it was and does not say that it has taken it. -/
theorem ports_keep_cases (c : Conditions) (b : Backend) (r : Record) :
    (∃ moment, c.Keeps r moment ∧ c.ports b (.writeCache (.keep r)) =
        (some (.ok ()), { b with cache := ⟨b.cache.entries.insert r.id ⟨r, moment⟩⟩ })) ∨
      (∀ moment, ¬ c.Keeps r moment) ∧ ∃ reply, reply ≠ some (.ok ()) ∧
        c.ports b (.writeCache (.keep r)) = (reply, b) := by
  cases hrefuses : c.refuses (.writeCache (.keep r)) with
  | some e =>
    refine .inr ⟨fun moment keeps => ?_, some (.error e), nofun, ports_of_refused hrefuses⟩
    cases hrefuses.symm.trans keeps.1
  | none =>
    rw [ports_of_not_refused hrefuses]
    by_cases htaken : ∃ moment, Cache.expiry (c.circumstances (.writeCache (.keep r))).now
        (c.circumstances (.writeCache (.keep r))).ttl = .ok moment
    · obtain ⟨moment, hmoment⟩ := htaken
      refine .inl ⟨moment, ⟨hrefuses, hmoment⟩, ?_⟩
      rw [Backend.serve_keep_of_expiry hmoment]
    · have hreply : (b.serve (c.circumstances _) (.writeCache (.keep r))).reply ≠ some (.ok ()) :=
        mt Backend.serve_keep_eq_ok.mp htaken
      exact .inr ⟨fun moment keeps => htaken ⟨moment, keeps.2⟩, _, hreply,
        Prod.ext rfl (Backend.serve_of_not_ok fun _ => hreply)⟩

/-- An event that is not refused goes to the end of the journal. -/
theorem ports_publish {change : DomainEvent} (taken : c.refuses (.publish change) = none)
    (loud : c.Loud) : c.ports b (.publish change) = (some (.ok ()),
      { b with journal := b.journal.append (c.envelope change) }) := by
  rw [ports_of_not_refused taken]
  simp only [Backend.serve, loud change, Bool.false_eq_true, if_false, envelope]

/-- What a creation leaves when the store has carried it out. -/
theorem ports_insert (h : c.ports b (.insert r) = (some (.ok stored), b')) :
    ∃ store, b.store.create (c.circumstances (.insert r)).now r = .ok (stored, store) ∧
      b' = { b with store } := by
  cases hrefuses : c.refuses (.insert r) with
  | some e => cases (ports_of_refused hrefuses).symm.trans h
  | none =>
    obtain ⟨hreply, rfl⟩ := Prod.mk.inj ((ports_of_not_refused hrefuses).symm.trans h)
    obtain ⟨store, hcreate⟩ : ∃ store, b.store.create _ r = .ok (stored, store) :=
      ⟨_, Backend.serve_insert hreply⟩
    refine ⟨store, hcreate, ?_⟩
    simp only [Backend.serve, hcreate]
    rfl

/-- What an update leaves when the store has carried it out. -/
theorem ports_replace (h : c.ports b (.replace r) = (some (.ok stored), b')) :
    ∃ store, b.store.update (c.circumstances (.replace r)).now r = .ok (stored, store) ∧
      b' = { b with store } := by
  cases hrefuses : c.refuses (.replace r) with
  | some e => cases (ports_of_refused hrefuses).symm.trans h
  | none =>
    obtain ⟨hreply, rfl⟩ := Prod.mk.inj ((ports_of_not_refused hrefuses).symm.trans h)
    obtain ⟨store, hupdate⟩ : ∃ store, b.store.update _ r = .ok (stored, store) :=
      ⟨_, Backend.serve_replace hreply⟩
    refine ⟨store, hupdate, ?_⟩
    simp only [Backend.serve, hupdate]
    rfl

end Conditions

/-! ## What is left -/

/-- The store holds the record that a change has left, and the other records as before; the cache
has been told of it, if it takes it. -/
structure Backend.Shows (c : Conditions) (b b' : Backend) (r : Record) : Prop where
  found : ∀ key, b'.store.find key = if key = r.id then .ok r else b.store.find key
  kept : ∀ moment, c.Keeps r moment → b'.cache.entries.get? r.id = some ⟨r, moment⟩ ∧
    ∀ key, key ≠ r.id → b'.cache.entries.get? key = b.cache.entries.get? key
  /-- Until then the cache answers with the record. -/
  live : ∀ moment, c.Keeps r moment → ∀ now, now < moment → b'.cache.peek now r.id = some r
  missed : (∀ moment, ¬ c.Keeps r moment) → b'.cache = b.cache

namespace Service

variable {s : Service} {c : Conditions} {b b₁ : Backend} {request : Request}
  {change : DomainEvent} {r : Record}

/-- What the store has committed is what was asked for, and nothing else has changed yet. -/
theorem yields_of_commits (puts : request.Puts) (h : s.Commits c b request change b₁)
    (keeps : change.record? = some r) :
    request.Yields c b.store change ∧
      (∀ key, b₁.store.find key = if key = r.id then .ok r else b.store.find key) ∧
      b₁.cache = b.cache ∧ b₁.journal = b.journal := by
  cases h with
  | @creates candidate stored b₁ valid inserted =>
    cases keeps
    obtain ⟨store, hcreate, rfl⟩ := Conditions.ports_insert inserted
    obtain ⟨habsent, rfl, hfind⟩ := Store.create_eq_ok hcreate
    cases puts with
    | create id input made => exact ⟨.creates habsent, hfind, rfl, rfl⟩
  | @updates id merger previous merged stored b₁ target loaded merge same valid replaced =>
    cases keeps
    have hfound := Conditions.find_ports loaded
    obtain ⟨store, hupdate, rfl⟩ := Conditions.ports_replace replaced
    obtain ⟨old, hold, rfl, hfind⟩ := Store.update_eq_ok hupdate
    rw [same] at hold
    cases hfound.symm.trans hold
    have hid : previous.id = merged.id := (Store.id_of_find hfound).trans same.symm
    have hyields : (Request.update id merger).Yields c b.store _ := .updates hfound merge
    rw [hid] at hyields
    exact ⟨hyields, hfind, rfl, rfl⟩

/-- How the announcement of a change ends when the cache has left `b₂`. -/
inductive Told (c : Conditions) (b₂ : Backend) (change : DomainEvent) (r : Record) :
    Option Outcome → Backend → Prop where
  /-- The cache has broken down. -/
  | broken (missed : ∀ moment, ¬ c.Keeps r moment) : Told c b₂ change r none b₂
  | refused {e : EventError} (refuses : c.refuses (.publish change) = some e) :
      Told c b₂ change r (some (.error (.ofPublish change.operation r.id e))) b₂
  | published (taken : c.refuses (.publish change) = none) :
      Told c b₂ change r (some (.ok (.record r)))
        { b₂ with journal := b₂.journal.append (c.envelope change) }

/-- First the cache is told, and then the event bus, if the cache has replied. -/
theorem told_announce (keeps : change.record? = some r) (loud : c.Loud) :
    Told c (c.ports b₁ (.writeCache (.keep r))).2 change r
      (announce c.ports b₁ change).outcome (announce c.ports b₁ change).state := by
  rcases hwrote : c.ports b₁ (.writeCache (.keep r)) with ⟨_ | written, b₂⟩
  · rw [announce_of_broken keeps hwrote]
    refine .broken fun moment taken => ?_
    obtain ⟨_, -, hports⟩ | ⟨hnot, -⟩ := c.ports_keep_cases b₁ r
    · cases hwrote.symm.trans hports
    · exact hnot moment taken
  · cases hrefuses : c.refuses (.publish change) with
    | some e =>
      rw [announce_of_replies keeps hwrote (Conditions.ports_of_refused hrefuses),
        (DomainEvent.conclude_of_record? keeps _ _).1, DomainEvent.verdict_of_record? keeps]
      exact .refused hrefuses
    | none =>
      rw [announce_of_replies keeps hwrote (Conditions.ports_publish hrefuses loud),
        (DomainEvent.conclude_of_record? keeps _ _).1, DomainEvent.verdict_of_record? keeps]
      exact .published hrefuses

/-- When the cache has been told of the record of a change, it shows the record, too, if it has
taken it. -/
theorem shows_keep
    (found : ∀ key, b₁.store.find key = if key = r.id then .ok r else b.store.find key)
    (cache : b₁.cache = b.cache) :
    b.Shows c (c.ports b₁ (.writeCache (.keep r))).2 r ∧
      (c.ports b₁ (.writeCache (.keep r))).2.journal = b₁.journal := by
  obtain ⟨moment, hkeeps, hports⟩ | ⟨hnot, reply, -, hports⟩ := c.ports_keep_cases b₁ r
  all_goals rw [hports]
  · have hmoment (moment' : Timestamp) (h : c.Keeps r moment') : moment' = moment :=
      Except.ok.inj (h.2.symm.trans hkeeps.2)
    refine ⟨⟨found, fun moment' h => ?_, fun moment' h now hlive => ?_, fun hnot => ?_⟩, rfl⟩
    · rw [hmoment moment' h]
      exact ⟨Table.get?_insert_self .., fun key hkey => by simp [hkey, cache]⟩
    · rw [hmoment moment' h] at hlive
      simp [Cache.peek, CacheEntry.isLive, hlive]
    · exact absurd hkeeps (hnot moment)
  · exact ⟨⟨found, fun moment h => absurd h (hnot moment), fun moment h => absurd h (hnot moment),
      fun _ => cache⟩, rfl⟩

/-- What a committed change leaves: the record is shown, and what is told of it is told of nothing
else. -/
theorem told_of_commits (puts : request.Puts) (h : s.Commits c b request change b₁)
    (keeps : change.record? = some r) (loud : c.Loud) :
    ∃ b₂, request.Yields c b.store change ∧ b.Shows c b₂ r ∧ b₂.journal = b.journal ∧
      Told c b₂ change r (s.run c.ports b request).outcome (s.run c.ports b request).state := by
  obtain ⟨hyields, hfind, hcache, hjournal⟩ := yields_of_commits puts h keeps
  obtain ⟨hshows, hquiet⟩ := shows_keep (c := c) hfind hcache
  refine ⟨_, hyields, hshows, hquiet.trans hjournal, ?_⟩
  rw [run_of_commits h]
  exact told_announce keeps loud

/-- If the cache takes the record, the request ends as its publication does. -/
theorem outcome_of_keeps (h : s.Commits c b request change b₁) (keeps : change.record? = some r)
    (loud : c.Loud) {moment : Timestamp}
    (taken : c.Keeps r moment) :
    (s.run c.ports b request).outcome = match c.refuses (.publish change) with
      | none => some (.ok (.record r))
      | some e => some (.error (.ofPublish change.operation r.id e)) := by
  have htold : Told c (c.ports b₁ (.writeCache (.keep r))).2 change r _ _ :=
    told_announce keeps loud
  rw [run_of_commits h]
  generalize (announce c.ports b₁ change).outcome = ending at htold ⊢
  generalize (announce c.ports b₁ change).state = after at htold
  cases htold with
  | broken missed => exact absurd taken (missed moment)
  | refused refuses => rw [refuses]
  | published taken => rw [taken]

/-- A record that is returned is shown, and published last. -/
theorem shown_of_returned (puts : request.Puts) (loud : c.Loud)
    (returned : (s.run c.ports b request).outcome = some (.ok (.record r))) :
    ∃ change, change.record? = some r ∧ request.Yields c b.store change ∧
      b.Shows c (s.run c.ports b request).state r ∧
      (s.run c.ports b request).state.journal.events =
        b.journal.events ++ [c.envelope change] := by
  have hwrite : request.IsWrite := by cases puts <;> trivial
  obtain ⟨change, b₁, hcommits⟩ | ⟨e, hfails, -⟩ := s.commits_or_fails c b hwrite
  · obtain ⟨x, hx⟩ := record?_of_commits hcommits
    obtain ⟨b₂, hyields, hshows, hjournal, htold⟩ := told_of_commits puts hcommits hx loud
    rw [returned] at htold
    generalize (s.run c.ports b request).state = b' at htold ⊢
    cases htold with
    | published taken =>
      refine ⟨change, hx, hyields, ⟨hshows.found, hshows.kept, hshows.live, hshows.missed⟩, ?_⟩
      simp only [Journal.append, hjournal]
  · cases returned.symm.trans hfails

/-- A record whose publication is refused is shown, too, but it is not returned. -/
theorem shown_of_refused (puts : request.Puts) (loud : c.Loud)
    (h : s.Commits c b request change b₁) (keeps : change.record? = some r) {e : EventError}
    (refuses : c.refuses (.publish change) = some e) :
    request.Yields c b.store change ∧ b.Shows c (s.run c.ports b request).state r ∧
      (s.run c.ports b request).state.journal = b.journal ∧
      ∀ outcome, (s.run c.ports b request).outcome = some outcome →
        outcome = .error (.ofPublish change.operation r.id e) := by
  obtain ⟨b₂, hyields, hshows, hjournal, htold⟩ := told_of_commits puts h keeps loud
  generalize (s.run c.ports b request).state = b' at htold ⊢
  generalize (s.run c.ports b request).outcome = ending at htold ⊢
  cases htold with
  | broken missed => exact ⟨hyields, hshows, hjournal, by simp⟩
  | refused refuses' =>
    cases refuses.symm.trans refuses'
    refine ⟨hyields, hshows, hjournal, ?_⟩
    rintro _ ⟨⟩
    rfl
  | published taken => cases refuses.symm.trans taken

/-- A caller hears that a change has not been propagated only when its publication was refused. -/
theorem refused_of_unpropagated (puts : request.Puts) (loud : c.Loud) {op : Operation}
    {id : RecordId} {e : EventError}
    (failed : (s.run c.ports b request).outcome = some (.error (.propagation op id e))) :
    ∃ change b₁ r, s.Commits c b request change b₁ ∧ change.record? = some r ∧
      c.refuses (.publish change) = some e ∧ op = change.operation ∧ id = r.id := by
  have hwrite : request.IsWrite := by cases puts <;> trivial
  obtain ⟨change, b₁, hcommits⟩ | ⟨e', hfails, huncommitted, -⟩ := s.commits_or_fails c b hwrite
  · obtain ⟨x, hx⟩ := record?_of_commits hcommits
    obtain ⟨b₂, -, -, -, htold⟩ := told_of_commits puts hcommits hx loud
    generalize (s.run c.ports b request).state = b' at htold
    generalize (s.run c.ports b request).outcome = ending at htold failed
    cases htold with
    | broken missed => cases failed
    | @refused e' refuses =>
      have heq := Except.error.inj (Option.some.inj failed)
      cases e' with
      | interrupted cause => cases heq
      | backend message =>
        cases heq
        exact ⟨change, b₁, x, hcommits, hx, refuses, rfl, rfl⟩
    | published taken => cases failed
  · cases failed.symm.trans hfails
    cases huncommitted

/-- When a creation or an update returns a record, it is the one that was asked for.  The store
holds it, the cache holds it if it has taken it, and the journal has grown by the one event that
tells of it.  When the store has committed the change but its publication fails, all of this holds
but for the event, and the request does not return the record.  Only then does a caller hear that
the change has not been propagated. -/
theorem views_agree (s : Service) (c : Conditions) (b : Backend) {request : Request}
    (puts : request.Puts) (loud : c.Loud) :
    let run := s.run c.ports b request
    (∀ r, run.outcome = some (.ok (.record r)) → ∃ change, change.record? = some r ∧
      request.Yields c b.store change ∧ b.Shows c run.state r ∧
      run.state.journal.events = b.journal.events ++ [c.envelope change]) ∧
    (∀ change b₁ r e, s.Commits c b request change b₁ → change.record? = some r →
      c.refuses (.publish change) = some e →
      request.Yields c b.store change ∧ b.Shows c run.state r ∧ run.state.journal = b.journal ∧
        ∀ outcome, run.outcome = some outcome →
          outcome = .error (.ofPublish change.operation r.id e)) ∧
    ∀ op id e, run.outcome = some (.error (.propagation op id e)) → ∃ change b₁ r,
      s.Commits c b request change b₁ ∧ change.record? = some r ∧
        c.refuses (.publish change) = some e ∧ op = change.operation ∧ id = r.id := by
  intro run
  exact ⟨fun r returned => shown_of_returned puts loud returned,
    fun change b₁ r e committed keeps refuses => shown_of_refused puts loud committed keeps refuses,
    fun op id e failed => refused_of_unpropagated puts loud failed⟩

/-- What a caller wants to be stored. -/
def oldInput : NewRecord :=
  ⟨"old", 0, .ofRank false 0, []⟩

/-- A merger that meddles with the times. -/
def meddling : Merger where
  target := .ofNat 5
  merge r := .ok { r with label := "new", createdAt := .minute 9, updatedAt := none }

/-- What becomes of the record in an update for which the clock of the store has gone back. -/
def renamed : Record :=
  { Record.draft 3 with label := "new", updatedAt := some (.minute 3) }

/-- A store that holds the record. -/
def holdingDraft : Backend where
  store := (({} : Store).put (.ofNat 5) ⟨"old", 0, .ofRank false 0, .minute 3, none⟩ []).2

/-- A creation that everyone is told of, and an update that is not published. -/
theorem views_agree_on_draft :
    let create := Request.create (.ofNew (.ofNat 5) oldInput (.minute 2))
    let update := Request.update (.ofNat 5) meddling
    let told := (atTime (.minute 3) (60 * nanosPerSecond) create).conditions
    let untold := (atTime (.minute 2) (60 * nanosPerSecond) update fun
      | .publish _ => some (.backend "full")
      | _ => none).conditions
    let created := Service.run {} told.ports {} create
    let updated := Service.run {} untold.ports holdingDraft update
    created.outcome = some (.ok (.record (.draft 3))) ∧
      created.state.journal.events.map (·.event.record?) = [some (.draft 3)] ∧
      created.state.store.find (.ofNat 5) = .ok (.draft 3) ∧
      created.state.cache.peek (.minute 3) (.ofNat 5) = some (.draft 3) ∧
      updated.outcome = some (.error (.propagation .update (.ofNat 5) (.backend "full"))) ∧
      updated.state.store.find (.ofNat 5) = .ok renamed ∧
      updated.state.cache.peek (.minute 2) (.ofNat 5) = some renamed ∧
      updated.state.journal = {} := by
  intro create update told untold created updated
  have hcreates : Service.Commits {} told {} create (.created (.draft 3)) _ := .creates rfl rfl
  have hupdates : Service.Commits {} untold holdingDraft update (.updated renamed) _ :=
    .updates rfl rfl rfl rfl rfl rfl
  have hexpiry : Cache.expiry (.minute 3) (60 * nanosPerSecond) = .ok (.minute 4) := by rfl
  have hexpiry' : Cache.expiry (.minute 2) (60 * nanosPerSecond) = .ok (.minute 3) := by rfl
  have hkept : told.Keeps (.draft 3) (.minute 4) := ⟨rfl, hexpiry⟩
  have hkept' : untold.Keeps renamed (.minute 3) := ⟨rfl, hexpiry'⟩
  have hreturned : created.outcome = some (.ok (.record (.draft 3))) :=
    outcome_of_keeps hcreates rfl (fun _ => rfl) hkept
  have hfailed : updated.outcome =
      some (.error (.propagation .update (.ofNat 5) (.backend "full"))) :=
    outcome_of_keeps hupdates rfl (fun _ => rfl) hkept'
  obtain ⟨hcreated, -⟩ := views_agree {} told {} (.create (.ofNat 5) oldInput (.minute 2))
    (fun _ => rfl)
  obtain ⟨-, hupdated, -⟩ := views_agree {} untold holdingDraft (.update (.ofNat 5) meddling)
    (fun _ => rfl)
  obtain ⟨change, hchange, hyields, hshows, hjournal⟩ := hcreated _ hreturned
  obtain ⟨-, hshows', hjournal', -⟩ := hupdated _ _ _ _ hupdates rfl rfl
  refine ⟨hreturned, ?_, hshows.found _, hshows.live _ hkept _ (by decide), hfailed,
    hshows'.found _, hshows'.live _ hkept' _ (by decide), hjournal'⟩
  rw [hjournal]
  simp [Conditions.envelope, hchange]

end Service

end CacheAside
