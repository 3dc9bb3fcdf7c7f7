import CacheAside.Proofs.Interleaving.Stride
import CacheAside.Proofs.Transparency

/-!
# How old a record from the cache can be

When writes to the cache fail, it keeps records that the store has long replaced or dropped.  No
entry is made, though, unless the store holds its record at that moment, and from that moment on the
entry lives no longer than its time to live.  So a read answers with what the store holds, or with
what the store held when the clock of the cache showed a time less than one life of an entry ago
(`Service.read_is_recent`).

The history that this speaks of is kept by ports that watch the backend (`Conditions.watching`):
they note what the store holds whenever the clock of the cache is read, and answer as before.
-/

namespace CacheAside

/-! ## Ports that remember more -/

/-- Ports over a larger memory do the same as others over the part that `view` shows of it. -/
def Ports.Extends {σ τ : Type} (ports : Ports σ) (view : σ → τ) (plain : Ports τ) : Prop :=
  ∀ state call, plain (view state) call = ((ports state call).1, view (ports state call).2)

/-- What comes of a request, as far as `view` shows it. -/
def Run.map {σ τ : Type} (view : σ → τ) (run : Run σ) : Run τ :=
  { run with state := view run.state }

namespace Service

variable {σ τ : Type} {ports : Ports σ} {view : σ → τ} {plain : Ports τ}

theorem announce_extends (h : ports.Extends view plain) (state : σ) (change : DomainEvent) :
    announce plain (view state) change = (announce ports state change).map view := by
  unfold announce
  rw [h state]
  rcases ports state (.writeCache change.cacheWrite) with ⟨_ | written, state'⟩
  · rfl
  · simp only [h state']
    rcases ports state' (.publish change) with ⟨_ | published, state''⟩ <;> rfl

theorem follow_extends (s : Service) (h : ports.Extends view plain) (state : σ) (stage : Stage) :
    s.follow plain (view state) stage = (s.follow ports state stage).map view := by
  induction state, stage using follow.induct s ports with
  | case1 state ask state' hports =>
    rw [follow, follow, h state, hports]
    rfl
  | case2 state ask reply state' hports _ ih =>
    have hplain : plain (view state) ask.call = (some reply, view state') := by rw [h state, hports]
    rw [follow_asking hports, follow_asking hplain, ih]
    rfl
  | case3 state change =>
    rw [follow, follow]
    exact announce_extends h state change
  | case4 state change =>
    rw [follow, follow]
    exact announce_extends h state change
  | case5 state outcome => simp [Run.map]

/-- Fills the cache with some records after a run. -/
def fillAll {σ : Type} (ports : Ports σ) (run : Run σ) (records : List Record) : Run σ :=
  records.foldl (fun run r =>
    { run with
      notes := run.notes ++ (fill ports run.state r).1
      state := (fill ports run.state r).2 }) run

theorem fillAll_cons {σ : Type} (ports : Ports σ) (run : Run σ) (r : Record)
    (records : List Record) :
    fillAll ports run (r :: records) =
      fillAll ports ⟨run.outcome, run.notes ++ (fill ports run.state r).1,
        (fill ports run.state r).2⟩ records := rfl

theorem runWithRefreshes_eq {σ : Type} (s : Service) (ports : Ports σ) (state : σ)
    (request : Request) :
    s.runWithRefreshes ports state request =
      fillAll ports (s.run ports state request) (s.run ports state request).refreshes := rfl

theorem fillAll_extends (h : ports.Extends view plain) (run : Run σ) (records : List Record) :
    fillAll plain (run.map view) records = (fillAll ports run records).map view := by
  induction records generalizing run with
  | nil => rfl
  | cons r records ih =>
    rw [fillAll_cons, fillAll_cons, ← ih]
    congr 1
    simp only [fill, Run.map, h run.state]
    rcases ports run.state (.writeCache (.keep r)) with ⟨_ | reply, state⟩ <;> rfl

/-- A request and its refreshes make nothing of what the ports remember besides. -/
theorem runWithRefreshes_extends (s : Service) (h : ports.Extends view plain) (state : σ)
    (request : Request) :
    s.runWithRefreshes plain (view state) request =
      (s.runWithRefreshes ports state request).map view := by
  have hrun : s.run plain (view state) request = (s.run ports state request).map view :=
    s.follow_extends h state _
  rw [runWithRefreshes_eq, runWithRefreshes_eq, hrun]
  exact fillAll_extends h _ _

end Service

/-! ## What the store held -/

/-- What the store held when the clock of the cache was read. -/
structure Reading where
  store : Store
  now : Timestamp

/-- A backend, with all readings of the clock of its cache. -/
structure Watched where
  backend : Backend
  readings : List Reading := []

namespace Conditions

/-- The clock of the cache is read for a call of the cache that is not refused. -/
def readings (c : Conditions) (b : Backend) (call : PortCall) : List Reading :=
  if call.isUncached || (c.refuses call).isSome then []
  else [⟨b.store, (c.circumstances call).now⟩]

/-- The ports in memory, with the readings of all calls. -/
def watching (c : Conditions) : Ports Watched := fun w call =>
  let (reply, backend) := c.ports w.backend call
  (reply, ⟨backend, w.readings ++ c.readings w.backend call⟩)

theorem watching_extends (c : Conditions) : c.watching.Extends Watched.backend c.ports :=
  fun _ _ => rfl

end Conditions

/-- The entries live for `ttl` nanoseconds, whichever call makes them. -/
def Conditions.LivesFor (ttl : Nat) (c : Conditions) : Prop :=
  ∀ call, (c.circumstances call).ttl = ttl

/-- Each entry of the cache was made by a reading at which the store held its record. -/
def Watched.Backed (ttl : Nat) (w : Watched) : Prop :=
  ∀ id e, w.backend.cache.entries.get? id = some e →
    ∃ m ∈ w.readings, m.store.find id = .ok e.record ∧ Cache.expiry m.now ttl = .ok e.expiresAt

/-- The record that the call is to put into the cache is the one in the store. -/
def PortCall.IsTrue (store : Store) (call : PortCall) : Prop :=
  ∀ r, call = .writeCache (.keep r) → store.find r.id = .ok r

theorem PortCall.isTrue_of_ne {store : Store} {call : PortCall}
    (h : ∀ write, call ≠ .writeCache write) : call.IsTrue store :=
  fun r hr => absurd hr (h (.keep r))

/-- What the stage has to tell the cache is what the store holds. -/
def Stage.IsTrue (store : Store) : Stage → Prop
  | .asking ask => ask.call.IsTrue store
  | .settling change => store.find change.recordId = change.found
  | .announcing change => store.find change.recordId = change.found
  | .finished _ => True

/-- What is news of a change to the cache is what the store holds after it. -/
theorem DomainEvent.isTrue_cacheWrite {change : DomainEvent} {store : Store}
    (h : store.find change.recordId = change.found) :
    (PortCall.writeCache change.cacheWrite).IsTrue store := by
  intro r hr
  cases change with
  | created x =>
    cases hr
    exact h
  | updated x =>
    cases hr
    exact h
  | deleted id => cases hr

namespace Conditions

variable {c : Conditions} {ttl : Nat} {w : Watched}

/-- A call makes no entry but of a record that the store holds. -/
theorem backed_watching (hc : c.LivesFor ttl) (h : w.Backed ttl) {call : PortCall}
    (htrue : call.IsTrue w.backend.store) : (c.watching w call).2.Backed ttl := by
  have hold (id : RecordId) (e : CacheEntry) (he : w.backend.cache.entries.get? id = some e) :
      ∃ m ∈ w.readings ++ c.readings w.backend call,
        m.store.find id = .ok e.record ∧ Cache.expiry m.now ttl = .ok e.expiresAt := by
    obtain ⟨m, hm, hfind⟩ := h id e he
    exact ⟨m, List.mem_append_left _ hm, hfind⟩
  intro id e he
  cases hrefuses : c.refuses call with
  | some failure =>
    simp only [watching, ports_of_refused hrefuses] at he
    exact hold id e he
  | none =>
    simp only [watching, ports_of_not_refused hrefuses] at he
    obtain hthere | ⟨r, rfl, rfl, rfl, hexpiry⟩ := Backend.entry_serve he
    · exact hold id e hthere
    · refine ⟨⟨w.backend.store, (c.circumstances _).now⟩, ?_, htrue _ rfl, hc _ ▸ hexpiry⟩
      simp [watching, readings, PortCall.isUncached, hrefuses]

/-- A call that is to change nothing leaves the store as it is. -/
theorem store_ports {b b' : Backend} {call : PortCall} {reply : Option call.Reply}
    (h : c.ports b call = (reply, b')) (hnone : ∀ r, reply = some r → call.change? r = none) :
    b'.store = b.store := by
  cases hrefuses : c.refuses call with
  | some e =>
    cases (ports_of_refused hrefuses).symm.trans h
    rfl
  | none =>
    obtain ⟨rfl, rfl⟩ := Prod.mk.inj ((ports_of_not_refused hrefuses).symm.trans h)
    exact Backend.store_serve hnone

/-- What the store answers is what it holds. -/
theorem find_ports {b b' : Backend} {id : RecordId} {r : Record}
    (h : c.ports b (.find id) = (some (.ok r), b')) : b'.store.find id = .ok r := by
  cases hrefuses : c.refuses (.find id) with
  | some e => cases (ports_of_refused hrefuses).symm.trans h
  | none =>
    obtain ⟨hreply, rfl⟩ := Prod.mk.inj ((ports_of_not_refused hrefuses).symm.trans h)
    exact Option.some.inj hreply

/-- What the cache answers is the record of an entry that counts. -/
theorem lookUp_ports {b b' : Backend} {id : RecordId} {r : Record}
    (h : c.ports b (.lookUp id) = (some (.ok (some r)), b')) :
    ∃ e, b.cache.entries.get? id = some e ∧ e.record = r ∧
      (c.circumstances (.lookUp id)).now < e.expiresAt := by
  cases hrefuses : c.refuses (.lookUp id) with
  | some e => cases (ports_of_refused hrefuses).symm.trans h
  | none =>
    obtain ⟨hreply, -⟩ := Prod.mk.inj ((ports_of_not_refused hrefuses).symm.trans h)
    exact Cache.get_eq_some (Except.ok.inj (Option.some.inj hreply))

/-- After a change the store answers as the change says. -/
theorem found_ports {b b' : Backend} {call : PortCall} {reply : call.Reply} {change : DomainEvent}
    (h : c.ports b call = (some reply, b')) (hchange : call.change? reply = some change) :
    b'.store.find change.recordId = change.found := by
  cases hrefuses : c.refuses call with
  | some e =>
    cases (ports_of_refused hrefuses).symm.trans h
    simp at hchange
  | none =>
    obtain ⟨hreply, rfl⟩ := Prod.mk.inj ((ports_of_not_refused hrefuses).symm.trans h)
    rw [Backend.find_serve hreply hchange, if_pos rfl]

end Conditions

/-- What a run leaves: all entries are backed, and the records that are still to be put into the
cache are those of the store. -/
structure Run.LeavesBacked (ttl : Nat) (run : Run Watched) : Prop where
  backed : run.state.Backed ttl
  refreshes : ∀ r ∈ run.refreshes, run.state.backend.store.find r.id = .ok r

namespace Service

variable {s : Service} {c : Conditions} {ttl : Nat} {w : Watched}

/-- A change is settled or announced when the store has made it. -/
theorem change_of_resume {ask : Ask} {reply : ask.call.Reply} {change : DomainEvent}
    (h : (s.resume ask reply).2 = .settling change ∨ (s.resume ask reply).2 = .announcing change) :
    ask.call.change? reply = some change := by
  cases ask with
  | listing page => cases reply <;> simp [resume] at h
  | lookingUp id => rcases reply with (_ | _) | (_ | _) <;> simp [resume] at h
  | fetching id =>
    cases reply with
    | ok r =>
      simp only [resume, refill] at h
      split at h <;> simp at h
    | error e => simp [resume] at h
  | refilling r => simp [resume] at h
  | inserting candidate => cases reply <;> simp_all [resume, Ask.call, PortCall.change?]
  | loading id merger =>
    cases reply with
    | ok stored =>
      obtain ⟨new, -, -, hnext⟩ | ⟨outcome, hnext⟩ := s.merged_spec id merger stored <;>
        simp [resume, hnext] at h
    | error e => simp [resume] at h
  | replacing merged => cases reply <;> simp_all [resume, Ask.call, PortCall.change?]
  | removing id =>
    cases reply with
    | ok done =>
      rcases h with h | h <;> cases h
      rfl
    | error e => simp [resume] at h

/-- After a reply, what the next stage tells the cache is what the store holds. -/
theorem isTrue_resume {b b' : Backend} {ask : Ask} {reply : ask.call.Reply}
    (h : c.ports b ask.call = (some reply, b')) : (s.resume ask reply).2.IsTrue b'.store := by
  cases hnext : (s.resume ask reply).2 with
  | finished outcome => trivial
  | asking ask' =>
    cases follows_of_resume hnext with
    | fetches => exact PortCall.isTrue_of_ne (by simp [Ask.call])
    | replaces same checked => exact PortCall.isTrue_of_ne (by simp [Ask.call])
    | refills inlined =>
      intro x hx
      cases hx
      have hfound := Conditions.find_ports h
      exact (Store.id_of_find hfound).symm ▸ hfound
  | settling change => exact Conditions.found_ports h (change_of_resume (.inl hnext))
  | announcing change => exact Conditions.found_ports h (change_of_resume (.inr hnext))

/-- A record is put aside for the background only by a read that has found it and ends. -/
theorem refresh_resume {b b' : Backend} {ask : Ask} {reply : ask.call.Reply} {r : Record}
    (h : c.ports b ask.call = (some reply, b')) (hr : .refresh r ∈ (s.resume ask reply).1) :
    (s.resume ask reply).2 = .finished (.ok (.record r)) ∧ b'.store.find r.id = .ok r := by
  by_cases hfetching : ∃ id, ask = .fetching id
  · obtain ⟨id, rfl⟩ := hfetching
    cases reply with
    | ok x =>
      simp only [resume, refill] at hr ⊢
      split at hr
      · cases hr
      · cases List.mem_singleton.mp hr
        have hfound := Conditions.find_ports h
        exact ⟨rfl, (Store.id_of_find hfound).symm ▸ hfound⟩
    | error e => cases hr
  · exact (s.quiet_resume ask reply (fun id hid => hfetching ⟨id, hid⟩) _ hr).elim

end Service

theorem Run.mem_refreshes {σ : Type} {run : Run σ} {r : Record} :
    r ∈ run.refreshes ↔ .refresh r ∈ run.notes := by
  unfold refreshes
  rw [List.mem_filterMap]
  constructor
  · rintro ⟨note, hnote, hr⟩
    cases note with
    | refresh x =>
      cases hr
      exact hnote
    | said remark => cases hr
    | swallowed failure => cases hr
  · exact fun h => ⟨_, h, rfl⟩

/-- A run that starts no refresh leaves none. -/
theorem Run.refreshes_of_quiet {σ : Type} {run : Run σ} (h : ∀ n ∈ run.notes, n.IsQuiet)
    (r : Record) : r ∉ run.refreshes :=
  fun hr => h _ (Run.mem_refreshes.mp hr)

namespace Service

variable {s : Service} {c : Conditions} {ttl : Nat} {w : Watched}

/-- An announcement starts no refresh. -/
theorem quiet_announce {σ : Type} (ports : Ports σ) (state : σ) (change : DomainEvent) :
    ∀ n ∈ (announce ports state change).notes, n.IsQuiet := by
  unfold announce
  split
  · simp
  · rename_i written _ _
    split
    · exact change.quiet_cacheNotes written
    · rename_i published _ _
      exact List.forall_mem_append.mpr
        ⟨change.quiet_cacheNotes written, change.quiet_conclude written published⟩

/-- A change that the store has made is announced. -/
theorem leavesBacked_announce (hc : c.LivesFor ttl) (h : w.Backed ttl) {change : DomainEvent}
    (hfound : w.backend.store.find change.recordId = change.found) :
    (announce c.watching w change).LeavesBacked ttl := by
  have hwritten := Conditions.backed_watching hc h (DomainEvent.isTrue_cacheWrite hfound)
  refine ⟨?_, fun r hr => absurd hr (Run.refreshes_of_quiet (quiet_announce _ _ _) r)⟩
  unfold announce
  split
  · rename_i w₁ hcache
    rw [hcache] at hwritten
    exact hwritten
  · rename_i written w₁ hcache
    rw [hcache] at hwritten
    have htrue : (PortCall.publish change).IsTrue w₁.backend.store :=
      PortCall.isTrue_of_ne (by simp)
    have hpublished := Conditions.backed_watching hc hwritten htrue
    split
    · rename_i w₂ hbus
      rw [hbus] at hpublished
      exact hpublished
    · rename_i published w₂ hbus
      rw [hbus] at hpublished
      exact hpublished

/-- From a stage whose news are true, a request makes only entries that are backed. -/
theorem leavesBacked_follow (hc : c.LivesFor ttl) {stage : Stage} (h : w.Backed ttl)
    (hstage : stage.IsTrue w.backend.store) : (s.follow c.watching w stage).LeavesBacked ttl := by
  induction w, stage using follow.induct s c.watching with
  | case1 w ask w' hports =>
    have hbacked := Conditions.backed_watching hc h hstage
    rw [follow, hports]
    rw [hports] at hbacked
    exact ⟨hbacked, by simp [Run.mem_refreshes]⟩
  | case2 w ask reply w' hports _ ih =>
    have hbacked := Conditions.backed_watching hc h hstage
    rw [hports] at hbacked
    have hplain : c.ports w.backend ask.call = (some reply, w'.backend) := by
      rw [c.watching_extends, hports]
    obtain ⟨hleft, hlater⟩ := ih hbacked (isTrue_resume hplain)
    rw [follow_asking hports]
    refine ⟨hleft, fun r hr => ?_⟩
    rcases List.mem_append.mp (Run.mem_refreshes.mp hr) with hnow | hrest
    · obtain ⟨hnext, hfound⟩ := refresh_resume hplain hnow
      rw [hnext, follow_finished]
      exact hfound
    · exact hlater r (Run.mem_refreshes.mpr hrest)
  | case3 w change => rw [follow]; exact leavesBacked_announce hc h hstage
  | case4 w change => rw [follow]; exact leavesBacked_announce hc h hstage
  | case5 w outcome => rw [follow_finished]; exact ⟨h, by simp [Run.mem_refreshes]⟩

/-- The first stage of a request has no news. -/
theorem isTrue_begin (request : Request) (store : Store) : (s.begin request).IsTrue store := by
  cases request with
  | create candidate =>
    obtain ⟨-, hstage⟩ | ⟨outcome, hstage⟩ :=
      s.accept_spec candidate (.asking (.inserting candidate))
    · rw [begin, hstage]
      exact PortCall.isTrue_of_ne (by simp [Ask.call])
    · rw [begin, hstage]
      trivial
  | update id merger =>
    simp only [begin]
    split
    · exact PortCall.isTrue_of_ne (by simp [Ask.call])
    · trivial
  | list page => exact PortCall.isTrue_of_ne (by simp [Ask.call])
  | get id => exact PortCall.isTrue_of_ne (by simp [Ask.call])
  | delete id => exact PortCall.isTrue_of_ne (by simp [Ask.call])

/-- What a fill of the cache leaves. -/
theorem fill_snd {σ : Type} (ports : Ports σ) (state : σ) (r : Record) :
    (fill ports state r).2 = (ports state (.writeCache (.keep r))).2 := by
  unfold fill
  split <;> simp_all

/-- To fill the cache with records of the store makes only entries that are backed. -/
theorem backed_fillAll (hc : c.LivesFor ttl) {run : Run Watched} {records : List Record}
    (hrun : run.state.Backed ttl)
    (hrecords : ∀ r ∈ records, run.state.backend.store.find r.id = .ok r) :
    (fillAll c.watching run records).state.Backed ttl := by
  induction records generalizing run with
  | nil => exact hrun
  | cons r records ih =>
    obtain ⟨hr, hrest⟩ := List.forall_mem_cons.mp hrecords
    have hstore : (c.ports run.state.backend (.writeCache (.keep r))).2.store =
        run.state.backend.store := Conditions.store_ports rfl fun _ _ => rfl
    rw [fillAll_cons, fill_snd]
    refine ih ?_ fun x hx => hstore ▸ hrest x hx
    exact Conditions.backed_watching hc hrun fun x hx => by cases hx; exact hr

/-- A request and its refreshes make only entries that are backed. -/
theorem backed_runWithRefreshes (hc : c.LivesFor ttl) (h : w.Backed ttl) (request : Request) :
    (s.runWithRefreshes c.watching w request).state.Backed ttl := by
  obtain ⟨hbacked, hrefreshes⟩ := leavesBacked_follow (s := s) hc h (isTrue_begin request _)
  exact backed_fillAll hc hbacked hrefreshes

/-! ## Reads after any requests -/

/-- What a sequence of requests leaves, each with its refreshes. -/
def leaves {σ : Type} (s : Service) (ports : Conditions → Ports σ) (state : σ)
    (turns : List Turn) : σ :=
  turns.foldl (fun state t => (s.runWithRefreshes (ports t.conditions) state t.request).state) state

/-- All readings of the clock of the cache in a sequence of requests. -/
def readings (s : Service) (b : Backend) (turns : List Turn) : List Reading :=
  (s.leaves Conditions.watching ⟨b, []⟩ turns).readings

theorem backend_leaves (s : Service) (w : Watched) (turns : List Turn) :
    (s.leaves Conditions.watching w turns).backend = s.leaves Conditions.ports w.backend turns := by
  induction turns generalizing w with
  | nil => rfl
  | cons t turns ih =>
    have hfirst := s.runWithRefreshes_extends t.conditions.watching_extends w t.request
    simp only [leaves, List.foldl_cons] at ih ⊢
    rw [ih, hfirst]
    rfl

theorem backed_leaves {turns : List Turn} (hturns : ∀ t ∈ turns, t.conditions.LivesFor ttl)
    (h : w.Backed ttl) : (s.leaves Conditions.watching w turns).Backed ttl := by
  induction turns generalizing w with
  | nil => exact h
  | cons t turns ih =>
    obtain ⟨ht, hrest⟩ := List.forall_mem_cons.mp hturns
    exact ih hrest (backed_runWithRefreshes ht h t.request)

/-- Fills of the cache leave the outcome of a run and the store as they are. -/
theorem fillAll_spec (run : Run Backend) (records : List Record) :
    (fillAll c.ports run records).outcome = run.outcome ∧
      (fillAll c.ports run records).state.store = run.state.store := by
  induction records generalizing run with
  | nil => exact ⟨rfl, rfl⟩
  | cons r records ih =>
    rw [fillAll_cons, fill_snd]
    obtain ⟨houtcome, hstore⟩ := ih ⟨run.outcome, run.notes ++ (fill c.ports run.state r).1,
      (c.ports run.state (.writeCache (.keep r))).2⟩
    exact ⟨houtcome, hstore.trans (Conditions.store_ports rfl fun _ _ => rfl)⟩

/-- A read that has to go to the store gives out what the store holds. -/
theorem source_of_fetch {b : Backend} {id : RecordId} {r : Record}
    (h : (s.follow c.ports b (.asking (.fetching id))).outcome = some (.ok (.record r))) :
    (s.follow c.ports b (.asking (.fetching id))).state.store.find id = .ok r := by
  rcases hports : c.ports b (.find id) with ⟨_ | reply, b₁⟩
  · rw [follow] at h
    simp only [Ask.call, hports] at h
    cases h
  rw [follow_asking (q := .fetching id) hports] at h ⊢
  cases reply with
  | error e =>
    simp only [resume, follow_finished] at h
    cases h
  | ok x =>
    have hfound := Conditions.find_ports hports
    simp only [resume, refill] at h ⊢
    split at h
    · rcases hfill : c.ports b₁ (.writeCache (.keep x)) with ⟨_ | filled, b₂⟩
      · rw [follow] at h
        simp only [Ask.call, hfill] at h
        cases h
      have hstore := Conditions.store_ports hfill fun _ _ => rfl
      rw [follow_asking (q := .refilling x) hfill] at h ⊢
      simp only [resume, follow_finished] at h ⊢
      cases h
      exact hstore ▸ hfound
    · simp only [follow_finished] at h ⊢
      cases h
      exact hfound

/-- A read gives out a record of which the cache has an entry that counts, or else a record that the
store holds when the read has ended. -/
theorem source_of_get {b : Backend} {id : RecordId} {r : Record}
    (h : (s.runWithRefreshes c.ports b (.get id)).outcome = some (.ok (.record r))) :
    (s.runWithRefreshes c.ports b (.get id)).state.store.find id = .ok r ∨
      ∃ e, b.cache.entries.get? id = some e ∧ e.record = r ∧
        (c.circumstances (.lookUp id)).now < e.expiresAt := by
  rw [runWithRefreshes_eq] at h ⊢
  rw [(fillAll_spec _ _).1, run, begin] at h
  rw [(fillAll_spec _ _).2, run, begin]
  rcases hports : c.ports b (.lookUp id) with ⟨_ | reply, b₁⟩
  · rw [follow] at h
    simp only [Ask.call, hports] at h
    cases h
  rw [follow_asking (q := .lookingUp id) hports] at h ⊢
  cases reply with
  | ok found =>
    cases found with
    | some x =>
      simp only [resume, follow_finished] at h
      cases h
      exact .inr (Conditions.lookUp_ports hports)
    | none => exact .inl (source_of_fetch h)
  | error e =>
    cases e with
    | interrupted cause =>
      simp only [resume, follow_finished] at h
      cases h
    | backend message => exact .inl (source_of_fetch h)

/-- After any requests, whichever calls have failed and whatever the clocks have shown, a read gives
out the record that the store holds, or one that it held when the clock of the cache was read less
than one life of an entry before the time that this clock shows now. -/
theorem read_is_recent {store : Store} {journal : Journal} {turns : List Turn}
    (hturns : ∀ t ∈ turns, t.conditions.LivesFor ttl) {id : RecordId} {r : Record}
    (h : (s.runWithRefreshes c.ports (s.leaves Conditions.ports { store, journal } turns)
      (.get id)).outcome = some (.ok (.record r))) :
    (s.runWithRefreshes c.ports (s.leaves Conditions.ports { store, journal } turns)
        (.get id)).state.store.find id = .ok r ∨
      ∃ m ∈ s.readings { store, journal } turns, m.store.find id = .ok r ∧
        ∃ moment, Cache.expiry m.now ttl = .ok moment ∧
          (c.circumstances (.lookUp id)).now < moment := by
  have hbacked : (s.leaves Conditions.watching ⟨{ store, journal }, []⟩ turns).Backed ttl :=
    backed_leaves hturns fun id e he => by cases he
  refine (source_of_get h).imp_right fun ⟨e, he, hrecord, hlive⟩ => ?_
  rw [← s.backend_leaves ⟨{ store, journal }, []⟩] at he
  obtain ⟨m, hm, hfind, hexpiry⟩ := hbacked id e he
  exact ⟨m, hm, hrecord ▸ hfind, e.expiresAt, hexpiry, hlive⟩

/-- A turn in a minute, with entries of the cache that live for six minutes. -/
def withLongLife (n : Nat) (request : Request)
    (refuses : (call : PortCall) → Option call.Failure := fun _ => none) : Turn :=
  atTime (.minute n) (360 * nanosPerSecond) request refuses

/-- A record is created, and five minutes later it is updated while the cache takes no record. -/
def missedUpdate : List Turn :=
  [withLongLife 3 (.create draft),
    withLongLife 8 (.update draft.id
        (SparsePatch.merger { id := draft.id, label := .present "new" })) fun
      | .writeCache _ => some (.backend "lost")
      | _ => none]

/-- The cache still gives out the record that it was told of when the record was created. -/
theorem read_after_missedUpdate :
    (∀ t ∈ missedUpdate, t.conditions.LivesFor (360 * nanosPerSecond)) ∧
      (inlining.runWithRefreshes (withLongLife 8 (.get draft.id)).conditions.ports
        (inlining.leaves Conditions.ports { store := {}, journal := {} } missedUpdate)
        (.get draft.id)).outcome = some (.ok (.record draft)) ∧
      ∃ m ∈ inlining.readings { store := {}, journal := {} } missedUpdate,
        m.store.find draft.id = .ok draft ∧
          ∃ moment, Cache.expiry m.now (360 * nanosPerSecond) = .ok moment ∧
            Timestamp.minute 8 < moment := by
  have hlives : ∀ t ∈ missedUpdate, t.conditions.LivesFor (360 * nanosPerSecond) := by
    simp only [missedUpdate, List.forall_mem_cons]
    exact ⟨fun _ => rfl, fun _ => rfl, by simp⟩
  have hread : (inlining.runWithRefreshes (withLongLife 8 (.get draft.id)).conditions.ports
      (inlining.leaves Conditions.ports { store := {}, journal := {} } missedUpdate)
      (.get draft.id)).outcome = some (.ok (.record draft)) := by with_unfolding_all rfl
  -- the store has the new record, so the answer can only come from the cache
  have hstore : (inlining.runWithRefreshes (withLongLife 8 (.get draft.id)).conditions.ports
      (inlining.leaves Conditions.ports { store := {}, journal := {} } missedUpdate)
      (.get draft.id)).state.store.find draft.id = .ok relabeled := by with_unfolding_all rfl
  refine ⟨hlives, hread, (read_is_recent hlives hread).resolve_left fun hold => ?_⟩
  have hsame : relabeled = draft := Except.ok.inj (hstore.symm.trans hold)
  exact absurd (congrArg Record.label hsame) (by decide)

end Service

end CacheAside
