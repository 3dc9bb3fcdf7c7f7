import CacheAside.Proofs.Interleaving.Stride

/-!
# The cache agrees with the store

Under background refreshes the cache may hold an older record than the store while a request that
changes the record is under way, but not any longer than that.  This is shown for every
interleaving in which no two requests change the same record at the same time, every call replies
in the moment of its effect, and every update or deletion that the store has carried out goes on
until the cache has been told of it (`Scene.Orderly`).

The invariant (`Scene.Coherent`) says where a record that is not the store's can be: in the cache,
or with a refresh that has been taken off the list, as long as the request that changed the record
still has to tell the cache.
-/

namespace CacheAside

/-- The record that a request is to change. -/
def Request.target? : Request → Option RecordId
  | .create candidate => some candidate.id
  | .update id _ => some id
  | .delete id => some id
  | _ => none

/-- The record that is to be changed when the question is asked. -/
def Ask.target? : Ask → Option RecordId
  | .loading id _ => some id
  | ask => ask.call.target?

/-- A request asks at first about the record that it is to change, and fills no cache. -/
theorem Service.Begun.target? {s : Service} {request : Request} {ask : Ask}
    (h : s.Begun request ask) : ask.target? = request.target? ∧ ∀ r, ask ≠ .refilling r := by
  cases h with
  | _ => exact ⟨rfl, by simp⟩

/-- A question that follows a reply is about the same record, and fills no cache when refreshes
run in the background. -/
theorem Service.Follows.target? {s : Service} (background : s.config.cacheRefresh = .background)
    {ask ask' : Ask} {reply : ask.call.Reply} (h : s.Follows ask reply ask') :
    ask'.target? = ask.target? ∧ ∀ r, ask' ≠ .refilling r := by
  cases h with
  | fetches => exact ⟨rfl, by simp⟩
  | refills inlined => cases inlined.symm.trans background
  | replaces same => exact ⟨congrArg some same, by simp⟩

namespace Simulation

/-- A call that is waited for replies in the moment of its effect. -/
def Branch.IsPrompt {call : PortCall} : Branch call → Prop
  | .waiting g => ∀ g₀ ∈ g, g₀.IsPrompt
  | .replied _ => True

namespace Point

/-- The record that a request at this point has to do with changing. -/
def target? : Point → Option RecordId
  | .asking ask _ => ask.target?
  | .settling change _ => some change.recordId
  | .announcing change _ _ _ => some change.recordId
  | .finished _ => none

/-- The record, if any, that a request at this point has updated or deleted without the cache
having been told. -/
def owed? : Point → Option RecordId
  | .settling change _ => if change.isCreation then none else some change.recordId
  | .announcing change _ cache _ =>
    if change.isCreation || cache.isTold then none else some change.recordId
  | _ => none

/-- The call that is waited for replies in the moment of its effect, and is no fill of the cache on
behalf of a read. -/
def IsPrompt : Point → Prop
  | .asking ask g => (∀ r, ask ≠ .refilling r) ∧ ∀ g₀ ∈ g, g₀.IsPrompt
  | .announcing _ _ cache _ => cache.IsPrompt
  | _ => True

theorem recordId_of_owed? {p : Point} {id : RecordId} (h : p.owed? = some id) :
    ∃ change, p.change? = some change ∧ change.recordId = id := by
  cases p with
  | settling change tickets =>
    simp only [owed?] at h
    split at h
    · cases h
    · exact ⟨change, rfl, Option.some.inj h⟩
  | announcing change cacheFirst cache events =>
    simp only [owed?] at h
    split at h
    · cases h
    · exact ⟨change, rfl, Option.some.inj h⟩
  | asking ask g => cases h
  | finished outcome => cases h

end Point

namespace Thread

/-- The record that a request under way is to change, or has changed. -/
def written? (t : Thread) : Option RecordId :=
  if t.point.isFinished then none else t.request.target?

/-- The two requests change different records, if any. -/
def Apart (t u : Thread) : Prop :=
  t.written? = none ∨ t.written? ≠ u.written?

instance (t u : Thread) : Decidable (t.Apart u) :=
  inferInstanceAs (Decidable (_ ∨ _))

end Thread

namespace World

/-- The service and its refreshes are the same, the store answers the same, and the cache holds no
other records than before. -/
structure Steady (w w' : World) : Prop extends Alike w w' where
  store : ∀ key, w'.backend.store.find key = w.backend.store.find key
  cache : ∀ key, w'.backend.cache.stored? key = w.backend.cache.stored? key ∨
    w'.backend.cache.stored? key = none

theorem Untouched.steady {w w' : World} (h : Untouched w w') : Steady w w' :=
  ⟨h.toAlike, fun key => by rw [h.backend], fun key => .inl (by rw [h.backend])⟩

theorem Steady.trans {w₁ w₂ w₃ : World} (h : Steady w₁ w₂) (h' : Steady w₂ w₃) : Steady w₁ w₃ where
  toAlike := h.toAlike.trans h'.toAlike
  store := fun key => (h'.store key).trans (h.store key)
  cache := fun key => by
    rcases h'.cache key with heq | hnone
    · rw [heq]
      exact h.cache key
    · exact .inr hnone

/-- Whatever the cache holds it has held before. -/
theorem Steady.held {w w' : World} (h : Steady w w') {key : RecordId} {r : Record}
    (hr : w'.backend.cache.stored? key = some r) : w.backend.cache.stored? key = some r := by
  rcases h.cache key with heq | hnone
  · exact heq ▸ hr
  · rw [hnone] at hr
    cases hr

/-- A call without a change that writes nothing to the cache. -/
theorem steady_of_served {w w' : World} {call : PortCall} {reply : call.Reply} (alike : Alike w w')
    (backend : w'.backend = (w.servedNow call).backend)
    (served : (w.servedNow call).reply = some reply) (quiet : call.change? reply = none)
    (hwrite : ∀ write, call ≠ .writeCache write) : Steady w w' where
  toAlike := alike
  store := fun key => by
    have hstore : (w.servedNow call).backend.store = w.backend.store :=
      Backend.store_serve fun reply' served' => by
        obtain rfl : reply' = reply := Option.some.inj (served'.symm.trans served)
        exact quiet
    rw [backend, hstore]
  cache := fun key => by
    rw [backend]
    exact Backend.stored?_serve hwrite key

theorem VisitedPromptly.steady {w w' : World} {call : PortCall} {reply : call.Reply}
    (h : VisitedPromptly w w' (.ready reply)) (quiet : call.change? reply = none)
    (hwrite : ∀ write, call ≠ .writeCache write) : Steady w w' := by
  cases h with
  | fails calm => exact calm.steady
  | answers alike backend served => exact steady_of_served alike backend served quiet hwrite

/-- An event that is published changes neither the store nor the cache. -/
theorem Visited.steady {w w' : World} {ctx : Context} {event : DomainEvent}
    {g : Option (Guarded (.publish event))}
    {poll : Poll (PortCall.publish event).Reply (Guarded (.publish event))}
    (h : Visited w ctx g w' poll) : Steady w w' := by
  cases h with
  | waits calm => exact calm.steady
  | fails calm => exact calm.steady
  | awaits calm => exact calm.steady
  | replies calm => exact calm.steady
  | answers alike acted fresh backend served =>
    exact steady_of_served alike backend served rfl (by simp)
  | breaks calm => exact calm.steady

/-- The store has made a change.  The service and its refreshes are the same, and the cache holds no
other records than before. -/
structure Committed (w w' : World) (change : DomainEvent) : Prop extends Alike w w' where
  store : ∀ key, w'.backend.store.find key =
    if key = change.recordId then change.found else w.backend.store.find key
  cache : ∀ key, w'.backend.cache.stored? key = w.backend.cache.stored? key ∨
    w'.backend.cache.stored? key = none

/-- Whatever the cache holds it has held before. -/
theorem Committed.held {w w' : World} {change : DomainEvent} (h : Committed w w' change)
    {key : RecordId} {r : Record} (hr : w'.backend.cache.stored? key = some r) :
    w.backend.cache.stored? key = some r := by
  rcases h.cache key with heq | hnone
  · exact heq ▸ hr
  · rw [hnone] at hr
    cases hr

/-- A call with a change. -/
theorem committed_of_served {w w' : World} {call : PortCall} {reply : call.Reply}
    {change : DomainEvent} (alike : Alike w w') (backend : w'.backend = (w.servedNow call).backend)
    (served : (w.servedNow call).reply = some reply) (made : call.change? reply = some change) :
    Committed w w' change where
  toAlike := alike
  store := fun key => by
    rw [backend]
    exact Backend.find_serve served made key
  cache := fun key => by
    rw [backend]
    refine Backend.stored?_serve (fun write heq => ?_) key
    subst heq
    cases made

end World

namespace Scene

/-- No two requests under way change the same record. -/
def Exclusive (s : Scene) : Prop :=
  s.threads.Pairwise Thread.Apart

/-- An act is in order if all calls reply in the moment of their effect, no two requests change the
same record, and no request ends that still has to tell the cache of an update or a deletion. -/
structure Orderly (s s' : Scene) : Prop where
  prompt : s.world.IsPrompt
  exclusive : s.Exclusive
  kept : ∀ t ∈ s.threads, t.point.owed?.isSome = true →
    ∃ u ∈ s'.threads, u.key = t.key ∧ u.point.isFinished = false

instance (s s' : Scene) : Decidable (Orderly s s') :=
  decidable_of_iff ((∀ f ∈ s.world.faults, f.2.isPrompt = true) ∧
      s.threads.Pairwise Thread.Apart ∧
      ∀ t ∈ s.threads, t.point.owed?.isSome = true →
        ∃ u ∈ s'.threads, u.key = t.key ∧ u.point.isFinished = false)
    ⟨fun h => ⟨h.1, h.2.1, h.2.2⟩, fun h => ⟨h.prompt, h.exclusive, h.kept⟩⟩

/-- The refresh carries the record of the store, and a writer can call it off. -/
def Tracked (s : Scene) (r : Refresh) : Prop :=
  s.world.backend.store.find r.record.id = .ok r.record ∧
    r.ticket ∈ s.world.tracker.pending r.record.id

/-- A request that has changed the record of the refresh waits for the refresh to end. -/
def Awaited (s : Scene) (r : Refresh) : Prop :=
  ∃ t ∈ s.threads, r.ticket ∈ t.point.tickets ∧ t.point.owed? = some r.record.id

/-- What holds at all times in an orderly interleaving. -/
structure Coherent (s : Scene) : Prop where
  numbered : s.Numbered
  background : s.world.service.config.cacheRefresh = .background
  /-- A request is about the record that it was asked to change. -/
  target : ∀ t ∈ s.threads, t.point.isFinished = true ∨ t.point.target? = t.request.target?
  prompt : ∀ t ∈ s.threads, t.point.IsPrompt
  promptly : ∀ r ∈ s.world.refreshes, ∀ g ∈ r.call, g.IsPrompt
  /-- Nothing has changed a record since the change that a request is busy with. -/
  current : ∀ t ∈ s.threads, ∀ change ∈ t.point.change?,
    s.world.backend.store.find change.recordId = change.found
  refreshes : ∀ r ∈ s.world.refreshes, s.Tracked r ∨ s.Awaited r
  cache : ∀ id r, s.world.backend.cache.stored? id = some r →
    s.world.backend.store.find id = .ok r ∨ ∃ t ∈ s.threads, t.point.owed? = some id

theorem Exclusive.eq {s : Scene} (h : s.Exclusive) {t u : Thread} {id : RecordId}
    (ht : t ∈ s.threads) (hu : u ∈ s.threads) (hwt : t.written? = some id)
    (hwu : u.written? = some id) : t = u := by
  have hnot {t u : Thread} (hwt : t.written? = some id) (hwu : u.written? = some id) :
      ¬ t.Apart u := by
    rintro (hnone | hdiff)
    · rw [hwt] at hnone
      cases hnone
    · exact hdiff (hwt.trans hwu.symm)
  rcases eq_or_of_pairwise h ht hu with heq | hapart | hapart
  · exact heq
  · exact absurd hapart (hnot hwt hwu)
  · exact absurd hapart (hnot hwu hwt)

namespace Coherent

variable {s : Scene} {t : Thread} {w : World} {p : Point} {changes : List DomainEvent}
  {spawned : List (Ticket × Nat)}

theorem target_eq (h : s.Coherent) (mem : t ∈ s.threads) (running : t.point.isFinished = false) :
    t.point.target? = t.request.target? := by
  rcases h.target t mem with hfinished | hsame
  · rw [running] at hfinished
    cases hfinished
  · exact hsame

/-- A request that is busy with a change was asked to change the record. -/
theorem written_of_change (h : s.Coherent) (mem : t ∈ s.threads) {change : DomainEvent}
    (hchange : t.point.change? = some change) : t.written? = some change.recordId := by
  have hrunning : t.point.isFinished = false := by
    cases hp : t.point <;> simp_all [Point.change?, Point.isFinished]
  have htarget : t.point.target? = some change.recordId := by
    cases hp : t.point <;> simp_all [Point.change?, Point.target?]
  rw [Thread.written?, hrunning, ← h.target_eq mem hrunning, htarget]
  rfl

/-- What has to be shown when one request goes to another point. -/
theorem goTo (h : s.Coherent) (mem : t ∈ s.threads)
    (service : w.service = s.world.service)
    (target : p.isFinished = true ∨ p.target? = t.request.target?) (prompt : p.IsPrompt)
    (promptly : ∀ r ∈ w.refreshes, ∀ g ∈ r.call, g.IsPrompt)
    (current : ∀ change ∈ p.change?, w.backend.store.find change.recordId = change.found)
    (others : ∀ u ∈ s.threads, u.key ≠ t.key → ∀ change ∈ u.point.change?,
      w.backend.store.find change.recordId = change.found)
    (refreshes : ∀ r ∈ w.refreshes,
      (w.backend.store.find r.record.id = .ok r.record ∧
          r.ticket ∈ w.tracker.pending r.record.id) ∨
        (r.ticket ∈ p.tickets ∧ p.owed? = some r.record.id) ∨
        ∃ u ∈ s.threads, u.key ≠ t.key ∧
          r.ticket ∈ u.point.tickets ∧ u.point.owed? = some r.record.id)
    (cache : ∀ id r, w.backend.cache.stored? id = some r →
      w.backend.store.find id = .ok r ∨ p.owed? = some id ∨
        ∃ u ∈ s.threads, u.key ≠ t.key ∧ u.point.owed? = some id) :
    Coherent { s with world := w, threads := put s.threads (t.goTo p), changes, spawned } where
  numbered := h.numbered.goTo mem
  background := by
    rw [service]
    exact h.background
  target := fun u hu => by
    rcases mem_put hu with rfl | ⟨hu, -⟩
    · exact target
    · exact h.target u hu
  prompt := fun u hu => by
    rcases mem_put hu with rfl | ⟨hu, -⟩
    · exact prompt
    · exact h.prompt u hu
  promptly := promptly
  current := fun u hu => by
    rcases mem_put hu with rfl | ⟨hu, hkey⟩
    · exact current
    · exact others u hu hkey
  refreshes := fun r hr => by
    rcases refreshes r hr with htracked | hmine | ⟨u, hu, hkey, hother⟩
    · exact .inl htracked
    · exact .inr ⟨t.goTo p, mem_put_self mem rfl, hmine⟩
    · exact .inr ⟨u, mem_put_of_ne hu hkey, hother⟩
  cache := fun id r hr => by
    rcases cache id r hr with hfound | hmine | ⟨u, hu, hkey, hother⟩
    · exact .inl hfound
    · exact .inr ⟨t.goTo p, mem_put_self mem rfl, hmine⟩
    · exact .inr ⟨u, mem_put_of_ne hu hkey, hother⟩

/-- A request goes on without a change, and owes what it owed before. -/
theorem goOn (h : s.Coherent) (mem : t ∈ s.threads)
    (steady : World.Steady s.world w)
    (target : p.isFinished = true ∨ p.target? = t.request.target?) (prompt : p.IsPrompt)
    (change : ∀ change ∈ p.change?, change ∈ t.point.change?)
    (tickets : p.tickets = t.point.tickets) (owed : p.owed? = t.point.owed?) :
    Coherent { s with world := w, threads := put s.threads (t.goTo p), changes, spawned } := by
  refine h.goTo mem steady.service target prompt ?_ ?_ ?_ ?_ ?_
  · exact steady.refreshes ▸ h.promptly
  · intro c hc
    exact (steady.store _).trans (h.current t mem c (change c hc))
  · intro u hu _ c hc
    exact (steady.store _).trans (h.current u hu c hc)
  · intro r hr
    rcases h.refreshes r (steady.refreshes ▸ hr) with ⟨hfound, hpending⟩ | hawaited
    · exact .inl ⟨(steady.store _).trans hfound, steady.tracker ▸ hpending⟩
    · rw [tickets, owed]
      exact .inr (h.numbered.mine_or_other mem hawaited)
  · intro id r hr
    rcases h.cache id r (steady.held hr) with hfound | howed
    · exact .inl ((steady.store _).trans hfound)
    · rw [owed]
      exact .inr (h.numbered.mine_or_other mem howed)

/-- A request that owes nothing goes away. -/
theorem without (h : s.Coherent) (mem : t ∈ s.threads) {forsaken : List Ticket}
    (steady : World.Steady s.world w) (owed : t.point.owed? = none) :
    Coherent { s with
      world := w, threads := s.threads.filter (·.key ≠ t.key), changes, forsaken } where
  numbered := h.numbered.without t.key
  background := by
    rw [steady.service]
    exact h.background
  target := fun u hu => h.target u (List.mem_filter.mp hu).1
  prompt := fun u hu => h.prompt u (List.mem_filter.mp hu).1
  promptly := steady.refreshes ▸ h.promptly
  current := fun u hu c hc =>
    (steady.store _).trans (h.current u (List.mem_filter.mp hu).1 c hc)
  refreshes := fun r hr => by
    rcases h.refreshes r (steady.refreshes ▸ hr) with ⟨hfound, hpending⟩ | hawaited
    · exact .inl ⟨(steady.store _).trans hfound, steady.tracker ▸ hpending⟩
    · rcases h.numbered.mine_or_other mem hawaited with ⟨-, hmine⟩ | ⟨u, hu, hkey, hother⟩
      · rw [owed] at hmine
        cases hmine
      · exact .inr ⟨u, List.mem_filter.mpr ⟨hu, by simpa using hkey⟩, hother⟩
  cache := fun id r hr => by
    rcases h.cache id r (steady.held hr) with hfound | howed
    · exact .inl ((steady.store _).trans hfound)
    · rcases h.numbered.mine_or_other mem howed with hmine | ⟨u, hu, hkey, hother⟩
      · rw [owed] at hmine
        cases hmine
      · exact .inr ⟨u, List.mem_filter.mpr ⟨hu, by simpa using hkey⟩, hother⟩

/-! ## Changes of the store -/

/-- A question that changes the store changes the record that its request is for. -/
theorem target_of_change (h : s.Coherent) (mem : t ∈ s.threads) {ask : Ask}
    {g : Option (Guarded ask.call)} (point : t.point = .asking ask g) {id : RecordId}
    (changed : ask.call.target? = some id) : t.request.target? = some id := by
  rw [← h.target_eq mem (by rw [point]; rfl), point]
  cases ask <;> simp_all [Point.target?, Ask.target?, Ask.call, PortCall.target?]

/-- Nobody else is busy with the record that a question is about to change. -/
theorem apart (h : s.Coherent) (exclusive : s.Exclusive) (mem : t ∈ s.threads) {ask : Ask}
    {g : Option (Guarded ask.call)} (point : t.point = .asking ask g) {id : RecordId}
    (changed : ask.call.target? = some id) :
    ∀ u ∈ s.threads, u.key ≠ t.key → ∀ change ∈ u.point.change?, change.recordId ≠ id := by
  intro u hu hkey change hchange hid
  have hwritten : t.written? = some id := by
    rw [Thread.written?, point]
    exact h.target_of_change mem point changed
  have hu' := h.written_of_change hu hchange
  exact hkey (congrArg Thread.key (exclusive.eq hu mem (hid ▸ hu') hwritten))

/-- A request that asks a question waits for no refresh. -/
theorem awaited_by_other (h : s.Coherent) (mem : t ∈ s.threads) {ask : Ask}
    {g : Option (Guarded ask.call)} (point : t.point = .asking ask g) {r : Refresh}
    (hr : s.Awaited r) : ∃ u ∈ s.threads, u.key ≠ t.key ∧
      r.ticket ∈ u.point.tickets ∧ u.point.owed? = some r.record.id := by
  rcases h.numbered.mine_or_other mem hr with ⟨hmine, -⟩ | hother
  · simp [point, Point.tickets] at hmine
  · exact hother

/-- A request that asks a question owes the cache nothing. -/
theorem owed_by_other (h : s.Coherent) (mem : t ∈ s.threads) {ask : Ask}
    {g : Option (Guarded ask.call)} (point : t.point = .asking ask g) {id : RecordId}
    (hid : ∃ u ∈ s.threads, u.point.owed? = some id) :
    ∃ u ∈ s.threads, u.key ≠ t.key ∧ u.point.owed? = some id := by
  rcases h.numbered.mine_or_other mem hid with hmine | hother
  · simp [point, Point.owed?] at hmine
  · exact hother

/-- The store has got a new record, of which there can be no refresh and nothing in the cache. -/
theorem create (h : s.Coherent) (exclusive : s.Exclusive) (mem : t ∈ s.threads) {ask : Ask}
    {g : Option (Guarded ask.call)} (point : t.point = .asking ask g) {r : Record}
    (committed : World.Committed s.world w (.created r))
    (changed : ask.call.target? = some r.id)
    (absent : s.world.backend.store.find r.id = .error (.notFound r.id))
    (next : p = .announcing (.created r) true (.waiting none) (.waiting none)) :
    Coherent { s with world := w, threads := put s.threads (t.goTo p), changes, spawned } := by
  subst next
  -- what the store held before cannot have had the identifier of the new record
  have hkept {key : RecordId} {x : Record} (hx : s.world.backend.store.find key = .ok x) :
      w.backend.store.find key = .ok x := by
    have hne : key ≠ r.id := by
      intro heq
      rw [heq, absent] at hx
      cases hx
    rw [committed.store]
    exact (if_neg hne).trans hx
  refine h.goTo mem committed.service ?_ ?_ ?_ ?_ ?_ ?_ ?_
  · exact .inr (h.target_of_change mem point changed).symm
  · simp [Point.IsPrompt, Branch.IsPrompt]
  · exact committed.refreshes ▸ h.promptly
  · intro c hc
    cases hc
    exact (committed.store _).trans (if_pos rfl)
  · intro u hu hkey c hc
    have hne := h.apart exclusive mem point changed u hu hkey c hc
    exact (committed.store _).trans ((if_neg hne).trans (h.current u hu c hc))
  · intro f hf
    rcases h.refreshes f (committed.refreshes ▸ hf) with ⟨hfound, hpending⟩ | hawaited
    · exact .inl ⟨hkept hfound, committed.tracker ▸ hpending⟩
    · exact .inr (.inr (h.awaited_by_other mem point hawaited))
  · intro key x hx
    rcases h.cache key x (committed.held hx) with hfound | howed
    · exact .inl (hkept hfound)
    · exact .inr (.inr (h.owed_by_other mem point howed))

/-- The store has updated or deleted a record.  Its refreshes carry an older one from now on, but
they are waited for, and the cache is owed the news. -/
theorem change (h : s.Coherent) (exclusive : s.Exclusive) (mem : t ∈ s.threads) {ask : Ask}
    {g : Option (Guarded ask.call)} (point : t.point = .asking ask g) {w₁ : World}
    {change : DomainEvent}
    (committed : World.Committed s.world w₁ change)
    (changed : ask.call.target? = some change.recordId) (later : change.isCreation = false)
    (taken : w = { w₁ with tracker := (w₁.tracker.take change.recordId).2 })
    (next : p = .settling change (w₁.tracker.pending change.recordId)) :
    Coherent { s with world := w, threads := put s.threads (t.goTo p), changes, spawned } := by
  subst next taken
  have howes : (Point.settling change (w₁.tracker.pending change.recordId)).owed? =
      some change.recordId := by
    simp [Point.owed?, later]
  refine h.goTo mem committed.service ?_ trivial ?_ ?_ ?_ ?_ ?_
  · exact .inr (h.target_of_change mem point changed).symm
  · exact committed.refreshes ▸ h.promptly
  · intro c hc
    cases hc
    exact (committed.store _).trans (if_pos rfl)
  · intro u hu hkey c hc
    have hne := h.apart exclusive mem point changed u hu hkey c hc
    exact (committed.store _).trans ((if_neg hne).trans (h.current u hu c hc))
  · intro f hf
    rcases h.refreshes f (committed.refreshes ▸ hf) with ⟨hfound, hpending⟩ | hawaited
    · rw [← committed.tracker] at hpending
      -- a refresh of the changed record was on the list that the request has taken
      by_cases heq : f.record.id = change.recordId
      · exact .inr (.inl ⟨heq ▸ hpending, heq ▸ howes⟩)
      · refine .inl ⟨(committed.store _).trans ((if_neg heq).trans hfound), ?_⟩
        rw [RefreshTracker.pending_take, if_neg heq]
        exact hpending
    · exact .inr (.inr (h.awaited_by_other mem point hawaited))
  · intro key x hx
    by_cases heq : key = change.recordId
    · exact .inr (.inl (heq ▸ howes))
    · rcases h.cache key x (committed.held hx) with hfound | howed
      · exact .inl ((committed.store _).trans ((if_neg heq).trans hfound))
      · exact .inr (.inr (h.owed_by_other mem point howed))

/-! ## Refreshes -/

/-- A read has found its record in the store and leaves the cache to a refresh. -/
theorem spawn (h : s.Coherent) (mem : t ∈ s.threads) {ask : Ask} {g : Option (Guarded ask.call)}
    (point : t.point = .asking ask g) {w₁ : World} {r : Record} {outcome : Outcome}
    (steady : World.Steady s.world w₁) (found : s.world.backend.store.find r.id = .ok r)
    {ctx : Context} {spans : List Span} (backend : w.backend = w₁.backend)
    (service : w.service = w₁.service) (tracker : w.tracker = (w₁.tracker.spawn r.id).2)
    (refreshes : w.refreshes =
      w₁.refreshes ++ [{ ticket := w₁.tracker.next, record := r, ctx, spans }]) :
    Coherent { s with
      world := w, threads := put s.threads (t.goTo (.finished outcome)), changes, spawned } := by
  have hstore (key : RecordId) : w.backend.store.find key = s.world.backend.store.find key := by
    rw [backend]
    exact steady.store key
  refine h.goTo mem (service.trans steady.service) (.inl rfl) trivial ?_ ?_ ?_ ?_ ?_
  · intro f hf
    rw [refreshes] at hf
    rcases List.mem_append.mp hf with hf | hf
    · exact h.promptly f (steady.refreshes ▸ hf)
    · obtain rfl := List.mem_singleton.mp hf
      simp
  · intro c hc
    cases hc
  · intro u hu _ c hc
    exact (hstore _).trans (h.current u hu c hc)
  · intro f hf
    rw [refreshes] at hf
    rw [tracker, RefreshTracker.pending_spawn]
    rcases List.mem_append.mp hf with hf | hf
    · rcases h.refreshes f (steady.refreshes ▸ hf) with ⟨hfound, hpending⟩ | hawaited
      · refine .inl ⟨(hstore _).trans hfound, ?_⟩
        rw [← steady.tracker] at hpending
        split
        · rename_i heq
          exact List.mem_append_left _ (heq ▸ hpending)
        · exact hpending
      · exact .inr (.inr (h.awaited_by_other mem point hawaited))
    · -- the new refresh carries what the store holds, for the reply has come at once
      obtain rfl := List.mem_singleton.mp hf
      exact .inl ⟨(hstore _).trans found, by simp⟩
  · intro key x hx
    rw [backend] at hx
    rcases h.cache key x (steady.held hx) with hfound | howed
    · exact .inl ((hstore _).trans hfound)
    · exact .inr (.inr (h.owed_by_other mem point howed))

/-- A request that waits for refreshes looks whether they have ended. -/
theorem wait (h : s.Coherent) (mem : t ∈ s.threads) {change : DomainEvent}
    {tickets left : List Ticket} (point : t.point = .settling change tickets)
    (settled : World.Settled s.world w tickets left) (target : p.target? = some change.recordId)
    (prompt : p.IsPrompt) (same : p.change? = some change) (waits : p.tickets = left)
    (owed : p.owed? = t.point.owed?) :
    Coherent { s with world := w, threads := put s.threads (t.goTo p), changes, spawned } := by
  refine h.goTo mem settled.service ?_ prompt ?_ ?_ ?_ ?_ ?_
  · have hsame := h.target_eq mem (by rw [point]; rfl)
    rw [point] at hsame
    exact .inr (target.trans hsame)
  · intro f hf
    obtain ⟨r, hr, rfl | ⟨-, rfl⟩⟩ := settled.refreshes f hf
    · exact h.promptly _ hr
    · exact h.promptly r hr
  · intro c hc
    rw [settled.backend]
    exact h.current t mem c (by rw [point]; exact same.symm.trans hc)
  · intro u hu _ c hc
    rw [settled.backend]
    exact h.current u hu c hc
  · -- whether it has been called off makes no difference to what a refresh carries
    have hkept (r : Refresh) (hr : r ∈ s.world.refreshes) :
        (w.backend.store.find r.record.id = .ok r.record ∧
            r.ticket ∈ w.tracker.pending r.record.id) ∨
          (r.ticket ∈ p.tickets ∧ p.owed? = some r.record.id) ∨
          ∃ u ∈ s.threads, u.key ≠ t.key ∧
            r.ticket ∈ u.point.tickets ∧ u.point.owed? = some r.record.id := by
      rw [settled.backend, settled.tracker]
      rcases h.refreshes r hr with htracked | hawaited
      · exact .inl htracked
      · rcases h.numbered.mine_or_other mem hawaited with ⟨hticket, howed⟩ | hother
        · have hleft := settled.alive r hr (by simpa [point, Point.tickets] using hticket)
          exact .inr (.inl ⟨waits ▸ hleft, owed.trans howed⟩)
        · exact .inr (.inr hother)
    intro f hf
    obtain ⟨r, hr, rfl | ⟨-, rfl⟩⟩ := settled.refreshes f hf
    · exact hkept _ hr
    · exact hkept r hr
  · intro key x hx
    rw [settled.backend] at hx ⊢
    rcases h.cache key x hx with hfound | howed
    · exact .inl hfound
    · rw [owed]
      exact .inr (h.numbered.mine_or_other mem howed)

/-! ## News for the cache -/

/-- The cache is told of a change. -/
theorem tell (h : s.Coherent) (mem : t ∈ s.threads) {change : DomainEvent} {f : Bool}
    {g : Option (Guarded (.writeCache change.cacheWrite))} {events : Branch (.publish change)}
    (point : t.point = .announcing change f (.waiting g) events)
    (alike : World.Alike s.world w)
    (store : w.backend.store = s.world.backend.store)
    (cache : ∀ key, w.backend.cache.stored? key =
      if key = change.recordId then change.record? else s.world.backend.cache.stored? key) :
    Coherent { s with
      world := w
      threads := put s.threads (t.goTo (.announcing change true (.replied (.ok ())) events))
      changes, spawned } := by
  have hcurrent : s.world.backend.store.find change.recordId = change.found :=
    h.current t mem change (by rw [point]; rfl)
  refine h.goTo mem alike.service ?_ trivial ?_ ?_ ?_ ?_ ?_
  · have hsame := h.target_eq mem (by rw [point]; rfl)
    rw [point] at hsame
    exact .inr hsame
  · exact alike.refreshes ▸ h.promptly
  · intro c hc
    cases hc
    rw [store]
    exact hcurrent
  · intro u hu _ c hc
    rw [store]
    exact h.current u hu c hc
  · intro r hr
    rcases h.refreshes r (alike.refreshes ▸ hr) with htracked | hawaited
    · rw [store, alike.tracker]
      exact .inl htracked
    · rcases h.numbered.mine_or_other mem hawaited with ⟨hticket, -⟩ | hother
      · simp [point, Point.tickets] at hticket
      · exact .inr (.inr hother)
  · intro key x hx
    rw [cache] at hx
    rw [store]
    split at hx
    · rename_i heq
      subst heq
      exact .inl (hcurrent.trans (DomainEvent.found_eq_ok.mpr hx))
    · rename_i hne
      rcases h.cache key x hx with hfound | howed
      · exact .inl hfound
      · rcases h.numbered.mine_or_other mem howed with hmine | hother
        -- this request owed only the news that the cache has just got
        · obtain ⟨c, hc, rfl⟩ := Point.recordId_of_owed? hmine
          rw [point] at hc
          cases hc
          exact absurd rfl hne
        · exact .inr (.inr hother)

/-! ## Acts -/

/-- A reply has come. -/
theorem resume (h : s.Coherent) (exclusive : s.Exclusive) (mem : t ∈ s.threads) {ask : Ask}
    {g : Option (Guarded ask.call)} (point : t.point = .asking ask g) {reply : ask.call.Reply}
    {w₁ : World}
    (visited : World.VisitedPromptly s.world w₁ (.ready reply))
    {ctx : Context} (resumed : World.Resumed w₁ ctx ask reply w p) :
    Coherent { s with world := w, threads := put s.threads (t.goTo p), changes, spawned } := by
  have hprompt := h.prompt t mem
  have htarget := h.target_eq mem (by rw [point]; rfl)
  rw [point] at hprompt htarget
  have hwrite : ∀ write, ask.call ≠ .writeCache write := by
    cases ask <;> simp_all [Ask.call, Point.IsPrompt]
  have hservice : w₁.service = s.world.service := by
    cases visited with
    | fails calm => exact calm.service
    | answers alike => exact alike.service
  cases resumed with
  | asks calm quiet next =>
    have hnext := (Service.follows_of_resume next).target? (hservice ▸ h.background)
    refine h.goOn mem ((visited.steady quiet hwrite).trans calm.steady) ?_ ?_ ?_ ?_ ?_
    · exact .inr (hnext.1.trans htarget)
    · exact ⟨hnext.2, by simp⟩
    · simp [Point.change?]
    · rw [point]
      rfl
    · rw [point]
      rfl
  | finishes calm quiet next =>
    refine h.goOn mem ((visited.steady quiet hwrite).trans calm.steady) (.inl rfl) trivial
      ?_ ?_ ?_
    · simp [Point.change?]
    · rw [point]
      rfl
    · rw [point]
      rfl
  | @spawns id r _ spans background coeval backend tracker refreshes =>
    have hfound : s.world.backend.store.find id = .ok r := by
      cases visited with
      | answers alike backend served => exact Option.some.inj served
    have hid := Store.id_of_find hfound
    subst hid
    exact h.spawn mem point (visited.steady rfl hwrite) hfound backend coeval.service tracker
      refreshes
  | @announces candidate r =>
    cases visited with
    | answers alike backend served =>
      obtain ⟨habsent, hr, -⟩ := Store.create_eq_ok (Backend.serve_insert served)
      have hid : r.id = candidate.id := by rw [hr]
      exact h.create exclusive mem point
        (World.committed_of_served alike backend served rfl) (Backend.recordId_serve served rfl)
        (hid ▸ habsent) rfl
  | @settles _ _ change made later =>
    cases visited with
    | fails calm => simp at made
    | answers alike backend served =>
      refine h.change exclusive mem point
        (World.committed_of_served alike backend served made) (Backend.recordId_serve served made)
        ?_ rfl rfl
      cases change with
      | created r => exact absurd rfl (later r)
      | updated r => rfl
      | deleted id => rfl

/-- The cache has replied to the news of a change. -/
theorem told (h : s.Coherent) (mem : t ∈ s.threads) {change : DomainEvent} {f : Bool}
    {g : Option (Guarded (.writeCache change.cacheWrite))} {events : Branch (.publish change)}
    (point : t.point = .announcing change f (.waiting g) events) {w₁ : World}
    {reply : (PortCall.writeCache change.cacheWrite).Reply}
    (visited : World.VisitedPromptly s.world w₁ (.ready reply)) (calm : World.Untouched w₁ w) :
    Coherent { s with
      world := w
      threads := put s.threads (t.goTo (.announcing change true (.replied reply) events))
      changes, spawned } := by
  have htarget := h.target_eq mem (by rw [point]; rfl)
  rw [point] at htarget
  -- a cache that has failed is still owed the news
  have hgoOn {e : CacheError} (steady : World.Steady s.world w) (failed : reply = .error e) :
      Coherent { s with
        world := w
        threads := put s.threads (t.goTo (.announcing change true (.replied reply) events))
        changes, spawned } := by
    subst failed
    refine h.goOn mem steady (.inr htarget) trivial ?_ ?_ ?_
    · rw [point]
      exact fun c hc => hc
    · rw [point]
      rfl
    · simp [point, Point.owed?, Branch.isTold]
  cases visited with
  | @fails e untouched => exact hgoOn (untouched.trans calm).steady rfl
  | answers alike backend served =>
    match reply with
    | .error e =>
      have hsame : (s.world.servedNow (.writeCache change.cacheWrite)).backend =
          s.world.backend := Backend.serve_of_not_ok fun value hok => by
        cases Option.some.inj (served.symm.trans hok)
      have untouched : World.Untouched s.world w₁ := ⟨alike, backend.trans hsame⟩
      exact hgoOn (untouched.trans calm).steady rfl
    | .ok () =>
      have hstore : (s.world.servedNow (.writeCache change.cacheWrite)).backend.store =
          s.world.backend.store := Backend.store_serve fun _ _ => rfl
      refine h.tell mem point (alike.trans calm.toAlike) ?_ fun key => ?_
      · rw [calm.backend, backend, hstore]
      · rw [calm.backend, backend]
        exact Backend.stored?_serve_news served key

/-- A request makes a stride, and does not end with the cache still to be told. -/
theorem stride (h : s.Coherent) (prompt : s.world.IsPrompt) (exclusive : s.Exclusive)
    (mem : t ∈ s.threads) {ctx : Context} {spans : List Span}
    (kept : p.isFinished = true → t.point.owed? = none)
    (strode : World.Strode s.world ctx spans t.point w (some p)) :
    Coherent { s with world := w, threads := put s.threads (t.goTo p), changes, spawned } := by
  have hprompt := h.prompt t mem
  have htarget := h.target t mem
  generalize point : t.point = q at strode hprompt htarget kept
  cases strode with
  | asksOn visit =>
    cases World.visited_promptly prompt.port hprompt.2 visit with
    | waits calm still =>
      refine h.goOn mem calm.steady htarget ⟨hprompt.1, by simpa using still⟩ ?_ ?_ ?_
      all_goals simp [point, Point.change?, Point.tickets, Point.owed?]
  | resumes visit resumed =>
    exact h.resume exclusive mem point
      (World.visited_promptly prompt.port hprompt.2 visit) resumed
  | settlesOn settled => exact h.wait mem point settled rfl trivial rfl rfl (by rw [point]; rfl)
  | settled settled =>
    refine h.wait mem point settled rfl ?_ rfl rfl ?_
    · simp [Point.IsPrompt, Branch.IsPrompt]
    · simp [point, Point.owed?, Branch.isTold]
  | cacheWaits visit =>
    cases World.visited_promptly prompt.port hprompt visit with
    | waits calm still =>
      refine h.goOn mem calm.steady htarget ?_ ?_ ?_ ?_
      · simpa [Point.IsPrompt, Branch.IsPrompt] using still
      all_goals simp [point, Point.change?, Point.tickets, Point.owed?, Branch.isTold]
  | @cacheTold change _ _ _ _ reply visit =>
    exact h.told mem point (World.visited_promptly prompt.port hprompt visit)
      (World.noteAll_quiet _ ctx spans (change.quiet_cacheNotes reply))
  | busWaits visit =>
    refine h.goOn mem (World.visited visit).steady htarget hprompt ?_ ?_ ?_
    all_goals simp [point, Point.change?, Point.tickets, Point.owed?]
  | busTold visit =>
    refine h.goOn mem (World.visited visit).steady htarget hprompt ?_ ?_ ?_
    all_goals simp [point, Point.change?, Point.tickets, Point.owed?]
  | skips =>
    refine h.goOn mem (World.Untouched.refl _).steady htarget hprompt ?_ ?_ ?_
    all_goals simp [point, Point.change?, Point.tickets, Point.owed?]
  | @concludes change _ written published =>
    have calm := s.world.noteAll_quiet ctx spans (change.quiet_conclude written published)
    refine h.goOn mem calm.steady (.inl rfl) trivial ?_ ?_ ?_
    · simp [Point.change?]
    · simp [point, Point.tickets]
    · rw [point]
      exact (kept rfl).symm
  | rests =>
    refine h.goOn mem (World.Untouched.refl _).steady htarget trivial ?_ ?_ ?_
    all_goals simp [point, Point.change?, Point.tickets, Point.owed?]

/-- No request moves.  The store stays as it is, no refresh is new, and whatever is new in the cache
comes from a refresh. -/
theorem inWorld (h : s.Coherent) (service : w.service = s.world.service)
    (store : w.backend.store = s.world.backend.store)
    (refreshes : ∀ f ∈ w.refreshes, ∃ r ∈ s.world.refreshes,
      f.ticket = r.ticket ∧ f.record = r.record)
    (promptly : ∀ f ∈ w.refreshes, ∀ g ∈ f.call, g.IsPrompt)
    (pending : ∀ f ∈ w.refreshes, f.ticket ∈ s.world.tracker.pending f.record.id →
      f.ticket ∈ w.tracker.pending f.record.id)
    (cache : ∀ id x, w.backend.cache.stored? id = some x →
      s.world.backend.cache.stored? id = some x ∨
        ∃ r ∈ s.world.refreshes, r.record = x ∧ r.record.id = id) :
    Coherent { s with world := w } where
  numbered := ⟨h.numbered.asked, h.numbered.distinct⟩
  background := by
    rw [service]
    exact h.background
  target := h.target
  prompt := h.prompt
  promptly := promptly
  current := fun t ht c hc => by
    rw [store]
    exact h.current t ht c hc
  refreshes := fun f hf => by
    obtain ⟨r, hr, hticket, hrecord⟩ := refreshes f hf
    rcases h.refreshes r hr with ⟨hfound, hpending⟩ | ⟨t, ht, hwaits, howed⟩
    · rw [← hrecord] at hfound hpending
      rw [← hticket] at hpending
      exact .inl ⟨store ▸ hfound, pending f hf hpending⟩
    · exact .inr ⟨t, ht, hticket ▸ hwaits, hrecord ▸ howed⟩
  cache := fun id x hx => by
    rw [store]
    rcases cache id x hx with hold | ⟨r, hr, rfl, rfl⟩
    · exact h.cache id x hold
    · rcases h.refreshes r hr with ⟨hfound, -⟩ | ⟨t, ht, -, howed⟩
      · exact .inl hfound
      · exact .inr ⟨t, ht, howed⟩

/-- A refresh has a turn. -/
theorem turn (h : s.Coherent) (prompt : s.world.IsPrompt) {r : Refresh}
    (mem : r ∈ s.world.refreshes) (turned : World.Turned s.world r w) :
    Coherent { s with world := w } := by
  have hleft {w₁ : World} (ended : World.Ended w₁ w r.ticket)
      (same : w₁.refreshes = s.world.refreshes) {f : Refresh} (hf : f ∈ w.refreshes) :
      f ∈ s.world.refreshes ∧ f.ticket ≠ r.ticket := by
    rw [ended.refreshes, same] at hf
    simpa using hf
  cases turned with
  | calledOff aborted ended tracker =>
    refine h.inWorld ended.service (by rw [ended.backend]) ?_ ?_ ?_ ?_
    · exact fun f hf => ⟨f, (hleft ended rfl hf).1, rfl, rfl⟩
    · exact fun f hf => h.promptly f (hleft ended rfl hf).1
    · exact fun f _ hpending => tracker ▸ hpending
    · exact fun id x hx => .inl (ended.backend ▸ hx)
  | @waits w₁ g live visit =>
    cases World.visited_promptly prompt.port (h.promptly r mem) visit with
    | waits calm still =>
      have hkept (f : Refresh) (hf : f ∈ (w₁.keepCall r g).refreshes) :
          f ∈ s.world.refreshes ∨ f = { r with call := some g } := by
        obtain ⟨f', hf', rfl⟩ := List.mem_map.mp hf
        split
        · exact .inr rfl
        · exact .inl (calm.refreshes ▸ hf')
      refine h.inWorld calm.service (by rw [← calm.backend]; rfl) ?_ ?_ ?_ ?_
      · intro f hf
        rcases hkept f hf with hf | rfl
        · exact ⟨f, hf, rfl, rfl⟩
        · exact ⟨r, mem, rfl, rfl⟩
      · intro f hf
        rcases hkept f hf with hf | rfl
        · exact h.promptly f hf
        · simpa using still
      · exact fun f _ hpending => calm.tracker ▸ hpending
      · exact fun id x hx => .inl (calm.backend ▸ hx)
  | @ends w₁ _ reply live visit ended tracker =>
    -- the call replies in the moment of its effect, so now or never the record gets into the cache
    have hports : World.Alike s.world w₁ ∧ w₁.backend.store = s.world.backend.store ∧
        ∀ id x, w₁.backend.cache.stored? id = some x →
          s.world.backend.cache.stored? id = some x ∨ r.record = x ∧ r.record.id = id := by
      cases World.visited_promptly prompt.port (h.promptly r mem) visit with
      | fails calm =>
        exact ⟨calm.toAlike, by rw [calm.backend], fun id x hx => .inl (calm.backend ▸ hx)⟩
      | answers alike backend served =>
        rw [backend]
        exact ⟨alike, Backend.store_serve fun _ _ => rfl, fun id x => Backend.stored?_serve_keep⟩
    obtain ⟨alike, store, cache⟩ := hports
    refine h.inWorld (ended.service.trans alike.service) ?_ ?_ ?_ ?_ ?_
    · rw [ended.backend, store]
    · exact fun f hf => ⟨f, (hleft ended alike.refreshes hf).1, rfl, rfl⟩
    · exact fun f hf => h.promptly f (hleft ended alike.refreshes hf).1
    · intro f hf hpending
      rw [tracker, RefreshTracker.pending_finish, alike.tracker]
      split
      · rename_i heq
        rw [heq] at hpending
        simpa [(hleft ended alike.refreshes hf).2] using hpending
      · exact hpending
    · intro id x hx
      rw [ended.backend] at hx
      exact (cache id x hx).imp_right fun hnew => ⟨r, mem, hnew⟩
  | breaks live visit ended tracker =>
    cases World.visited_promptly prompt.port (h.promptly r mem) visit with
    | breaks calm served =>
      refine h.inWorld (ended.service.trans calm.service) ?_ ?_ ?_ ?_ ?_
      · rw [ended.backend, calm.backend]
      · exact fun f hf => ⟨f, (hleft ended calm.refreshes hf).1, rfl, rfl⟩
      · exact fun f hf => h.promptly f (hleft ended calm.refreshes hf).1
      · intro f _ hpending
        rw [tracker, calm.tracker]
        exact hpending
      · intro id x hx
        rw [ended.backend, calm.backend] at hx
        exact .inl hx

/-- A caller asks something. -/
theorem start (h : s.Coherent) (ctx : Context) (request : Request) :
    Coherent { s with
      world := (s.world.openCall ctx request).1
      threads := s.threads ++ [⟨s.asked.length, request, (s.world.openCall ctx request).2⟩]
      asked := s.asked ++ [request] } := by
  have numbered := h.numbered.start ctx request
  obtain ⟨hworld, hpoint⟩ := s.world.openCall_spec ctx request
  generalize s.world.openCall ctx request = opened at *
  obtain ⟨w, call⟩ := opened
  subst hworld
  have hnew : (call.point.isFinished = true ∨ call.point.target? = request.target?) ∧
      call.point.IsPrompt ∧ call.point.change? = none := by
    obtain ⟨ask, hbegin, hask⟩ | ⟨outcome, -, hfinished⟩ := hpoint
    · obtain ⟨htarget, hprompt⟩ := (Service.begin_spec hbegin).target?
      rw [show call.point = .asking ask none from hask]
      exact ⟨.inr htarget, ⟨hprompt, by simp⟩, rfl⟩
    · rw [show call.point = .finished outcome from hfinished]
      exact ⟨.inl rfl, trivial, rfl⟩
  obtain ⟨htarget, hprompt, hchange⟩ := hnew
  have hcases {t : Thread} (ht : t ∈ s.threads ++ [⟨s.asked.length, request, call⟩]) :
      t ∈ s.threads ∨ t = ⟨s.asked.length, request, call⟩ := by
    simpa using ht
  refine ⟨numbered, h.background, fun t ht => ?_, fun t ht => ?_, h.promptly, fun t ht => ?_,
    fun r hr => ?_, fun id r hr => ?_⟩
  · rcases hcases ht with ht | rfl
    · exact h.target t ht
    · exact htarget
  · rcases hcases ht with ht | rfl
    · exact h.prompt t ht
    · exact hprompt
  · rcases hcases ht with ht | rfl
    · exact h.current t ht
    · intro c hc
      rw [show Thread.point ⟨s.asked.length, request, call⟩ = call.point from rfl, hchange] at hc
      cases hc
  · rcases h.refreshes r hr with htracked | ⟨t, ht, hawaited⟩
    · exact .inl htracked
    · exact .inr ⟨t, List.mem_append_left _ ht, hawaited⟩
  · rcases h.cache id r hr with hfound | ⟨t, ht, howed⟩
    · exact .inl hfound
    · exact .inr ⟨t, List.mem_append_left _ ht, howed⟩

/-- Every act that is in order keeps the invariant. -/
theorem step {s' : Scene} (h : s.Coherent) (orderly : Orderly s s') (step : Step s s') :
    s'.Coherent := by
  -- a request that ends, one way or another, owes nothing
  have hkept {t : Thread} (mem : t ∈ s.threads)
      (gone : ∀ u ∈ s'.threads, u.key = t.key → u.point.isFinished = true) :
      t.point.owed? = none := by
    cases howed : t.point.owed? with
    | none => rfl
    | some id =>
      obtain ⟨u, hu, hkey, hrunning⟩ := orderly.kept t mem (by rw [howed]; rfl)
      rw [gone u hu hkey] at hrunning
      cases hrunning
  cases step with
  | start ctx request => exact h.start ctx request
  | @stride t w p side mem eq =>
    refine h.stride orderly.prompt orderly.exclusive mem (fun hp => ?_) (World.strode eq)
    refine hkept mem fun u hu hkey => ?_
    rcases mem_put hu with rfl | ⟨-, hne⟩
    · exact hp
    · exact absurd hkey hne
  | breakDown side mem eq =>
    refine h.without mem (World.strode eq).untouched.steady ?_
    exact hkept mem fun u hu hkey => by simp [hkey] at hu
  | leave mem =>
    refine h.without mem (World.Untouched.refl s.world).steady ?_
    exact hkept mem fun u hu hkey => by simp [hkey] at hu
  | turn mem => exact h.turn orderly.prompt mem (s.world.turn_spec _)
  | elapse elapsed =>
    refine h.inWorld elapsed.service (by rw [elapsed.backend]) ?_ ?_ ?_ ?_
    · exact fun f hf => ⟨f, elapsed.refreshes ▸ hf, rfl, rfl⟩
    · exact elapsed.refreshes ▸ h.promptly
    · exact fun f _ hpending => elapsed.tracker ▸ hpending
    · exact fun id x hx => .inl (elapsed.backend ▸ hx)

/-- At first nothing is under way, and the cache agrees with the store. -/
theorem init {s₀ : Scene} (fresh : s₀.IsFresh)
    (background : s₀.world.service.config.cacheRefresh = .background)
    (agrees : ∀ id r, s₀.world.backend.cache.stored? id = some r →
      s₀.world.backend.store.find id = .ok r) : s₀.Coherent where
  numbered := ⟨by simp [fresh.threads], by simp [fresh.threads]⟩
  background := background
  target := by simp [fresh.threads]
  prompt := by simp [fresh.threads]
  promptly := by simp [fresh.refreshes]
  current := by simp [fresh.threads]
  refreshes := by simp [fresh.refreshes]
  cache := fun id r hr => .inl (agrees id r hr)

end Coherent

/-- In an orderly interleaving, whenever no request under way is to change a record, the cache holds
the record as it is in the store or not at all, and every refresh of the record that has not ended
carries it as it is in the store. -/
theorem cache_agrees_with_store {s₀ s : Scene} (fresh : s₀.IsFresh)
    (background : s₀.world.service.config.cacheRefresh = .background)
    (agrees : ∀ id r, s₀.world.backend.cache.stored? id = some r →
      s₀.world.backend.store.find id = .ok r)
    (run : Reaches Orderly s₀ s) {id : RecordId} (idle : ∀ t ∈ s.threads, t.written? ≠ some id) :
    (∀ r, s.world.backend.cache.stored? id = some r → s.world.backend.store.find id = .ok r) ∧
      ∀ f ∈ s.world.refreshes, f.record.id = id →
        s.world.backend.store.find id = .ok f.record := by
  have h : s.Coherent := run.induct (.init fresh background agrees)
    fun s a h orderly => h.step orderly (s.step_act a)
  have hnone {t : Thread} (ht : t ∈ s.threads) : t.point.owed? ≠ some id := fun howed => by
    obtain ⟨change, hchange, hid⟩ := Point.recordId_of_owed? howed
    exact idle t ht (hid ▸ h.written_of_change ht hchange)
  constructor
  · intro r hr
    rcases h.cache id r hr with hfound | ⟨t, ht, howed⟩
    · exact hfound
    · exact absurd howed (hnone ht)
  · rintro f hf rfl
    rcases h.refreshes f hf with ⟨hfound, -⟩ | ⟨t, ht, -, howed⟩
    · exact hfound
    · exact absurd howed (hnone ht)

/-- A record is read twice and updated meanwhile.  One read finds it before the update, and its
refresh is called off; the other finds it afterwards, and its refresh is not over in the end. -/
def readsAroundUpdate : List Act :=
  let id := oldRecord.id
  [.start {} (.get id), .look 0 .cache, .look 0 .cache, .start {} (.get id), .look 1 .cache,
    .start {} (.update id relabeling), .look 2 .cache, .look 2 .cache, .look 1 .cache,
    .look 2 .cache, .turn 0, .look 2 .cache, .look 2 .cache, .look 2 .bus, .look 2 .cache]

theorem cache_agrees_after_readsAroundUpdate :
    withOldRecord.Allows Orderly readsAroundUpdate ∧
      let s := withOldRecord.perform readsAroundUpdate
      (s.world.backend.cache.stored? oldRecord.id).isSome = true ∧ s.world.refreshes ≠ [] ∧
      (∀ r, s.world.backend.cache.stored? oldRecord.id = some r →
        s.world.backend.store.find oldRecord.id = .ok r) ∧
      ∀ f ∈ s.world.refreshes, f.record.id = oldRecord.id →
        s.world.backend.store.find oldRecord.id = .ok f.record := by
  have hallowed : withOldRecord.Allows Orderly readsAroundUpdate := by decide
  have hcached : ((withOldRecord.perform readsAroundUpdate).world.backend.cache.stored?
      oldRecord.id).isSome = true := by decide
  have hrefreshes : (withOldRecord.perform readsAroundUpdate).world.refreshes.length = 1 := by
    decide
  refine ⟨hallowed, hcached, fun hnil => by simp [hnil] at hrefreshes, ?_⟩
  exact cache_agrees_with_store isFresh_withOldRecord rfl (by intro id r h; cases h)
    (reaches_perform hallowed) (by decide)

end Scene

end Simulation

end CacheAside
