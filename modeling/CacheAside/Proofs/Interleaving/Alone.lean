import CacheAside.Proofs.Changes
import CacheAside.Proofs.Interleaving.Books
import CacheAside.Proofs.Interleaving.Provenance
import CacheAside.Proofs.Interleaving.Reports

/-!
# A change on its own

While a request for a change is the only one under way, and every call replies in the moment of its
effect, the ports are as they were when it started until the store has made the change; from then on
the store holds what the change has left, and the journal gets at most the one event
(`World.Stands`).  Whatever error the request returns therefore tells what became of the store, the
cache and the journal (`Scene.Tells`).
-/

namespace CacheAside

namespace Mishap

/-- The call that failed was one of the store. -/
def isOfStore (m : Mishap) : Bool :=
  match m.call with
  | .findAll _ => true
  | .find _ => true
  | .insert _ => true
  | .replace _ => true
  | .remove _ => true
  | _ => false

/-- The call that failed was to publish an event. -/
def isPublication (m : Mishap) : Bool :=
  match m.call with
  | .publish _ => true
  | _ => false

theorem isOfStore_ofReply {store : Store} {request : Request} {ask : Ask}
    (asks : request.Asks store ask) (op : Operation) (reply : ask.call.Reply) :
    ∀ m ∈ ofReply op reply, m.isOfStore = true := by
  cases reply with
  | ok value => simp [ofReply]
  | error e => cases asks <;> simp [ofReply, isOfStore, Ask.call]

theorem any_isPublication_of_isOfStore {mishaps : List Mishap}
    (h : ∀ m ∈ mishaps, m.isOfStore = true) : mishaps.any isPublication = false := by
  refine List.any_eq_false.mpr fun m hm => ?_
  have hstore := h m hm
  unfold isOfStore at hstore
  unfold isPublication
  split at hstore <;> simp_all

end Mishap

/-- How often a publication that failed is counted when the change is all over: once for a
deletion. -/
def DomainEvent.uncaught : DomainEvent → Bool → Nat
  | .deleted _, true => 1
  | _, _ => 0

namespace Simulation

/-- The publication has failed. -/
def Branch.isLost {event : DomainEvent} : Branch (.publish event) → Bool
  | .replied (.error _) => true
  | _ => false

/-- What the journal holds of an event that is to be published.  It is at the end as soon as the
event bus has replied that all is well. -/
def Branch.Logged (silent : Bool) (before after : Journal) {event : DomainEvent} :
    Branch (.publish event) → Prop
  | .replied (.ok ()) =>
    if silent then after = before
    else ∃ envelope : EventEnvelope, envelope.event = event ∧ after = before.append envelope
  | _ => after = before

namespace World

/-- Where a request for a change stands that has started in `w₀`, when nothing else was under way:
what it has made of the ports and of the list of changes, and which of its calls have failed. -/
inductive Stands (w₀ : World) (made : List DomainEvent) (request : Request) (w : World) :
    List DomainEvent → List Mishap → Option Point → Prop where
  | asks {ask : Ask} {g : Option (Guarded ask.call)} (same : w.backend = w₀.backend)
      (counted : w.failures.eventPublish = w₀.failures.eventPublish)
      (asks : request.Asks w₀.backend.store ask) (prompt : ∀ g₀ ∈ g, g₀.IsPrompt) :
      Stands w₀ made request w made [] (some (.asking ask g))
  | refused {e : ServiceError} {heard : List Mishap} (same : w.backend = w₀.backend)
      (counted : w.failures.eventPublish = w₀.failures.eventPublish)
      (uncommitted : e.isCommitted = false) (ofStore : ∀ m ∈ heard, m.isOfStore = true)
      (blame : Mishap.returned heard = Outcome.blame (.error e)) :
      Stands w₀ made request w made heard (some (.finished (.error e)))
  | settles {change : DomainEvent} {tickets : List Ticket}
      (writes : request.Writes w₀.backend.store change w.backend.store)
      (unlogged : w.backend.journal = w₀.backend.journal)
      (counted : w.failures.eventPublish = w₀.failures.eventPublish) :
      Stands w₀ made request w (made ++ [change]) [] (some (.settling change tickets))
  | announces {change : DomainEvent} {f : Bool} {cache : Branch (.writeCache change.cacheWrite)}
      {events : Branch (.publish change)} {heard : List Mishap}
      (writes : request.Writes w₀.backend.store change w.backend.store)
      (logged : events.Logged w₀.silent w₀.backend.journal w.backend.journal)
      (counted : w.failures.eventPublish = w₀.failures.eventPublish)
      (prompt : ∀ g, events = .waiting (some g) → g.IsPrompt)
      (fails : heard.Perm (cache.mishaps request.operation ++ events.mishaps request.operation)) :
      Stands w₀ made request w (made ++ [change]) heard
        (some (.announcing change f cache events))
  | concludes {change : DomainEvent} {written : (PortCall.writeCache change.cacheWrite).Reply}
      {published : (PortCall.publish change).Reply} {outcome : Outcome} {heard : List Mishap}
      (writes : request.Writes w₀.backend.store change w.backend.store)
      (logged : (Branch.replied published).Logged w₀.silent w₀.backend.journal w.backend.journal)
      (counted : w.failures.eventPublish =
        w₀.failures.eventPublish + change.uncaught (Branch.replied published).isLost)
      (fails : heard.Perm (Mishap.ofReply request.operation written ++
        Mishap.ofReply request.operation published))
      (ends : outcome = (change.conclude written published).2) :
      Stands w₀ made request w (made ++ [change]) heard (some (.finished outcome))
  /-- The cache cannot tell when the entry would expire. -/
  | broke {change : DomainEvent} {r : Record} {heard : List Mishap}
      (writes : request.Writes w₀.backend.store change w.backend.store)
      (keeps : change.record? = some r) : Stands w₀ made request w (made ++ [change]) heard none

namespace Stands

variable {w₀ w : World} {made now : List DomainEvent} {request : Request} {heard : List Mishap}

/-! ## The store's reply -/

/-- The change that a look at a question's call shows. -/
def change? (ask : Ask) : Poll ask.call.Reply (Guarded ask.call) → Option DomainEvent
  | .ready reply => ask.call.change? reply
  | _ => none

/-- When all faults are prompt, the store makes a change in the look that shows it. -/
theorem change?_of_visit {w w' : World} {ctx : Context} {spans : List Span} {ask : Ask}
    {g : Option (Guarded ask.call)} {poll : Poll ask.call.Reply (Guarded ask.call)}
    (hw : w.IsPrompt) (hg : ∀ g₀ ∈ g, g₀.IsPrompt)
    (visit : w.visit none ctx spans g = (w', poll)) :
    w.change? ctx (.asking ask g) = change? ask poll := by
  have hfault := isPrompt_faultOf hw.port hg
  have hdelay := Fault.delayAfter_of_isPrompt hfault
  cases visited visit with
  | waits calm still before => simp [World.change?, still, change?]
  | fails calm still failed ready =>
    rw [ready hdelay]
    simp [World.change?, still, change?]
  | awaits calm still known => simp [World.change?, still, change?]
  | replies calm still known =>
    -- the reply of a prompt call is never decided before it comes
    obtain ⟨fault, timer, hflight, -⟩ := hg _ known
    cases hflight
  | answers alike acted fresh backend served decided ready =>
    have hacts : (w.faultOf g).acts = true := by
      simp only [acts, Bool.and_eq_true] at acted
      exact acted.2
    rw [ready hdelay, Fault.cover_of_isPrompt hfault hacts]
    simp [World.change?, acted, served, change?]
  | breaks calm acted served => simp [World.change?, served, change?]

section

variable {w₁ : World} (ctx : Context) (spans : List Span) {ask : Ask} {reply : ask.call.Reply}
  (counted : w₁.failures.eventPublish = w₀.failures.eventPublish)
  (asks : request.Asks w₀.backend.store ask)

include counted asks

/-- The request is refused after a reply. -/
theorem refuse {e : ServiceError} (same : w₁.backend = w₀.backend)
    (next : w₁.service.resume ask reply = ([], .finished (.error e)))
    (quiet : ask.call.change? reply = none) (uncommitted : e.isCommitted = false) :
    Stands w₀ made request
      ((w₁.noteAll ctx spans (w₁.service.resume ask reply).1).reach
        (w₁.service.resume ask reply).2).1
      (made ++ (ask.call.change? reply).toList) (Mishap.ofReply request.operation reply)
      (some ((w₁.noteAll ctx spans (w₁.service.resume ask reply).1).reach
        (w₁.service.resume ask reply).2).2) := by
  have hblame := (w₁.service.resume_fate ask reply).2
  rw [next, asks.operation] at hblame
  rw [next, quiet, Option.toList_none, List.append_nil]
  exact .refused same counted uncommitted
    (Mishap.isOfStore_ofReply asks request.operation reply) hblame.symm

/-- The store has replied to a question, and `w₁` is what it has left. -/
theorem resume (same : w.backend = w₀.backend)
    (failed : ∀ e, reply = .error e → w₁.backend = w.backend)
    (served : ∀ value, reply = .ok value → (w.servedNow ask.call).reply = some reply ∧
      w₁.backend = (w.servedNow ask.call).backend) :
    Stands w₀ made request
      ((w₁.noteAll ctx spans (w₁.service.resume ask reply).1).reach
        (w₁.service.resume ask reply).2).1
      (made ++ (ask.call.change? reply).toList) (Mishap.ofReply request.operation reply)
      (some ((w₁.noteAll ctx spans (w₁.service.resume ask reply).1).reach
        (w₁.service.resume ask reply).2).2) := by
  rcases reply with e | value
  · obtain ⟨e', next, uncommitted⟩ := w₁.service.resume_error asks e
    exact refuse ctx spans counted asks ((failed e rfl).trans same) next
      (PortCall.change?_error e) uncommitted
  obtain ⟨hreply, hback⟩ := served value rfl
  simp only [servedNow, same] at hreply hback
  have hunlogged : w₁.backend.journal = w₀.backend.journal := by
    rw [hback]
    refine Backend.journal_serve fun event hevent => ?_
    cases asks <;> cases hevent
  cases asks with
  | inserts =>
    have hwrites := Request.Writes.creates _ (Backend.serve_insert hreply)
    have hstands : Stands w₀ made _ w₁ (made ++ [.created value]) []
        (some (.announcing (.created value) true (.waiting none) (.waiting none))) :=
      .announces (hback ▸ hwrites) hunlogged counted (by simp) (List.Perm.refl _)
    exact hstands
  | @loads id merger =>
    have hfound : w₀.backend.store.find id = .ok value := Option.some.inj hreply
    rcases w₁.service.merged_change merger hfound with ⟨ask, hasks, heq⟩ | ⟨e, heq⟩
    · have hnext : w₁.service.resume (.loading id merger) (.ok value) = ([], .asking ask) :=
        congrArg (Prod.mk []) heq
      have hstands : Stands w₀ made (.update id merger) w₁ (made ++ []) []
          (some (.asking ask none)) := by
        rw [List.append_nil]
        exact .asks hback counted hasks (by simp)
      rw [hnext]
      exact hstands
    · exact refuse ctx spans counted .loads hback (congrArg (Prod.mk []) heq) rfl rfl
  | replaces found merged sameId =>
    have hwrites := Request.Writes.updates _ found merged sameId (Backend.serve_replace hreply)
    exact .settles (hback ▸ hwrites) hunlogged counted
  | removes =>
    have hwrites := Request.Writes.deletes (Backend.serve_remove hreply)
    exact .settles (hback ▸ hwrites) hunlogged counted

end

/-! ## The announcement -/

/-- A look at a write to the cache leaves the store and the journal as they are. -/
theorem visit_write {w w' : World} {ctx : Context} {spans : List Span} {write : CacheWrite}
    {g : Option (Guarded (.writeCache write))}
    {poll : Poll (PortCall.writeCache write).Reply (Guarded (.writeCache write))}
    (visit : w.visit none ctx spans g = (w', poll)) :
    w'.backend.store = w.backend.store ∧ w'.backend.journal = w.backend.journal := by
  have hcalm (calm : Untouched w w') :
      w'.backend.store = w.backend.store ∧ w'.backend.journal = w.backend.journal := by
    rw [calm.backend]
    exact ⟨rfl, rfl⟩
  cases visited visit with
  | answers alike acted fresh backend =>
    rw [backend]
    exact ⟨Backend.store_serve fun _ _ => rfl, Backend.journal_serve_write⟩
  | waits calm => exact hcalm calm
  | fails calm => exact hcalm calm
  | awaits calm => exact hcalm calm
  | replies calm => exact hcalm calm
  | breaks calm => exact hcalm calm

/-- Only a deletion that is over has counted the failure of its publication. -/
theorem eventPublish_cacheNotes (change : DomainEvent) (written : Except CacheError Unit)
    (c : FailureCounts) :
    (((change.cacheNotes written).filterMap Note.failure?).foldl FailureCounts.note
      c).eventPublish = c.eventPublish := by
  cases change <;> cases written <;> rfl

theorem eventPublish_conclude (change : DomainEvent) (written : Except CacheError Unit)
    (published : (PortCall.publish change).Reply) (c : FailureCounts) :
    (((change.conclude written published).1.filterMap Note.failure?).foldl FailureCounts.note
      c).eventPublish = c.eventPublish + change.uncaught (Branch.replied published).isLost := by
  cases change <;> cases written <;> cases published <;> rfl

/-- A publication that takes effect leaves the store as it is. -/
theorem publish_logged (w : World) {change : DomainEvent} {reply : (PortCall.publish change).Reply}
    (served : (w.servedNow (.publish change)).reply = some reply) :
    (w.servedNow (.publish change)).backend.store = w.backend.store ∧
      (Branch.replied reply).Logged w.silent w.backend.journal
        (w.servedNow (.publish change)).backend.journal := by
  cases hsilent : w.silent with
  | true =>
    simp only [servedNow, Backend.serve, circumstances, hsilent, if_true] at served ⊢
    cases served
    exact ⟨trivial, rfl⟩
  | false =>
    simp only [servedNow, Backend.serve, circumstances, hsilent, Bool.false_eq_true,
      if_false] at served ⊢
    cases served
    exact ⟨trivial, _, rfl, rfl⟩

section

variable {change : DomainEvent} {f : Bool} {cache : Branch (.writeCache change.cacheWrite)}
  {events : Branch (.publish change)}

/-- The cache is told of the change. -/
theorem tellCache
    (h : Stands w₀ made request w now heard (some (.announcing change f cache events)))
    (ctx : Context) (spans : List Span) :
    Stands w₀ made request (w.tellCache ctx spans change cache events).1 now
      (heard ++ w.hearsOf ctx spans request.operation cache)
      (w.tellCache ctx spans change cache events).2 := by
  cases h with
  | announces writes logged counted prompt fails =>
    cases cache with
    | replied reply =>
      simp only [World.tellCache, pollBranch, hearsOf, List.append_nil]
      exact .announces writes logged counted prompt fails
    | waiting g =>
      simp only [World.tellCache, pollBranch, hearsOf]
      rcases hvisit : w.visit none ctx spans g with ⟨w', reply | g' | _⟩
      all_goals
        obtain ⟨hstore, hjournal⟩ := visit_write hvisit
        have hcounted := congrArg (·.eventPublish) (quiet_of_visit hvisit).counted
        rw [← hstore] at writes
        rw [← hjournal] at logged
      · have hback := (w'.noteAll_quiet ctx spans (change.quiet_cacheNotes reply)).backend
        have hnotes := (w'.noteAll_noted ctx spans (change.cacheNotes reply)).counted
        refine .announces (hback ▸ writes) (hback ▸ logged) ?_ prompt
          ((fails.append_right _).trans List.perm_append_comm)
        rw [hnotes, eventPublish_cacheNotes]
        exact hcounted.trans counted
      · simp only [Poll.mishaps, List.append_nil]
        exact .announces writes logged (hcounted.trans counted) prompt fails
      · obtain ⟨r, hcall⟩ := eq_keep_of_broken hvisit
        cases change with
        | created r => exact .broke writes rfl
        | updated r => exact .broke writes rfl
        | deleted id => cases hcall

/-- The event bus is told of the change. -/
theorem tellBus
    (h : Stands w₀ made request w now heard (some (.announcing change f cache events)))
    (hw : w.IsPrompt) (silent : w.silent = w₀.silent) (ctx : Context) (spans : List Span) :
    Stands w₀ made request (w.tellBus ctx spans change cache events).1 now
      (heard ++ w.hearsOf ctx spans request.operation events)
      (w.tellBus ctx spans change cache events).2 := by
  cases h with
  | announces writes logged counted prompt fails =>
    cases events with
    | replied reply =>
      simp only [World.tellBus, pollBranch, hearsOf, List.append_nil]
      exact .announces writes logged counted prompt fails
    | waiting g =>
      have unlogged : w.backend.journal = w₀.backend.journal := logged
      simp only [World.tellBus, pollBranch, hearsOf]
      have hg : ∀ g₀ ∈ g, g₀.IsPrompt := fun g₀ hg₀ => prompt g₀ (by rw [hg₀])
      rcases hvisit : w.visit none ctx spans g with ⟨w', reply | g' | _⟩
      · have hcounted := congrArg (·.eventPublish) (quiet_of_visit hvisit).counted
        have hreplied (writes' : request.Writes w₀.backend.store change w'.backend.store)
            (logged' : (Branch.replied reply).Logged w₀.silent w₀.backend.journal
              w'.backend.journal) :
            Stands w₀ made request w' (made ++ [change])
              (heard ++ Mishap.ofReply request.operation reply)
              (some (.announcing change false cache (.replied reply))) := by
          simp only [Branch.mishaps, List.append_nil] at fails
          exact .announces writes' logged' (hcounted.trans counted) (by simp)
            (fails.append_right _)
        cases visited_promptly hw.port hg hvisit with
        | fails calm =>
          exact hreplied (calm.backend ▸ writes) (by rw [calm.backend]; exact unlogged)
        | answers alike backend served =>
          obtain ⟨hstore, hlogged⟩ := publish_logged w served
          rw [← backend] at hstore hlogged
          exact hreplied (hstore ▸ writes) (silent ▸ unlogged ▸ hlogged)
      · cases visited_promptly hw.port hg hvisit with
        | waits calm prompt' =>
          have hcounted := congrArg (·.eventPublish) (quiet_of_visit hvisit).counted
          have hwaits : Stands w₀ made request w' (made ++ [change]) heard
              (some (.announcing change false cache (.waiting (some g')))) :=
            .announces (calm.backend ▸ writes) (by rw [calm.backend]; exact unlogged)
              (hcounted.trans counted) (by simpa using prompt') fails
          simp only [Poll.mishaps, List.append_nil]
          exact hwaits
      · obtain ⟨r, hcall⟩ := eq_keep_of_broken hvisit
        cases hcall

end

/-! ## Strides -/

/-- The ports and the counts are as they were. -/
theorem congr {w' : World} {o : Option Point} (h : Stands w₀ made request w now heard o)
    (backend : w'.backend = w.backend)
    (counted : w'.failures.eventPublish = w.failures.eventPublish) :
    Stands w₀ made request w' now heard o := by
  cases h with
  | asks same counted' asks prompt =>
    exact .asks (backend.trans same) (counted.trans counted') asks prompt
  | refused same counted' uncommitted ofStore blame =>
    exact .refused (backend.trans same) (counted.trans counted') uncommitted ofStore blame
  | settles writes unlogged counted' =>
    exact .settles (backend ▸ writes) (backend ▸ unlogged) (counted.trans counted')
  | announces writes logged counted' prompt fails =>
    exact .announces (backend ▸ writes) (backend ▸ logged) (counted.trans counted') prompt fails
  | concludes writes logged counted' fails ends =>
    exact .concludes (backend ▸ writes) (backend ▸ logged) (counted.trans counted') fails ends
  | broke writes keeps => exact .broke (backend ▸ writes) keeps

/-- The request asks the store, or looks whether it has replied. -/
theorem ask {ask : Ask} {g : Option (Guarded ask.call)}
    (h : Stands w₀ made request w now heard (some (.asking ask g))) (hw : w.IsPrompt)
    (ctx : Context) (spans : List Span) (side : Side) :
    Stands w₀ made request (w.stride ctx spans side (.asking ask g)).1
      (now ++ (w.change? ctx (.asking ask g)).toList)
      (heard ++ w.hears ctx spans request.operation side (.asking ask g))
      (w.stride ctx spans side (.asking ask g)).2 := by
  cases h with
  | asks same counted asks prompt =>
    simp only [stride, move, hears, List.nil_append]
    rcases hvisit : w.visit none ctx spans g with ⟨w₁, reply | g' | _⟩
    all_goals
      rw [change?_of_visit hw prompt hvisit]
      have hcounted := congrArg (·.eventPublish) (quiet_of_visit hvisit).counted
    · refine resume ctx spans (hcounted.trans counted) asks same (fun e he => ?_)
        fun value hvalue => ?_
      · subst he
        cases visited_promptly hw.port prompt hvisit with
        | fails calm => exact calm.backend
        | answers alike backend served =>
          rw [backend]
          refine Backend.serve_of_not_ok fun value hvalue => ?_
          cases served.symm.trans hvalue
      · subst hvalue
        cases visited_promptly hw.port prompt hvisit with
        | answers alike backend served => exact ⟨served, backend⟩
    · cases visited_promptly hw.port prompt hvisit with
      | waits calm prompt' =>
        simp only [change?, Option.toList_none, List.append_nil]
        exact .asks (calm.backend.trans same) (hcounted.trans counted) asks (by simpa using prompt')
    · -- the store always answers
      obtain ⟨r, hcall⟩ := eq_keep_of_broken hvisit
      cases asks <;> cases hcall

/-- A stride of the request. -/
theorem stride {p : Point} (h : Stands w₀ made request w now heard (some p)) (hw : w.IsPrompt)
    (silent : w.silent = w₀.silent) (ctx : Context) (spans : List Span) (side : Side) :
    Stands w₀ made request (w.stride ctx spans side p).1 (now ++ (w.change? ctx p).toList)
      (heard ++ w.hears ctx spans request.operation side p)
      (w.stride ctx spans side p).2 := by
  cases p with
  | asking ask g => exact h.ask hw ctx spans side
  | settling change tickets =>
    simp only [World.change?, hears, Option.toList_none, List.append_nil]
    have hsettled := w.settle_spec tickets
    have hquiet := w.settle_quiet tickets
    cases h with
    | settles writes unlogged counted =>
      simp only [World.stride, move]
      rcases hsettle : w.settle tickets with ⟨w', _ | ⟨ticket, left⟩⟩
      all_goals
        rw [hsettle] at hsettled hquiet
        have hback : w'.backend = w.backend := hsettled.backend
        have hcounted := (congrArg (·.eventPublish) hquiet.counted).trans counted
      · exact .announces (hback ▸ writes) (hback ▸ unlogged) hcounted (by simp) (List.Perm.refl _)
      · exact .settles (hback ▸ writes) (hback ▸ unlogged) hcounted
  | announcing change f cache events =>
    have hcache := h.tellCache ctx spans
    have hbus := h.tellBus hw silent ctx spans
    simp only [World.change?, Option.toList_none, List.append_nil]
    rcases cache with g | written <;> rcases events with g' | published
    case replied.replied =>
      cases h with
      | announces writes logged counted prompt fails =>
        have hheard : w.hears ctx spans request.operation side
            (.announcing change f (.replied written) (.replied published)) = [] := by
          cases side <;> rfl
        have hback :=
          (w.noteAll_quiet ctx spans (change.quiet_conclude written published)).backend
        have hcounted :
            (w.noteAll ctx spans (change.conclude written published).1).failures.eventPublish =
              w₀.failures.eventPublish + change.uncaught (Branch.replied published).isLost := by
          rw [(w.noteAll_noted ctx spans (change.conclude written published).1).counted,
            eventPublish_conclude, counted]
        rw [hheard, List.append_nil]
        exact .concludes (hback ▸ writes) (hback ▸ logged) hcounted fails rfl
    all_goals cases side with
    | cache => exact hcache
    | bus => exact hbus
  | finished outcome =>
    simp only [World.stride, move, World.change?, hears, Option.toList_none, List.append_nil]
    exact h

end Stands

/-- A request for a change is no read, so it starts no refresh. -/
theorem Stands.refreshes {w₀ w w' : World} {made now : List DomainEvent} {request : Request}
    {heard : List Mishap} {p : Point} {p' : Option Point} {ctx : Context} {spans : List Span}
    (h : Stands w₀ made request w now heard (some p)) (strode : Strode w ctx spans p w' p')
    (none : w.refreshes = []) : w'.refreshes = [] := by
  cases strode.booking.2 with
  | rests tracker refreshes => rw [refreshes, none]
  | takes tracker refreshes => rw [refreshes, none]
  | spawns visit =>
    cases h with
    | asks same counted asks prompt => cases asks
  | settles settled =>
    refine List.eq_nil_iff_forall_not_mem.mpr fun r' hr' => ?_
    obtain ⟨r, hr, -⟩ := settled.refreshes r' hr'
    rw [none] at hr
    cases hr

end World

/-! ## One request after another -/

/-- The act neither starts a request nor ends the waiting for one, and whatever it does to the calls
that are to come, each of them replies in the moment of its effect. -/
def Act.IsAround : Act → Prop
  | .start _ _ => False
  | .leave _ => False
  | .setFaults faults => ∀ f ∈ faults, f.2.isPrompt = true
  | _ => True

instance : (a : Act) → Decidable a.IsAround
  | .start _ _ => .isFalse id
  | .leave _ => .isFalse id
  | .setFaults faults => inferInstanceAs (Decidable (∀ f ∈ faults, f.2.isPrompt = true))
  | .look _ _ => .isTrue trivial
  | .turn _ => .isTrue trivial
  | .pass _ => .isTrue trivial
  | .setClock _ => .isTrue trivial
  | .give _ => .isTrue trivial

namespace Scene

/-- Nothing is under way, and every call that is to come replies in the moment of its effect. -/
structure IsIdle (s : Scene) : Prop where
  threads : s.threads = []
  refreshes : s.world.refreshes = []
  prompt : s.world.IsPrompt

/-- Since `s₀` nothing but this request has been under way. -/
structure Alone (s₀ : Scene) (request : Request) (heard : List Mishap) (s : Scene) : Prop where
  asked : s.asked = s₀.asked ++ [request]
  refreshes : s.world.refreshes = []
  prompt : s.world.IsPrompt
  silent : s.world.silent = s₀.world.silent
  stands : ∃ o : Option Thread, s.threads = o.toList ∧
    (∀ t ∈ o, t.key = s₀.asked.length ∧ t.request = request) ∧
    World.Stands s₀.world s₀.changes request s.world s.changes heard (o.map (·.point))

namespace Alone

variable {s₀ s : Scene} {request : Request} {heard : List Mishap}

/-- The request starts. -/
theorem start (idle : s₀.IsIdle) (isChange : request.IsChange) (ctx : Context) :
    s₀.Alone request [] (s₀.act (.start ctx request)) := by
  obtain ⟨hworld, hpoint⟩ := s₀.world.openCall_spec ctx request
  have hbegin := s₀.world.service.begin_change s₀.world.backend.store isChange
  simp only [act, hworld, idle.threads, List.nil_append]
  refine ⟨rfl, idle.refreshes, idle.prompt, rfl,
    some ⟨s₀.asked.length, request, (s₀.world.openCall ctx request).2⟩, rfl, by simp, ?_⟩
  simp only [Option.map_some, Thread.point]
  rcases hpoint with ⟨ask, hask, hpoint⟩ | ⟨outcome, hask, hpoint⟩
  all_goals
    rw [hpoint]
    rcases hbegin with ⟨ask', hasks, heq⟩ | ⟨e, heq⟩
    all_goals cases hask.symm.trans heq
  · exact .asks rfl rfl hasks (by simp)
  · exact .refused rfl rfl rfl (by simp) rfl

/-- What happens around the request leaves the ports and the counts as they are. -/
theorem around {w : World} (h : s₀.Alone request heard s) (backend : w.backend = s.world.backend)
    (counted : w.failures = s.world.failures) (refreshes : w.refreshes = s.world.refreshes)
    (silent : w.silent = s.world.silent) (prompt : w.IsPrompt) :
    s₀.Alone request (heard ++ []) { s with world := w } where
  asked := h.asked
  refreshes := refreshes.trans h.refreshes
  prompt := prompt
  silent := silent.trans h.silent
  stands := by
    obtain ⟨o, hthreads, hkey, hstands⟩ := h.stands
    rw [List.append_nil]
    exact ⟨o, hthreads, hkey, hstands.congr backend (congrArg (·.eventPublish) counted)⟩

/-- The request makes a stride. -/
theorem look (h : s₀.Alone request heard s) {t : Thread} (mem : s.threads = [t]) (side : Side) :
    s₀.Alone request (heard ++ s.hears (.look t.key side)) (s.act (.look t.key side)) := by
  obtain ⟨o, hthreads, hkey, hstands⟩ := h.stands
  obtain rfl : o = some t := by
    cases o with
    | none => rw [hthreads] at mem; cases mem
    | some u => rw [hthreads] at mem; cases mem; rfl
  obtain ⟨op, hfor⟩ : ∃ op, t.point.stage.IsFor op := by
    cases t.point with
    | asking ask g => exact ⟨ask.operation, rfl⟩
    | settling change tickets => exact ⟨change.operation, rfl⟩
    | announcing change f cache events => exact ⟨change.operation, rfl⟩
    | finished outcome => exact ⟨.list, trivial⟩
  have hfind : s.threads.find? (·.key = t.key) = some t := by simp [mem]
  have hstride := hstands.stride h.prompt h.silent t.call.ctx t.call.spans side
  obtain ⟨told, noted⟩ := (s.world.stride_accounts t.call.ctx t.call.spans side hfor).noted
  have hnone := hstands.refreshes (s.world.stride_spec t.call.ctx t.call.spans side t.point)
    h.refreshes
  have hprompt : (s.world.stride t.call.ctx t.call.spans side t.point).1.IsPrompt :=
    fun f hf => h.prompt f (noted.faults f hf)
  have hhears : s.hears (.look t.key side) =
      s.world.hears t.call.ctx t.call.spans t.request.operation side t.point := by
    simp only [hears, hfind]
  rw [← (hkey t rfl).2, ← hhears, (hkey t rfl).2] at hstride
  have hsilent := noted.silent.trans h.silent
  rcases hnext : s.world.stride t.call.ctx t.call.spans side t.point with ⟨w, _ | q⟩
  all_goals
    rw [hnext] at hstride hnone hprompt hsilent
    simp only [act, hfind, hnext]
  · exact ⟨h.asked, hnone, hprompt, hsilent, none, by simp [mem], by simp, hstride⟩
  · refine ⟨h.asked, hnone, hprompt, hsilent, some (t.goTo q), by simp [mem, put, Thread.goTo],
      ?_, hstride⟩
    simpa [Thread.goTo] using hkey

theorem act (h : s₀.Alone request heard s) {a : Act} (isAround : a.IsAround) :
    s₀.Alone request (heard ++ s.hears a) (s.act a) := by
  cases a with
  | start ctx request => exact isAround.elim
  | leave key => exact isAround.elim
  | look key side =>
    cases hfind : s.threads.find? (·.key = key) with
    | none =>
      simp only [Scene.act, hears, hfind, List.append_nil]
      exact h
    | some t =>
      obtain rfl : t.key = key := by simpa using List.find?_some hfind
      have hmem := List.mem_of_find?_eq_some hfind
      obtain ⟨o, hthreads, -⟩ := h.stands
      refine h.look (t := t) ?_ side
      rw [hthreads] at hmem ⊢
      obtain rfl : o = some t := by simpa using hmem
      rfl
  | turn ticket =>
    have hfind : s.world.refreshes.find? (·.ticket = ticket) = none := by simp [h.refreshes]
    simp only [Scene.act, hears, hfind, List.append_nil]
    exact h
  | pass now => exact h.around rfl rfl rfl rfl h.prompt
  | setClock clock => exact h.around rfl rfl rfl rfl h.prompt
  | setFaults faults => exact h.around rfl rfl rfl rfl isAround
  | give signal => exact h.around rfl rfl rfl rfl h.prompt

theorem perform (h : s₀.Alone request heard s) {acts : List Act} (around : ∀ a ∈ acts, a.IsAround) :
    s₀.Alone request (heard ++ s.mishaps acts) (s.perform acts) := by
  induction acts generalizing s heard with
  | nil => simpa [mishaps, collect, Scene.perform] using h
  | cons a acts ih =>
    obtain ⟨ha, hacts⟩ := List.forall_mem_cons.mp around
    have hrest := ih (h.act ha) hacts
    rwa [List.append_assoc] at hrest

end Alone

/-! ## Errors -/

/-- The ports are as they were, and the store has made no change. -/
structure IsAsBefore (s s' : Scene) : Prop where
  backend : s'.world.backend = s.world.backend
  changes : s'.changes = s.changes

/-- The store has made the change of the request and holds the record that was written, but no event
was published. -/
structure HasWritten (s : Scene) (request : Request) (r : Record) (s' : Scene) : Prop where
  written : ∃ change, change.record? = some r ∧ s'.changes = s.changes ++ [change] ∧
    request.Writes s.world.backend.store change s'.world.backend.store
  found : s'.world.backend.store.find r.id = .ok r
  unlogged : s'.world.backend.journal = s.world.backend.journal

/-- What an error says about the request that has returned it, some of whose calls have failed. -/
def Tells (s : Scene) (request : Request) (heard : List Mishap) (s' : Scene) : ServiceError → Prop
  | .notFound _ => s.IsAsBefore s'
  | .validation _ => s.IsAsBefore s'
  | .store _ _ => s.IsAsBefore s'
  | .propagation op id _ =>
    op = request.operation ∧ ∃ r, r.id = id ∧ s.HasWritten request r s'
  -- either the store was interrupted or the event bus
  | .cancelled cause => ∃ m ∈ heard, m.fate = .inl (.cancelled cause) ∧
      (m.isOfStore = true ∧ s.IsAsBefore s' ∨
        m.isPublication = true ∧ ∃ r, s.HasWritten request r s')

/-- An error that comes before the commit. -/
theorem IsAsBefore.tells {s s' : Scene} {request : Request} {heard : List Mishap} {e : ServiceError}
    (h : s.IsAsBefore s') (uncommitted : e.isCommitted = false)
    (ofStore : ∀ m ∈ heard, m.isOfStore = true)
    (blame : Mishap.returned heard = Outcome.blame (.error e)) : s.Tells request heard s' e := by
  cases e with
  | notFound id => exact h
  | validation cause => exact h
  | store op cause => exact h
  | propagation op id cause => cases uncommitted
  | cancelled cause =>
    have hreturned : .cancelled cause ∈ Mishap.returned heard := by simp [blame, Outcome.blame]
    obtain ⟨m, hm, hfate⟩ := Mishap.mem_returned.mp hreturned
    exact ⟨m, hm, hfate, .inl ⟨ofStore m hm, h⟩⟩

/-- An error that comes after the commit, for a publication that has failed. -/
theorem HasWritten.tells {s s' : Scene} {request : Request} {heard : List Mishap} {r : Record}
    (h : s.HasWritten request r s') {m : Mishap} (mem : m ∈ heard)
    (publication : m.isPublication = true) {cause : EventError}
    (fate : m.fate = .inl (.ofPublish request.operation r.id cause)) :
    s.Tells request heard s' (.ofPublish request.operation r.id cause) := by
  cases cause with
  | backend message => exact ⟨rfl, r, rfl, h⟩
  | interrupted cause => exact ⟨m, mem, fate, .inr ⟨publication, r, h⟩⟩

/-- The change has been made, but the publication has failed. -/
theorem Alone.hasWritten {s₀ s : Scene} {request : Request} {change : DomainEvent} {r : Record}
    (changes : s.changes = s₀.changes ++ [change]) (kept : change.record? = some r)
    (writes : request.Writes s₀.world.backend.store change s.world.backend.store)
    (unlogged : s.world.backend.journal = s₀.world.backend.journal) :
    s₀.HasWritten request r s := by
  refine ⟨⟨change, kept, changes, writes⟩, ?_, unlogged⟩
  rw [writes.find, DomainEvent.recordId_of_record? kept, if_pos rfl]
  exact DomainEvent.found_eq_ok.mpr kept

/-- Whatever error a request has returned that was alone, it tells what was committed. -/
theorem Alone.tells {s₀ s : Scene} {request : Request} {heard : List Mishap}
    (h : s₀.Alone request heard s) {t : Thread} (mem : t ∈ s.threads) {e : ServiceError}
    (failed : t.point = .finished (.error e)) : s₀.Tells request heard s e := by
  obtain ⟨o, hthreads, -, hstands⟩ := h.stands
  obtain rfl : o = some t := by simpa [hthreads] using mem
  simp only [Option.map_some, failed] at hstands
  generalize hchanges : s.changes = now at hstands
  cases hstands with
  | refused same counted uncommitted ofStore blame =>
    exact IsAsBefore.tells ⟨same, hchanges⟩ uncommitted ofStore blame
  | @concludes change written published _ _ writes logged counted fails ends =>
    have hmem (cause : EventError) (h : published = .error cause) :
        ⟨request.operation, .publish change, cause⟩ ∈ heard := by
      simp [fails.mem_iff, h, Mishap.ofReply]
    cases change with
    | created r =>
      cases published with
      | ok value => cases ends
      | error cause =>
        cases ends
        have hwritten : s₀.HasWritten request r s := hasWritten hchanges rfl writes logged
        rw [show Operation.create = request.operation from writes.operation]
        exact hwritten.tells (hmem cause rfl) rfl rfl
    | updated r =>
      cases published with
      | ok value => cases ends
      | error cause =>
        cases ends
        have hwritten : s₀.HasWritten request r s := hasWritten hchanges rfl writes logged
        rw [show Operation.update = request.operation from writes.operation]
        exact hwritten.tells (hmem cause rfl) rfl rfl
    | deleted id => cases ends

/-- A deletion that the store has carried out does not fail any more. -/
theorem Alone.deletes {s₀ s : Scene} {id : RecordId} {heard : List Mishap}
    (h : s₀.Alone (.delete id) heard s) (committed : s.changes ≠ s₀.changes) :
    ∃ t, s.threads = [t] ∧ ∀ outcome, t.point = .finished outcome → outcome = .ok .done := by
  obtain ⟨o, hthreads, -, hstands⟩ := h.stands
  cases o with
  | none =>
    generalize s.changes = now at hstands
    cases hstands with
    | broke writes keeps =>
      cases writes
      cases keeps
  | some t =>
    refine ⟨t, hthreads, fun outcome hpoint => ?_⟩
    simp only [Option.map_some, hpoint] at hstands
    generalize s.changes = now at hstands committed
    cases hstands with
    | refused => exact absurd rfl committed
    | concludes writes logged counted fails ends =>
      cases writes
      exact ends

/-- The error of a creation, an update or a deletion tells what was committed. -/
theorem errors_tell_what_was_committed {s : Scene} (idle : s.IsIdle) {request : Request}
    (isChange : request.IsChange) (ctx : Context) {acts : List Act}
    (around : ∀ a ∈ acts, a.IsAround) :
    let run := .start ctx request :: acts
    let s' := s.perform run
    (∀ t ∈ s'.threads, ∀ e, t.point = .finished (.error e) →
      s.Tells request (s.mishaps run) s' e ∧
      (e.isCommitted = true ↔ ∃ op id cause, e = .propagation op id cause)) ∧
    ∀ id, request = .delete id → s'.changes ≠ s.changes →
      ∃ t, s'.threads = [t] ∧ ∀ outcome, t.point = .finished outcome → outcome = .ok .done := by
  intro run s'
  have halone : s.Alone request (s.mishaps run) s' :=
    (Alone.start idle isChange ctx).perform around
  refine ⟨fun t mem e failed => ⟨halone.tells mem failed, ?_⟩, ?_⟩
  · cases e <;> simp [ServiceError.isCommitted]
  · rintro id rfl
    exact halone.deletes

/-- A record is updated, but the event bus is out of order. -/
def unannouncedUpdate : List Act :=
  [.setFaults [(.publishUpdated, { error := some (.backend "out of order") })], .look 0 .cache,
    .look 0 .cache, .look 0 .cache, .look 0 .bus, .look 0 .cache, .look 0 .cache]

theorem committed_in_unannouncedUpdate :
    withOldRecord.IsIdle ∧ (∀ a ∈ unannouncedUpdate, a.IsAround) ∧
      ∃ t ∈ (withOldRecord.perform
          (.start {} (.update oldRecord.id relabeling) :: unannouncedUpdate)).threads,
        ∃ e, t.point = .finished (.error e) ∧ e.isCommitted = true ∧
          withOldRecord.Tells (.update oldRecord.id relabeling)
            (withOldRecord.mishaps
              (.start {} (.update oldRecord.id relabeling) :: unannouncedUpdate))
            (withOldRecord.perform
              (.start {} (.update oldRecord.id relabeling) :: unannouncedUpdate)) e := by
  have hidle : withOldRecord.IsIdle := ⟨rfl, rfl, by simp [World.IsPrompt, withOldRecord]⟩
  have haround : ∀ a ∈ unannouncedUpdate, a.IsAround := by decide
  have hpoints : (withOldRecord.perform
      (.start {} (.update oldRecord.id relabeling) :: unannouncedUpdate)).threads.map (·.point) =
        [.finished (.error (.propagation .update oldRecord.id (.backend "out of order")))] := rfl
  obtain ⟨t, hmem, hpoint⟩ := List.mem_map.mp (hpoints ▸ List.mem_singleton_self _)
  have isChange : (Request.update oldRecord.id relabeling).IsChange := trivial
  obtain ⟨htells, hcommitted⟩ :=
    (errors_tell_what_was_committed hidle isChange {} haround).1 t hmem _ hpoint
  exact ⟨hidle, haround, t, hmem, _, hpoint, hcommitted.mpr ⟨_, _, _, rfl⟩, htells⟩

end Scene

end Simulation

end CacheAside
