import CacheAside.Proofs.Interleaving.Scene
import CacheAside.Proofs.Tracker

/-!
# What strides and turns do

One inversion lemma for each thing that goes on in a scene: the start of a request
(`World.openCall_spec`), what follows a reply (`World.resume_spec`), a wait for refreshes
(`World.settle_spec`), the stride of a request (`World.stride_spec`) and the turn of a refresh
(`World.turn_spec`).  Whatever else is shown about interleavings rests on these.
-/

namespace CacheAside

/-- The note starts no refresh. -/
def Note.IsQuiet : Note → Prop
  | .refresh _ => False
  | _ => True

theorem Service.quiet_refillNotes (r : Record) (reply : Except CacheError Unit) :
    ∀ n ∈ refillNotes r reply, n.IsQuiet := by
  cases reply <;> simp [refillNotes, Note.IsQuiet]

/-- A reply starts a refresh only if it is the record that a read was waiting for. -/
theorem Service.quiet_resume (s : Service) (ask : Ask) (reply : ask.call.Reply)
    (h : ∀ id, ask ≠ .fetching id) : ∀ n ∈ (s.resume ask reply).1, n.IsQuiet := by
  cases ask with
  | fetching id => exact absurd rfl (h id)
  | lookingUp id =>
    match reply with
    | .ok (some r) => simp [resume, Note.IsQuiet]
    | .ok none => simp [resume, Note.IsQuiet]
    | .error (.interrupted cause) => simp [resume]
    | .error (.backend message) => simp [resume, Note.IsQuiet]
  | refilling r => exact quiet_refillNotes r reply
  | listing page => cases reply <;> simp [resume, Note.IsQuiet]
  | inserting candidate => cases reply <;> simp [resume]
  | loading id merger => cases reply <;> simp [resume]
  | replacing merged => cases reply <;> simp [resume]
  | removing id =>
    match reply with
    | .ok () => simp [resume]
    | .error e => simp [resume]

/-- A record that is accepted has passed the rules. -/
theorem Service.accept_spec (s : Service) (r : Record) (next : Stage) :
    (s.limits.check r = .ok () ∧ s.accept r next = next) ∨
      ∃ outcome, s.accept r next = .finished outcome := by
  unfold accept
  split
  · rename_i hcheck
    exact .inl ⟨hcheck, rfl⟩
  · exact .inr ⟨_, rfl⟩

/-- A merged record that goes on to the store has passed the rules and kept its identifier. -/
theorem Service.merged_spec (s : Service) (id : RecordId) (merger : Merger) (stored : Record) :
    (∃ new, s.limits.check new = .ok () ∧ new.id = id ∧
        s.merged id merger stored = .asking (.replacing new)) ∨
      ∃ outcome, s.merged id merger stored = .finished outcome := by
  unfold merged
  split
  · exact .inr ⟨_, rfl⟩
  · rename_i new hmerge
    split
    · rename_i hid
      obtain ⟨hcheck, heq⟩ | ⟨outcome, heq⟩ := s.accept_spec new (.asking (.replacing new))
      · exact .inl ⟨new, hcheck, hid, heq⟩
      · exact .inr ⟨outcome, heq⟩
    · exact .inr ⟨_, rfl⟩

/-- The first question of a request. -/
inductive Service.Begun (s : Service) : Request → Ask → Prop where
  | list (page : Page) : Begun s (.list page) (.listing page)
  | get (id : RecordId) : Begun s (.get id) (.lookingUp id)
  | create {candidate : Record} (checked : s.limits.check candidate = .ok ()) :
      Begun s (.create candidate) (.inserting candidate)
  | update (id : RecordId) (merger : Merger) : Begun s (.update id merger) (.loading id merger)
  | delete (id : RecordId) : Begun s (.delete id) (.removing id)

theorem Service.begin_spec {s : Service} {request : Request} {ask : Ask}
    (h : s.begin request = .asking ask) : s.Begun request ask := by
  cases request with
  | list page =>
    cases h
    exact .list page
  | get id =>
    cases h
    exact .get id
  | create candidate =>
    obtain ⟨hcheck, haccept⟩ | ⟨outcome, haccept⟩ :=
      s.accept_spec candidate (.asking (.inserting candidate))
    · cases haccept.symm.trans h
      exact .create hcheck
    · cases haccept.symm.trans h
  | update id merger =>
    simp only [begin] at h
    split at h
    · cases h
      exact .update id merger
    · cases h
  | delete id =>
    cases h
    exact .delete id

/-- A question that follows a reply. -/
inductive Service.Follows (s : Service) : (ask : Ask) → ask.call.Reply → Ask → Prop where
  | fetches {id : RecordId} {reply : (PortCall.lookUp id).Reply} :
      Follows s (.lookingUp id) reply (.fetching id)
  | refills {id : RecordId} {r : Record} (inlined : s.config.cacheRefresh = .inlined) :
      Follows s (.fetching id) (.ok r) (.refilling r)
  | replaces {id : RecordId} {merger : Merger} {r new : Record} (same : new.id = id)
      (checked : s.limits.check new = .ok ()) :
      Follows s (.loading id merger) (.ok r) (.replacing new)

theorem Service.follows_of_resume {s : Service} {ask ask' : Ask} {reply : ask.call.Reply}
    (h : (s.resume ask reply).2 = .asking ask') : s.Follows ask reply ask' := by
  cases ask with
  | lookingUp id =>
    match reply with
    | .ok (some r) => cases h
    | .error (.interrupted cause) => cases h
    | .ok none =>
      cases h
      exact .fetches
    | .error (.backend message) =>
      cases h
      exact .fetches
  | fetching id =>
    cases reply with
    | ok r =>
      simp only [resume, refill] at h
      split at h
      · rename_i inlined
        cases h
        exact .refills inlined
      · cases h
    | error e => cases h
  | loading id merger =>
    cases reply with
    | ok r =>
      obtain ⟨new, hcheck, hid, hmerged⟩ | ⟨outcome, hmerged⟩ := s.merged_spec id merger r
      · cases hmerged.symm.trans h
        exact .replaces hid hcheck
      · cases hmerged.symm.trans h
    | error e => cases h
  | listing page => cases reply <;> cases h
  | refilling r => cases h
  | inserting candidate => cases reply <;> cases h
  | replacing merged => cases reply <;> cases h
  | removing id =>
    match reply with
    | .ok () => cases h
    | .error e => cases h

theorem DomainEvent.quiet_cacheNotes (change : DomainEvent) (written : Except CacheError Unit) :
    ∀ n ∈ change.cacheNotes written, n.IsQuiet := by
  cases change <;> cases written <;> simp [cacheNotes, Note.IsQuiet]

theorem DomainEvent.quiet_conclude (change : DomainEvent) (written : Except CacheError Unit)
    (published : Except EventError Unit) :
    ∀ n ∈ (change.conclude written published).1, n.IsQuiet := by
  cases change <;> cases written <;> cases published <;> simp [conclude, Note.IsQuiet]

namespace Simulation.World

theorem noteAll_quiet (w : World) (ctx : Context) (spans : List Span) {notes : List Note}
    (h : ∀ n ∈ notes, n.IsQuiet) : Untouched w (w.noteAll ctx spans notes) := by
  induction notes generalizing w with
  | nil => exact Untouched.refl w
  | cons n notes ih =>
    obtain ⟨hn, hnotes⟩ := List.forall_mem_cons.mp h
    have hfirst : Untouched w (w.note ctx spans n) := by
      cases n with
      | said remark => exact ⟨⟨⟨rfl, rfl, rfl⟩, rfl, rfl⟩, rfl⟩
      | swallowed failure => exact ⟨⟨⟨rfl, rfl, rfl⟩, rfl, rfl⟩, rfl⟩
      -- the only note that touches more than logs and counts
      | refresh r => exact hn.elim
    exact hfirst.trans (ih (w.note ctx spans n) hnotes)

/-! ## Starts and replies -/

/-- A request begins with a question or is refused, and leaves the world as it is. -/
theorem openCall_spec (w : World) (ctx : Context) (request : Request) :
    (w.openCall ctx request).1 = w ∧
      ((∃ ask, w.service.begin request = .asking ask ∧
          (w.openCall ctx request).2.point = .asking ask none) ∨
        ∃ outcome, w.service.begin request = .finished outcome ∧
          (w.openCall ctx request).2.point = .finished outcome) := by
  have hstage : (∃ ask, w.service.begin request = .asking ask) ∨
      ∃ outcome, w.service.begin request = .finished outcome := by
    cases request with
    | list page => exact .inl ⟨_, rfl⟩
    | get id => exact .inl ⟨_, rfl⟩
    | create candidate =>
      exact (w.service.accept_spec candidate _).imp (fun h => ⟨_, h.2⟩) id
    | update id merger =>
      simp only [Service.begin]
      split
      · exact .inl ⟨_, rfl⟩
      · exact .inr ⟨_, rfl⟩
    | delete id => exact .inl ⟨_, rfl⟩
  obtain ⟨ask, h⟩ | ⟨outcome, h⟩ := hstage
  · simp [openCall, h, reach]
  · simp [openCall, h, reach]

/-- What follows a reply: what becomes of the world, and of the point where the request stands. -/
inductive Resumed (w : World) (ctx : Context) :
    (ask : Ask) → ask.call.Reply → World → Point → Prop where
  | asks {ask ask' : Ask} {reply : ask.call.Reply} {w' : World} (calm : Untouched w w')
      (quiet : ask.call.change? reply = none)
      (next : (w.service.resume ask reply).2 = .asking ask') :
      Resumed w ctx ask reply w' (.asking ask' none)
  | finishes {ask : Ask} {reply : ask.call.Reply} {w' : World} {outcome : Outcome}
      (calm : Untouched w w') (quiet : ask.call.change? reply = none)
      (next : (w.service.resume ask reply).2 = .finished outcome) :
      Resumed w ctx ask reply w' (.finished outcome)
  /-- A refresh starts. -/
  | spawns {id : RecordId} {r : Record} {w' : World} (spans : List Span)
      (background : w.service.config.cacheRefresh = .background) (coeval : Coeval w w')
      (backend : w'.backend = w.backend) (tracker : w'.tracker = (w.tracker.spawn r.id).2)
      (refreshes : w'.refreshes = w.refreshes ++ [{
        ticket := w.tracker.next
        record := r
        ctx := ctx.withTimeout w.now w.service.config.refreshTimeout
        spans }]) :
      Resumed w ctx (.fetching id) (.ok r) w' (.finished (.ok (.record r)))
  | announces {candidate r : Record} :
      Resumed w ctx (.inserting candidate) (.ok r) w
        (.announcing (.created r) true (.waiting none) (.waiting none))
  /-- The refreshes of the record are taken off the list. -/
  | settles {ask : Ask} {reply : ask.call.Reply} {change : DomainEvent}
      (made : ask.call.change? reply = some change) (later : ∀ r, change ≠ .created r) :
      Resumed w ctx ask reply { w with tracker := (w.tracker.take change.recordId).2 }
        (.settling change (w.tracker.pending change.recordId))

/-- A refresh starts with the context of its read, but has a time limit of its own. -/
theorem spawn_spec (w : World) (ctx : Context) (spans : List Span) (r : Record) :
    Coeval w (w.spawn ctx spans r) ∧ (w.spawn ctx spans r).backend = w.backend ∧
      (w.spawn ctx spans r).tracker = (w.tracker.spawn r.id).2 ∧
      (w.spawn ctx spans r).refreshes = w.refreshes ++ [{
        ticket := w.tracker.next
        record := r
        ctx := ctx.withTimeout w.now w.service.config.refreshTimeout
        spans }] := by
  unfold spawn wake
  dsimp only
  split <;> exact ⟨⟨rfl, rfl, rfl⟩, rfl, rfl, rfl⟩

/-- What is found for a read is put into the cache at once or in the background. -/
theorem refill_spec (w : World) (ctx : Context) (spans : List Span) (id : RecordId) (r : Record) :
    Resumed w ctx (.fetching id) (.ok r)
      ((w.noteAll ctx spans (w.service.refill r).1).reach (w.service.refill r).2).1
      ((w.noteAll ctx spans (w.service.refill r).1).reach (w.service.refill r).2).2 := by
  cases hmode : w.service.config.cacheRefresh with
  | inlined =>
    simp only [Service.refill, hmode]
    exact .asks (Untouched.refl w) rfl (by simp [Service.resume, Service.refill, hmode])
  | background =>
    simp only [Service.refill, hmode]
    obtain ⟨coeval, backend, tracker, refreshes⟩ := w.spawn_spec ctx spans r
    exact .spawns spans hmode coeval backend tracker refreshes

theorem resume_spec (w : World) (ctx : Context) (spans : List Span) (ask : Ask)
    (reply : ask.call.Reply) :
    Resumed w ctx ask reply
      ((w.noteAll ctx spans (w.service.resume ask reply).1).reach
        (w.service.resume ask reply).2).1
      ((w.noteAll ctx spans (w.service.resume ask reply).1).reach
        (w.service.resume ask reply).2).2 := by
  -- after any reply but that of the store to a read, the notes start no refresh
  have calm (h : ∀ id, ask ≠ .fetching id) :
      Untouched w (w.noteAll ctx spans (w.service.resume ask reply).1) :=
    w.noteAll_quiet ctx spans (w.service.quiet_resume ask reply h)
  cases ask with
  | fetching id =>
    cases reply with
    | ok r => exact w.refill_spec ctx spans id r
    | error e => exact .finishes (Untouched.refl w) rfl rfl
  | listing page => cases reply <;> exact .finishes (calm (by simp)) rfl rfl
  | lookingUp id =>
    match reply with
    | .ok (some r) => exact .finishes (calm (by simp)) rfl rfl
    | .ok none => exact .asks (calm (by simp)) rfl rfl
    | .error (.interrupted cause) => exact .finishes (calm (by simp)) rfl rfl
    | .error (.backend message) => exact .asks (calm (by simp)) rfl rfl
  | refilling r => exact .finishes (calm (by simp)) rfl rfl
  | inserting candidate =>
    cases reply with
    | ok r => exact .announces
    | error e => exact .finishes (Untouched.refl w) rfl rfl
  | loading id merger =>
    cases reply with
    | ok r =>
      obtain ⟨new, -, -, h⟩ | ⟨outcome, h⟩ := w.service.merged_spec id merger r
      · simp only [Service.resume, h]
        exact .asks (Untouched.refl w) rfl h
      · simp only [Service.resume, h]
        exact .finishes (Untouched.refl w) rfl h
    | error e => exact .finishes (Untouched.refl w) rfl rfl
  | replacing merged =>
    cases reply with
    | ok r => exact .settles rfl (by simp)
    | error e => exact .finishes (Untouched.refl w) rfl rfl
  | removing id =>
    match reply with
    | .ok () => exact .settles rfl (by simp)
    | .error e => exact .finishes (Untouched.refl w) rfl rfl

/-! ## Waiting for refreshes -/

/-- What a wait for refreshes does.  Those that have ended are crossed off the list, and the first
of the others is called off. -/
structure Settled (w w' : World) (tickets left : List Ticket) : Prop extends Coeval w w' where
  backend : w'.backend = w.backend
  tracker : w'.tracker = w.tracker
  /-- No refresh has changed but for being called off. -/
  refreshes : ∀ r' ∈ w'.refreshes, ∃ r ∈ w.refreshes,
    r' = r ∨ r.ticket ∈ left ∧ r' = { r with aborted := true }
  fewer : ∀ ticket ∈ left, ticket ∈ tickets
  /-- Whatever has not ended is still waited for. -/
  alive : ∀ r ∈ w.refreshes, r.ticket ∈ tickets → r.ticket ∈ left

theorem abort_spec (w : World) (ticket : Ticket) :
    Coeval w (w.abort ticket) ∧ (w.abort ticket).backend = w.backend ∧
      (w.abort ticket).tracker = w.tracker ∧
      (w.abort ticket).refreshes =
        w.refreshes.map fun r => if r.ticket = ticket then { r with aborted := true } else r := by
  unfold abort wake
  dsimp only
  split <;> exact ⟨⟨rfl, rfl, rfl⟩, rfl, rfl, rfl⟩

theorem settle_spec (w : World) (tickets : List Ticket) :
    Settled w (w.settle tickets).1 tickets (w.settle tickets).2 := by
  induction tickets with
  | nil => exact ⟨⟨rfl, rfl, rfl⟩, rfl, rfl, fun r h => ⟨r, h, .inl rfl⟩, by simp [settle], by simp⟩
  | cons ticket tickets ih =>
    simp only [settle]
    split
    · -- the first refresh is alive: it is called off, and nothing is crossed off the list
      obtain ⟨coeval, backend, tracker, refreshes⟩ := w.abort_spec ticket
      refine ⟨coeval, backend, tracker, fun r' hr' => ?_, fun _ h => h, fun _ _ h => h⟩
      rw [refreshes] at hr'
      obtain ⟨r, hr, rfl⟩ := List.mem_map.mp hr'
      split
      · rename_i hticket
        exact ⟨r, hr, .inr ⟨by simp [hticket], rfl⟩⟩
      · exact ⟨r, hr, .inl rfl⟩
    · -- it has ended, so no refresh bears its number
      rename_i hended
      refine { ih with
        fewer := fun t h => List.mem_cons_of_mem _ (ih.fewer t h)
        alive := fun r hr h => ?_ }
      rcases List.mem_cons.mp h with h | h
      · exact absurd (List.any_eq_true.mpr ⟨r, hr, by simp [h]⟩) hended
      · exact ih.alive r hr h

/-! ## Strides -/

/-- What a stride can make of a request: of the world, and of the point where it stands. -/
inductive Strode (w : World) (ctx : Context) (spans : List Span) :
    Point → World → Option Point → Prop where
  | asksOn {ask : Ask} {g : Option (Guarded ask.call)} {w' : World} {g' : Guarded ask.call}
      (visit : w.visit none ctx spans g = (w', .pending g')) :
      Strode w ctx spans (.asking ask g) w' (some (.asking ask (some g')))
  | askBreaks {ask : Ask} {g : Option (Guarded ask.call)} {w' : World}
      (visit : w.visit none ctx spans g = (w', .broken)) :
      Strode w ctx spans (.asking ask g) w' none
  | resumes {ask : Ask} {g : Option (Guarded ask.call)} {w₁ w' : World} {reply : ask.call.Reply}
      {point : Point} (visit : w.visit none ctx spans g = (w₁, .ready reply))
      (resumed : Resumed w₁ ctx ask reply w' point) :
      Strode w ctx spans (.asking ask g) w' (some point)
  | settlesOn {change : DomainEvent} {tickets left : List Ticket} {w' : World}
      (settled : Settled w w' tickets left) :
      Strode w ctx spans (.settling change tickets) w' (some (.settling change left))
  | settled {change : DomainEvent} {tickets : List Ticket} {w' : World}
      (settled : Settled w w' tickets []) :
      Strode w ctx spans (.settling change tickets) w'
        (some (.announcing change true (.waiting none) (.waiting none)))
  | cacheWaits {change : DomainEvent} {f : Bool} {g} {events : Branch (.publish change)}
      {w' : World} {g' : Guarded (.writeCache change.cacheWrite)}
      (visit : w.visit none ctx spans g = (w', .pending g')) :
      Strode w ctx spans (.announcing change f (.waiting g) events) w'
        (some (.announcing change true (.waiting (some g')) events))
  | cacheTold {change : DomainEvent} {f : Bool} {g} {events : Branch (.publish change)}
      {w₁ : World} {reply : (PortCall.writeCache change.cacheWrite).Reply}
      (visit : w.visit none ctx spans g = (w₁, .ready reply)) :
      Strode w ctx spans (.announcing change f (.waiting g) events)
        (w₁.noteAll ctx spans (change.cacheNotes reply))
        (some (.announcing change true (.replied reply) events))
  | cacheBreaks {change : DomainEvent} {f : Bool}
      {g : Option (Guarded (.writeCache change.cacheWrite))} {events : Branch (.publish change)}
      {w' : World}
      (visit : w.visit none ctx spans g = (w', .broken)) :
      Strode w ctx spans (.announcing change f (.waiting g) events) w' none
  | busWaits {change : DomainEvent} {f : Bool} {g}
      {cache : Branch (.writeCache change.cacheWrite)} {w' : World}
      {g' : Guarded (.publish change)}
      (visit : w.visit none ctx spans g = (w', .pending g')) :
      Strode w ctx spans (.announcing change f cache (.waiting g)) w'
        (some (.announcing change false cache (.waiting (some g'))))
  | busTold {change : DomainEvent} {f : Bool} {g}
      {cache : Branch (.writeCache change.cacheWrite)} {w' : World}
      {reply : (PortCall.publish change).Reply}
      (visit : w.visit none ctx spans g = (w', .ready reply)) :
      Strode w ctx spans (.announcing change f cache (.waiting g)) w'
        (some (.announcing change false cache (.replied reply)))
  | busBreaks {change : DomainEvent} {f : Bool} {g : Option (Guarded (.publish change))}
      {cache : Branch (.writeCache change.cacheWrite)} {w' : World}
      (visit : w.visit none ctx spans g = (w', .broken)) :
      Strode w ctx spans (.announcing change f cache (.waiting g)) w' none
  /-- The side that was looked at has replied before. -/
  | skips {change : DomainEvent} {f f' : Bool} {cache : Branch (.writeCache change.cacheWrite)}
      {events : Branch (.publish change)} :
      Strode w ctx spans (.announcing change f cache events) w
        (some (.announcing change f' cache events))
  | concludes {change : DomainEvent} {f : Bool} {written : Except CacheError Unit}
      {published : Except EventError Unit} :
      Strode w ctx spans (.announcing change f (.replied written) (.replied published))
        (w.noteAll ctx spans (change.conclude written published).1)
        (some (.finished (change.conclude written published).2))
  | rests {outcome : Outcome} :
      Strode w ctx spans (.finished outcome) w (some (.finished outcome))

theorem tellCache_spec (w : World) (ctx : Context) (spans : List Span) (change : DomainEvent)
    (f : Bool) (cache : Branch (.writeCache change.cacheWrite))
    (events : Branch (.publish change)) :
    Strode w ctx spans (.announcing change f cache events)
      (w.tellCache ctx spans change cache events).1
      (w.tellCache ctx spans change cache events).2 := by
  cases cache with
  | replied reply => exact .skips
  | waiting g =>
    simp only [tellCache, pollBranch]
    rcases hvisit : w.visit none ctx spans g with ⟨w', reply | g' | _⟩
    · exact .cacheTold hvisit
    · exact .cacheWaits hvisit
    · exact .cacheBreaks hvisit

theorem tellBus_spec (w : World) (ctx : Context) (spans : List Span) (change : DomainEvent)
    (f : Bool) (cache : Branch (.writeCache change.cacheWrite))
    (events : Branch (.publish change)) :
    Strode w ctx spans (.announcing change f cache events)
      (w.tellBus ctx spans change cache events).1
      (w.tellBus ctx spans change cache events).2 := by
  cases events with
  | replied reply => exact .skips
  | waiting g =>
    simp only [tellBus, pollBranch]
    rcases hvisit : w.visit none ctx spans g with ⟨w', reply | g' | _⟩
    · exact .busTold hvisit
    · exact .busWaits hvisit
    · exact .busBreaks hvisit

theorem stride_spec (w : World) (ctx : Context) (spans : List Span) (side : Side) (p : Point) :
    Strode w ctx spans p (w.stride ctx spans side p).1 (w.stride ctx spans side p).2 := by
  cases p with
  | asking ask g =>
    simp only [stride, move]
    rcases hvisit : w.visit none ctx spans g with ⟨w₁, reply | g' | _⟩
    · exact .resumes hvisit (w₁.resume_spec ctx spans ask reply)
    · exact .asksOn hvisit
    · exact .askBreaks hvisit
  | settling change tickets =>
    simp only [stride, move]
    have hsettled := w.settle_spec tickets
    rcases hsettle : w.settle tickets with ⟨w', _ | ⟨ticket, left⟩⟩
    · rw [hsettle] at hsettled
      exact .settled hsettled
    · rw [hsettle] at hsettled
      exact .settlesOn hsettled
  | announcing change f cache events =>
    have hcache := w.tellCache_spec ctx spans change f cache events
    have hbus := w.tellBus_spec ctx spans change f cache events
    rcases cache with g | written <;> rcases events with g' | published
    -- when both have replied it does not matter which side is looked at
    case replied.replied => exact .concludes
    all_goals cases side with
    | cache => exact hcache
    | bus => exact hbus
  | finished outcome => exact .rests

/-- A request that breaks down leaves the world as it is. -/
theorem Strode.untouched {w w' : World} {ctx : Context} {spans : List Span} {p : Point}
    (h : Strode w ctx spans p w' none) : Untouched w w' := by
  cases h with
  | askBreaks visit => exact untouched_of_broken visit
  | cacheBreaks visit => exact untouched_of_broken visit
  | busBreaks visit => exact untouched_of_broken visit

theorem strode {w w' : World} {ctx : Context} {spans : List Span} {side : Side} {p : Point}
    {p' : Option Point} (stride : w.stride ctx spans side p = (w', p')) :
    Strode w ctx spans p w' p' := by
  have hspec := w.stride_spec ctx spans side p
  rwa [stride] at hspec

/-! ## Turns of refreshes -/

/-- The refresh is forgotten; the ports are as they were. -/
structure Ended (w w' : World) (ticket : Ticket) : Prop extends Coeval w w' where
  backend : w'.backend = w.backend
  refreshes : w'.refreshes = w.refreshes.filter (·.ticket ≠ ticket)

/-- What the turn of a refresh can make of the world. -/
inductive Turned (w : World) (r : Refresh) : World → Prop where
  | calledOff {w' : World} (aborted : r.aborted = true) (ended : Ended w w' r.ticket)
      (tracker : w'.tracker = w.tracker) : Turned w r w'
  | waits {w₁ : World} {g : Guarded (.writeCache (.keep r.record))} (live : r.aborted = false)
      (visit : w.visit (some r.ticket) r.ctx r.spans r.call = (w₁, .pending g)) :
      Turned w r (w₁.keepCall r g)
  | ends {w₁ w' : World} {reply : Except CacheError Unit} (live : r.aborted = false)
      (visit : w.visit (some r.ticket) r.ctx r.spans r.call = (w₁, .ready reply))
      (ended : Ended w₁ w' r.ticket)
      (tracker : w'.tracker = w₁.tracker.finish r.record.id r.ticket) : Turned w r w'
  | breaks {w₁ w' : World} (live : r.aborted = false)
      (visit : w.visit (some r.ticket) r.ctx r.spans r.call = (w₁, .broken))
      (ended : Ended w₁ w' r.ticket) (tracker : w'.tracker = w₁.tracker) : Turned w r w'

theorem turn_spec (w : World) (r : Refresh) : Turned w r (w.turn r).1 := by
  unfold turn
  split
  · rename_i haborted
    exact .calledOff haborted ⟨⟨rfl, rfl, rfl⟩, rfl, rfl⟩ rfl
  · rename_i hlive
    have hlive : r.aborted = false := by simpa using hlive
    rcases hvisit : w.visit (some r.ticket) r.ctx r.spans r.call with ⟨w₁, reply | g | _⟩
    · have calm : Untouched w₁ (w₁.noteAll r.ctx r.spans (Service.refillNotes r.record reply)) :=
        w₁.noteAll_quiet r.ctx r.spans (Service.quiet_refillNotes r.record reply)
      refine .ends hlive hvisit ⟨⟨calm.service, calm.now, calm.given⟩, calm.backend, ?_⟩ ?_
      · exact congrArg (List.filter (·.ticket ≠ r.ticket)) calm.refreshes
      · exact congrArg (RefreshTracker.finish · r.record.id r.ticket) calm.tracker
    · exact .waits hlive hvisit
    · exact .breaks hlive hvisit ⟨⟨rfl, rfl, rfl⟩, rfl, rfl⟩ rfl

end Simulation.World

end CacheAside
