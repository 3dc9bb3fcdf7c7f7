import CacheAside.Proofs.Interleaving.Polling
import CacheAside.Proofs.Interleaving.Stride
import CacheAside.Proofs.Mishaps

/-!
# Every failure is reported once

A failed call of a port is either returned to the caller of the request that it was made for, or
noted: it then is counted once and kept among the observed failures.  What is heard of failed calls
in an act (`Scene.hears`) is set against what is noted in it (`Scene.tells`).  The two differ only
by what a deletion withholds until both the cache and the event bus have replied
(`Point.withheld`), and by what the caller gets (`Point.blame`).  `World.stride_accounts` and
`World.turn_accounts` say so of one act, and `Scene.audited` of any interleaving.
-/

namespace CacheAside

namespace FailureCounts

theorem total_note (c : FailureCounts) (failure : Failure) :
    (c.note failure).total = c.total + 1 := by
  unfold note
  split
  all_goals
    simp only [total]
    omega

theorem total_noteAll (c : FailureCounts) (failures : List Failure) :
    (failures.foldl note c).total = c.total + failures.length := by
  induction failures generalizing c with
  | nil => rfl
  | cons failure failures ih =>
    rw [List.foldl_cons, ih, total_note, List.length_cons]
    omega

end FailureCounts

@[simp] theorem DomainEvent.withheld_append (change : DomainEvent) (l l' : List Mishap) :
    change.withheld (l ++ l') = change.withheld l ++ change.withheld l' := by
  cases change with
  | deleted id => exact Mishap.swallowed_append l l'
  | created r => rfl
  | updated r => rfl

namespace Simulation

namespace World

/-! ## What is noted -/

/-- Since `w` these failures were noted: each was counted and kept. -/
structure Counted (w : World) (failures : List Failure) (w' : World) : Prop where
  observed : w'.observed = w.observed ++ failures
  counted : w'.failures = failures.foldl FailureCounts.note w.failures

/-- These failures were noted.  Events still go where they went, and no fault is new. -/
structure Noted (w : World) (failures : List Failure) (w' : World) : Prop
    extends Counted w failures w' where
  silent : w'.silent = w.silent
  faults : ∀ f ∈ w'.faults, f ∈ w.faults

/-- Nothing was noted.  Events still go where they went, and no fault is new. -/
structure Quiet (w w' : World) : Prop where
  observed : w'.observed = w.observed
  counted : w'.failures = w.failures
  silent : w'.silent = w.silent
  faults : ∀ f ∈ w'.faults, f ∈ w.faults

theorem Counted.refl (w : World) : Counted w [] w := ⟨(List.append_nil _).symm, rfl⟩

theorem Counted.trans {w w₁ w₂ : World} {l l' : List Failure} (h : Counted w l w₁)
    (h' : Counted w₁ l' w₂) : Counted w (l ++ l') w₂ where
  observed := by rw [h'.observed, h.observed, List.append_assoc]
  counted := by rw [h'.counted, h.counted, List.foldl_append]

theorem Noted.trans {w w₁ w₂ : World} {l l' : List Failure} (h : Noted w l w₁)
    (h' : Noted w₁ l' w₂) : Noted w (l ++ l') w₂ where
  toCounted := h.toCounted.trans h'.toCounted
  silent := h'.silent.trans h.silent
  faults := fun f hf => h.faults f (h'.faults f hf)

theorem Quiet.refl (w : World) : Quiet w w := ⟨rfl, rfl, rfl, fun _ h => h⟩

theorem Quiet.trans {w₁ w₂ w₃ : World} (h : Quiet w₁ w₂) (h' : Quiet w₂ w₃) : Quiet w₁ w₃ :=
  ⟨h'.observed.trans h.observed, h'.counted.trans h.counted, h'.silent.trans h.silent,
    fun f hf => h.faults f (h'.faults f hf)⟩

theorem Quiet.noted {w w' : World} (h : Quiet w w') : Noted w [] w' :=
  ⟨⟨by rw [h.observed, List.append_nil], h.counted⟩, h.silent, h.faults⟩

/-! ### Looks at calls -/

theorem reply_quiet (w : World) (owner : Owner) {call : PortCall} (fault : Fault)
    (reply : call.Reply) : Quiet w (w.reply owner fault reply).1 := by
  unfold World.reply
  split <;> exact ⟨rfl, rfl, rfl, fun _ h => h⟩

theorem serveService_quiet (w : World) (spans : List Span) (call : PortCall) :
    Quiet w (w.serveService spans call).2 := by
  unfold serveService serve
  dsimp only
  split <;> exact ⟨rfl, rfl, rfl, fun _ h => h⟩

theorem act_quiet (w : World) (owner : Owner) (spans : List Span) (call : PortCall)
    (fault : Fault) : Quiet w (w.act owner spans call fault).1 := by
  have hserve := w.serveService_quiet spans call
  unfold World.act
  split
  · exact w.reply_quiet owner fault _
  · split
    all_goals
      rename_i heq
      rw [heq] at hserve
    · exact hserve
    · exact hserve.trans (reply_quiet ..)
    · exact hserve.trans (reply_quiet ..)

/-- A call that starts takes its fault away. -/
theorem takeFault_quiet (w : World) (port : Port) : Quiet w (w.takeFault port).2 := by
  unfold takeFault
  split
  · exact ⟨rfl, rfl, rfl, fun _ hf => List.mem_of_mem_eraseP hf⟩
  · exact Quiet.refl w

theorem depart_quiet (w : World) (owner : Owner) (spans : List Span) (call : PortCall) :
    Quiet w (w.depart owner spans call).1 := by
  unfold depart
  split
  · have hlaunch : Quiet w (w.launch owner call.port) := ⟨rfl, rfl, rfl, fun _ h => h⟩
    have htaken := hlaunch.trans (takeFault_quiet _ call.port)
    dsimp only
    split
    · exact htaken
    · split
      · exact htaken.trans (act_quiet ..)
      · exact ⟨htaken.observed, htaken.counted, htaken.silent, htaken.faults⟩
  · exact w.act_quiet owner spans call {}

theorem visit_quiet (w : World) (owner : Owner) (ctx : Context) (spans : List Span)
    {call : PortCall} (g : Option (Guarded call)) : Quiet w (w.visit owner ctx spans g).1 := by
  cases g with
  | none =>
    simp only [visit, enter]
    split
    · exact Quiet.refl w
    · have hset : Quiet w (w.setDeadline ctx).2 := by
        unfold setDeadline
        split <;> exact ⟨rfl, rfl, rfl, fun _ h => h⟩
      exact hset.trans (depart_quiet ..)
  | some g =>
    simp only [visit, revisit]
    split
    · exact ⟨rfl, rfl, rfl, fun _ h => h⟩
    · unfold follow
      split
      · split
        · exact w.act_quiet owner spans call _
        · exact Quiet.refl w
      · exact Quiet.refl w
      · split
        · exact ⟨rfl, rfl, rfl, fun _ h => h⟩
        · exact Quiet.refl w

theorem quiet_of_visit {w w' : World} {owner : Owner} {ctx : Context} {spans : List Span}
    {call : PortCall} {g : Option (Guarded call)} {poll : Poll call.Reply (Guarded call)}
    (visit : w.visit owner ctx spans g = (w', poll)) : Quiet w w' := by
  have hquiet := w.visit_quiet owner ctx spans g
  rwa [visit] at hquiet

/-! ### Notes -/

theorem spawn_quiet (w : World) (ctx : Context) (spans : List Span) (r : Record) :
    Quiet w (w.spawn ctx spans r) := by
  unfold spawn wake
  dsimp only
  split <;> exact ⟨rfl, rfl, rfl, fun _ h => h⟩

theorem noteAll_noted (w : World) (ctx : Context) (spans : List Span) (notes : List Note) :
    Noted w (notes.filterMap Note.failure?) (w.noteAll ctx spans notes) := by
  induction notes generalizing w with
  | nil => exact (Quiet.refl w).noted
  | cons n notes ih =>
    have hrest := ih (w.note ctx spans n)
    cases n with
    | said remark => exact ⟨⟨hrest.observed, hrest.counted⟩, hrest.silent, hrest.faults⟩
    | refresh r => exact (w.spawn_quiet ctx spans r).noted.trans hrest
    | swallowed failure =>
      have hfirst : Noted w [failure] (w.note ctx spans (.swallowed failure)) :=
        ⟨⟨rfl, rfl⟩, rfl, fun _ h => h⟩
      exact hfirst.trans hrest

theorem reach_quiet (w : World) (stage : Stage) : Quiet w (w.reach stage).1 := by
  cases stage <;> exact ⟨rfl, rfl, rfl, fun _ h => h⟩

theorem settle_quiet (w : World) (tickets : List Ticket) : Quiet w (w.settle tickets).1 := by
  induction tickets with
  | nil => exact Quiet.refl w
  | cons ticket tickets ih =>
    simp only [settle]
    split
    · unfold abort wake
      dsimp only
      split <;> exact ⟨rfl, rfl, rfl, fun _ h => h⟩
    · exact ih

end World

/-! ## What is heard -/

/-- The mishap that a look at a call brings. -/
def Poll.mishaps (op : Operation) {call : PortCall} :
    Poll call.Reply (Guarded call) → List Mishap
  | .ready reply => Mishap.ofReply op reply
  | _ => []

/-- The mishap of a side that has replied. -/
def Branch.mishaps (op : Operation) {call : PortCall} : Branch call → List Mishap
  | .replied reply => Mishap.ofReply op reply
  | .waiting _ => []

namespace Point

/-- The failures that have happened and are to be noted later. -/
def withheld : Point → List Failure
  | .announcing change _ cache events =>
    change.withheld (cache.mishaps change.operation ++ events.mishaps change.operation)
  | _ => []

/-- The errors for failed calls that the caller has got or is going to get. -/
def blame : Point → List ServiceError
  | .announcing change _ cache events =>
    Mishap.returned (cache.mishaps change.operation ++ events.mishaps change.operation)
  | .finished outcome => outcome.blame
  | _ => []

end Point

namespace World

/-- The mishap that a look at one of two sides brings. -/
def hearsOf (w : World) (ctx : Context) (spans : List Span) (op : Operation) {call : PortCall} :
    Branch call → List Mishap
  | .waiting g => (w.visit none ctx spans g).2.mishaps op
  | .replied _ => []

/-- The mishap that a stride of a request brings. -/
def hears (w : World) (ctx : Context) (spans : List Span) (op : Operation) (side : Side) :
    Point → List Mishap
  | .asking _ g => (w.visit none ctx spans g).2.mishaps op
  | .announcing _ _ cache events =>
    match side with
    | .cache => w.hearsOf ctx spans op cache
    | .bus => w.hearsOf ctx spans op events
  | _ => []

/-- The mishap that the turn of a refresh brings.  One that was called off does not look at its
call any more. -/
def hearsOfRefresh (w : World) (r : Refresh) : List Mishap :=
  if r.aborted then [] else (w.visit (some r.ticket) r.ctx r.spans r.call).2.mishaps .get

/-! ## Strides and turns -/

/-- What a stride makes of the accounts: what it hears goes to the caller, or is noted or
withheld. -/
inductive Accounted (w : World) (op : Operation) (p : Point) (heard : List Mishap) :
    World → Option Point → Prop where
  | goesOn {w' : World} {q : Point} {told : List Failure} (noted : Noted w told w')
      (swallowed : (p.withheld ++ Mishap.swallowed heard).Perm (told ++ q.withheld))
      (returned : p.blame ++ Mishap.returned heard = q.blame) (isFor : q.stage.IsFor op) :
      Accounted w op p heard w' (some q)
  /-- A request that breaks down has heard nothing new, and withholds nothing. -/
  | breaks {w' : World} (noted : Noted w [] w') (silence : heard = []) (settled : p.withheld = []) :
      Accounted w op p heard w' none

theorem Accounted.noted {w w' : World} {op : Operation} {p : Point} {p' : Option Point}
    {heard : List Mishap} (h : Accounted w op p heard w' p') : ∃ told, Noted w told w' := by
  cases h with
  | goesOn noted => exact ⟨_, noted⟩
  | breaks noted => exact ⟨_, noted⟩

/-- Nothing is heard, and the accounts stay as they are. -/
theorem Accounted.still {w w' : World} {op : Operation} {p q : Point} (quiet : Quiet w w')
    (withheld : q.withheld = p.withheld) (blame : q.blame = p.blame) (isFor : q.stage.IsFor op) :
    Accounted w op p [] w' (some q) :=
  .goesOn quiet.noted (by simp [withheld]) (by simp [blame]) isFor

/-- A reply comes to a request that has asked a question. -/
theorem resume_accounts {w w₁ : World} (ctx : Context) (spans : List Span) (ask : Ask)
    (g : Option (Guarded ask.call)) (reply : ask.call.Reply) (quiet : Quiet w w₁) :
    Accounted w ask.operation (.asking ask g) (Mishap.ofReply ask.operation reply)
      ((w₁.noteAll ctx spans (w₁.service.resume ask reply).1).reach
        (w₁.service.resume ask reply).2).1
      (some ((w₁.noteAll ctx spans (w₁.service.resume ask reply).1).reach
        (w₁.service.resume ask reply).2).2) := by
  obtain ⟨hnotes, hblame⟩ := w₁.service.resume_fate ask reply
  have hfor := w₁.service.isFor_resume ask reply
  have hnoted := w₁.noteAll_noted ctx spans (w₁.service.resume ask reply).1
  rw [hnotes] at hnoted
  generalize (w₁.service.resume ask reply).2 = stage at hblame hfor ⊢
  generalize w₁.noteAll ctx spans (w₁.service.resume ask reply).1 = w₂ at hnoted ⊢
  have htold := (quiet.noted.trans hnoted).trans (w₂.reach_quiet stage).noted
  rw [List.nil_append] at htold
  have hreach : (w₂.reach stage).2.withheld = [] ∧ (w₂.reach stage).2.blame = stage.blame ∧
      (w₂.reach stage).2.stage = stage := by
    cases stage with
    | announcing change => exact ⟨change.withheld_nil, rfl, rfl⟩
    | asking ask => exact ⟨rfl, rfl, rfl⟩
    | settling change => exact ⟨rfl, rfl, rfl⟩
    | finished outcome => exact ⟨rfl, rfl, rfl⟩
  obtain ⟨hwithheld, hsame, hstage⟩ := hreach
  refine .goesOn htold ?_ ?_ ?_
  · rw [hwithheld]
    simp [Point.withheld]
  · rw [hsame, hblame]
    rfl
  · rwa [hstage]

section Announcing

variable {w : World} {ctx : Context} {spans : List Span} {change : DomainEvent} {f : Bool}
  {cache : Branch (.writeCache change.cacheWrite)} {events : Branch (.publish change)}

/-- Neither taking an entry out of the cache nor publishing breaks down, so a deletion that is
announced does not. -/
theorem withheld_of_broken {call : PortCall} {g : Option (Guarded call)} {w' : World}
    (side : call = .writeCache change.cacheWrite ∨ call = .publish change)
    (visit : w.visit none ctx spans g = (w', .broken)) :
    (Point.announcing change f cache events).withheld = [] := by
  obtain ⟨r, hcall⟩ := eq_keep_of_broken visit
  cases change with
  | created r => rfl
  | updated r => rfl
  | deleted id => rcases side with rfl | rfl <;> cases hcall

/-- The cache is told of a change, or has replied before. -/
theorem tellCache_accounts (w : World) (ctx : Context) (spans : List Span)
    (change : DomainEvent) (f : Bool) (cache : Branch (.writeCache change.cacheWrite))
    (events : Branch (.publish change)) :
    Accounted w change.operation (.announcing change f cache events)
      (w.hearsOf ctx spans change.operation cache)
      (w.tellCache ctx spans change cache events).1
      (w.tellCache ctx spans change cache events).2 := by
  cases cache with
  | replied reply => exact .still (Quiet.refl w) rfl rfl rfl
  | waiting g =>
    simp only [tellCache, pollBranch, hearsOf]
    rcases hvisit : w.visit none ctx spans g with ⟨w', reply | g' | _⟩
    · obtain ⟨hswallowed, hreturned⟩ := change.cacheNotes_fate reply
      refine .goesOn ((quiet_of_visit hvisit).noted.trans (w'.noteAll_noted ctx spans _)) ?_ ?_ rfl
      · simp only [Poll.mishaps, Point.withheld, Branch.mishaps, hswallowed, List.nil_append,
          DomainEvent.withheld_append]
        exact (List.perm_append_comm_assoc ..).trans (List.perm_append_comm.append_left _)
      · simp [Poll.mishaps, Point.blame, Branch.mishaps, hreturned]
    · exact .still (quiet_of_visit hvisit) rfl rfl rfl
    · exact .breaks (quiet_of_visit hvisit).noted rfl (withheld_of_broken (.inl rfl) hvisit)

/-- The event bus is told of a change, or has replied before. -/
theorem tellBus_accounts (w : World) (ctx : Context) (spans : List Span)
    (change : DomainEvent) (f : Bool) (cache : Branch (.writeCache change.cacheWrite))
    (events : Branch (.publish change)) :
    Accounted w change.operation (.announcing change f cache events)
      (w.hearsOf ctx spans change.operation events)
      (w.tellBus ctx spans change cache events).1
      (w.tellBus ctx spans change cache events).2 := by
  cases events with
  | replied reply => exact .still (Quiet.refl w) rfl rfl rfl
  | waiting g =>
    simp only [tellBus, pollBranch, hearsOf]
    rcases hvisit : w.visit none ctx spans g with ⟨w', reply | g' | _⟩
    · have hswallowed := change.publish_fate reply
      refine .goesOn ((quiet_of_visit hvisit).noted.trans (w'.noteAll_noted ctx spans [])) ?_ ?_ rfl
      · simp [Poll.mishaps, Point.withheld, Branch.mishaps, hswallowed]
      · simp [Poll.mishaps, Point.blame, Branch.mishaps]
    · exact .still (quiet_of_visit hvisit) rfl rfl rfl
    · exact .breaks (quiet_of_visit hvisit).noted rfl (withheld_of_broken (.inr rfl) hvisit)

end Announcing

/-- What a stride hears goes to the caller, or is noted or withheld. -/
theorem stride_accounts (w : World) (ctx : Context) (spans : List Span) (side : Side) {p : Point}
    {op : Operation} (hfor : p.stage.IsFor op) :
    Accounted w op p (w.hears ctx spans op side p) (w.stride ctx spans side p).1
      (w.stride ctx spans side p).2 := by
  cases p with
  | asking ask g =>
    obtain rfl : ask.operation = op := hfor
    simp only [stride, move, hears]
    rcases hvisit : w.visit none ctx spans g with ⟨w₁, reply | g' | _⟩
    · exact resume_accounts ctx spans ask g reply (quiet_of_visit hvisit)
    · exact .still (quiet_of_visit hvisit) rfl rfl rfl
    · exact .breaks (quiet_of_visit hvisit).noted rfl rfl
  | settling change tickets =>
    simp only [stride, move]
    have hquiet := w.settle_quiet tickets
    rcases hsettle : w.settle tickets with ⟨w', _ | ⟨ticket, left⟩⟩
    all_goals rw [hsettle] at hquiet
    · exact .still hquiet change.withheld_nil rfl hfor
    · exact .still hquiet rfl rfl hfor
  | announcing change f cache events =>
    obtain rfl : change.operation = op := hfor
    have hcache := w.tellCache_accounts ctx spans change f cache events
    have hbus := w.tellBus_accounts ctx spans change f cache events
    rcases cache with g | written <;> rcases events with g' | published
    case replied.replied =>
      obtain ⟨hnotes, hblame⟩ := change.conclude_fate written published
      have hnoted := w.noteAll_noted ctx spans (change.conclude written published).1
      rw [hnotes] at hnoted
      have hheard : w.hears ctx spans change.operation side
          (.announcing change f (.replied written) (.replied published)) = [] := by
        cases side <;> rfl
      rw [hheard]
      refine .goesOn hnoted ?_ ?_ trivial
      · simp [Point.withheld, Branch.mishaps]
      · simp [Point.blame, Branch.mishaps, hblame]
    all_goals cases side with
    | cache => exact hcache
    | bus => exact hbus
  | finished outcome => exact .still (Quiet.refl w) rfl rfl hfor

/-- What a refresh hears is noted in the same turn; nothing of it is returned to anyone. -/
theorem turn_accounts (w : World) (r : Refresh) :
    Counted w (Mishap.swallowed (w.hearsOfRefresh r)) (w.turn r).1 ∧
      Mishap.returned (w.hearsOfRefresh r) = [] := by
  unfold turn hearsOfRefresh
  split
  · exact ⟨⟨(List.append_nil _).symm, rfl⟩, rfl⟩
  · rcases hvisit : w.visit (some r.ticket) r.ctx r.spans r.call with ⟨w₁, reply | g | _⟩
    · have hnoted := (quiet_of_visit hvisit).noted.trans
        (w₁.noteAll_noted r.ctx r.spans (Service.refillNotes r.record reply))
      rw [List.nil_append, Service.failures_refillNotes] at hnoted
      refine ⟨⟨hnoted.observed, hnoted.counted⟩, ?_⟩
      cases reply <;> rfl
    · have hnoted := (quiet_of_visit hvisit).noted
      exact ⟨⟨hnoted.observed, hnoted.counted⟩, rfl⟩
    · have hnoted := (quiet_of_visit hvisit).noted
      exact ⟨⟨hnoted.observed, hnoted.counted⟩, rfl⟩

end World

/-! ## Accounts of a run -/

/-- On whose behalf a call is made. -/
inductive Party where
  | request (key : Nat)
  | refresh (ticket : Ticket)
  deriving DecidableEq, Repr

/-- The party whose turn an act is. -/
def Act.party? : Act → Option Party
  | .look key _ => some (.request key)
  | .turn ticket => some (.refresh ticket)
  | _ => none

namespace Scene

/-- The failed call that an act brings to the one whose turn it is. -/
def hears (s : Scene) : Act → List Mishap
  | .look key side =>
    match s.threads.find? (·.key = key) with
    | some t => s.world.hears t.call.ctx t.call.spans t.request.operation side t.point
    | none => []
  | .turn ticket =>
    match s.world.refreshes.find? (·.ticket = ticket) with
    | some r => s.world.hearsOfRefresh r
    | none => []
  | _ => []

/-- The failures that are noted in an act. -/
def tells (s : Scene) (a : Act) : List Failure :=
  (s.act a).world.observed.drop s.world.observed.length

/-- The failures that nobody is going to note any more, since the caller has left. -/
def forgets (s : Scene) : Act → List Failure
  | .leave key =>
    match s.threads.find? (·.key = key) with
    | some t => t.point.withheld
    | none => []
  | _ => []

section

variable {α : Type}

/-- What some acts bring, one after another. -/
def collect (f : Scene → Act → List α) (s : Scene) : List Act → List α
  | [] => []
  | a :: acts => f s a ++ collect f (s.act a) acts

/-- What the acts of one party bring. -/
def ofParty (party : Party) (f : Scene → Act → List α) (s : Scene) (a : Act) : List α :=
  if a.party? = some party then f s a else []

theorem perform_concat (s : Scene) (acts : List Act) (a : Act) :
    s.perform (acts ++ [a]) = (s.perform acts).act a :=
  List.foldl_append ..

theorem collect_concat (f : Scene → Act → List α) (s : Scene) (acts : List Act) (a : Act) :
    s.collect f (acts ++ [a]) = s.collect f acts ++ f (s.perform acts) a := by
  induction acts generalizing s with
  | nil => exact List.append_nil _
  | cons b acts ih =>
    rw [List.cons_append, collect, ih, collect, List.append_assoc]
    rfl

end

/-- The failed calls of a party in a run. -/
def mishapsOf (s : Scene) (party : Party) (acts : List Act) : List Mishap :=
  s.collect (ofParty party hears) acts

/-- The failures that a party notes in a run. -/
def reportsOf (s : Scene) (party : Party) (acts : List Act) : List Failure :=
  s.collect (ofParty party tells) acts

/-- All failed calls of a run. -/
def mishaps (s : Scene) (acts : List Act) : List Mishap :=
  s.collect hears acts

/-- All failures that are noted in a run. -/
def reports (s : Scene) (acts : List Act) : List Failure :=
  s.collect tells acts

/-- The failures of a run that nobody notes, because a caller has left between the two replies to a
deletion's announcement. -/
def forgotten (s : Scene) (acts : List Act) : List Failure :=
  s.collect forgets acts

/-- The failures that are still withheld. -/
def withheld (s : Scene) : List Failure :=
  s.threads.flatMap (·.point.withheld)

/-! ### One act -/

/-- What an act does to the accounts of each party, and to those of all together. -/
structure Balanced (s : Scene) (a : Act) : Prop where
  noted : World.Counted s.world (s.tells a) (s.act a).world
  asked : s.asked.length ≤ (s.act a).asked.length
  isFor : ∀ t ∈ (s.act a).threads, t.point.stage.IsFor t.request.operation
  /-- A request that starts has no accounts yet. -/
  starts : ∀ t ∈ (s.act a).threads, t.key = s.asked.length →
    t.point.withheld = [] ∧ t.point.blame = []
  strangers : ∀ key, s.asked.length ≤ key →
    ofParty (.request key) hears s a = [] ∧ ofParty (.request key) tells s a = []
  goesOn : ∀ t' ∈ (s.act a).threads, t'.key ≠ s.asked.length → ∃ t ∈ s.threads, t.key = t'.key ∧
    (t.point.withheld ++ Mishap.swallowed (ofParty (.request t'.key) hears s a)).Perm
      (ofParty (.request t'.key) tells s a ++ t'.point.withheld) ∧
    t.point.blame ++ Mishap.returned (ofParty (.request t'.key) hears s a) = t'.point.blame
  refreshes : ∀ ticket,
    Mishap.swallowed (ofParty (.refresh ticket) hears s a) =
        ofParty (.refresh ticket) tells s a ∧
      Mishap.returned (ofParty (.refresh ticket) hears s a) = []
  whole : (s.withheld ++ Mishap.swallowed (s.hears a)).Perm
    (s.tells a ++ (s.forgets a ++ (s.act a).withheld))

theorem tells_eq {s : Scene} {a : Act} {told : List Failure}
    (h : World.Counted s.world told (s.act a).world) : s.tells a = told := by
  rw [tells, h.observed, List.drop_left]

theorem Numbered.key_lt {s : Scene} (h : s.Numbered) {t : Thread} (mem : t ∈ s.threads) :
    t.key < s.asked.length :=
  (List.getElem?_eq_some_iff.mp (h.asked t mem)).1

/-- A request under way can be put in front of the others. -/
theorem perm_cons {threads : List Thread} (distinct : (threads.map (·.key)).Nodup) {t : Thread}
    (mem : t ∈ threads) : threads.Perm (t :: threads.filter (·.key ≠ t.key)) := by
  induction threads with
  | nil => cases mem
  | cons u threads ih =>
    rw [List.map_cons, List.nodup_cons] at distinct
    obtain ⟨hnew, hrest⟩ := distinct
    rcases List.mem_cons.mp mem with rfl | hmem
    · have hself : threads.filter (·.key ≠ t.key) = threads := by
        refine List.filter_eq_self.mpr fun u hu => ?_
        have hkey : u.key ≠ t.key := fun hkey => hnew (hkey ▸ List.mem_map_of_mem hu)
        simpa using hkey
      rw [List.filter_cons_of_neg (by simp), hself]
    · have hkey : u.key ≠ t.key := fun hkey => hnew (hkey ▸ List.mem_map_of_mem hmem)
      rw [List.filter_cons_of_pos (by simpa using hkey)]
      exact ((ih hrest hmem).cons u).trans (List.Perm.swap ..)

/-- What a request withholds is exchanged when it goes on, and the others withhold what they did. -/
theorem withheld_put {threads : List Thread} (distinct : (threads.map (·.key)).Nodup) {t : Thread}
    (mem : t ∈ threads) (q : Point) :
    ((put threads (t.goTo q)).flatMap (·.point.withheld) ++ t.point.withheld).Perm
      (threads.flatMap (·.point.withheld) ++ q.withheld) := by
  have distinct' : ((put threads (t.goTo q)).map (·.key)).Nodup := by rwa [map_key_put]
  have hmem : t.goTo q ∈ put threads (t.goTo q) := mem_put_self mem rfl
  have hafter : (put threads (t.goTo q)).Perm (t.goTo q :: threads.filter (·.key ≠ t.key)) := by
    have hcons := perm_cons distinct' hmem
    rw [filter_put] at hcons
    exact hcons
  refine List.perm_iff_count.mpr fun failure => ?_
  have hbefore := ((perm_cons distinct mem).flatMap_right (·.point.withheld)).count_eq failure
  have hafter := (hafter.flatMap_right (·.point.withheld)).count_eq failure
  have hnew : (t.goTo q).point = q := rfl
  simp only [List.flatMap_cons, List.count_append, hnew] at hbefore hafter ⊢
  omega

theorem ofParty_nil {α : Type} {f : Scene → Act → List α} {s : Scene} {a : Act} (h : f s a = [])
    (party : Party) : ofParty party f s a = [] := by
  unfold ofParty
  split
  · exact h
  · rfl

section

variable {s : Scene} {a : Act} {t : Thread} (numbered : s.Numbered)
  (isFor : ∀ t ∈ s.threads, t.point.stage.IsFor t.request.operation)

include numbered isFor

/-- Nothing is heard or noted, and at most one request goes away. -/
theorem Balanced.silently (noted : World.Counted s.world [] (s.act a).world)
    (silence : s.hears a = []) (asked : (s.act a).asked = s.asked)
    (fewer : ∀ t ∈ (s.act a).threads, t ∈ s.threads)
    (whole : s.withheld.Perm (s.forgets a ++ (s.act a).withheld)) : s.Balanced a := by
  have htells : s.tells a = [] := tells_eq noted
  have hheard (party : Party) : ofParty party hears s a = [] := ofParty_nil silence party
  have htold (party : Party) : ofParty party tells s a = [] := ofParty_nil htells party
  exact {
    noted := htells ▸ noted
    asked := asked ▸ Nat.le_refl _
    isFor := fun t ht => isFor t (fewer t ht)
    starts := fun t ht hkey => absurd hkey (Nat.ne_of_lt (numbered.key_lt (fewer t ht)))
    strangers := fun key _ => ⟨hheard _, htold _⟩
    goesOn := fun t ht _ =>
      ⟨t, fewer t ht, rfl, by simp [hheard, htold], by simp [hheard]⟩
    refreshes := fun ticket => by simp [hheard, htold]
    whole := by simpa [silence, htells] using whole }

/-- Nothing at all happens to the accounts. -/
theorem Balanced.still (noted : World.Counted s.world [] (s.act a).world)
    (silence : s.hears a = []) (asked : (s.act a).asked = s.asked)
    (threads : (s.act a).threads = s.threads)
    (kept : s.forgets a = []) : s.Balanced a := by
  refine .silently numbered isFor noted silence asked (fun t ht => threads ▸ ht) ?_
  rw [kept, withheld, withheld, threads]
  exact List.Perm.refl _

/-- Nothing at all happens. -/
theorem Balanced.idle (same : s.act a = s) (silence : s.hears a = []) (kept : s.forgets a = []) :
    s.Balanced a := by
  refine .still numbered isFor ?_ silence ?_ ?_ kept
  all_goals rw [same]
  exact World.Counted.refl _

/-- A request goes away. -/
theorem Balanced.without (mem : t ∈ s.threads)
    (noted : World.Counted s.world [] (s.act a).world) (silence : s.hears a = [])
    (asked : (s.act a).asked = s.asked)
    (threads : (s.act a).threads = s.threads.filter (·.key ≠ t.key))
    (forgets : s.forgets a = t.point.withheld) : s.Balanced a := by
  refine .silently numbered isFor noted silence asked
    (fun u hu => (List.mem_filter.mp (threads ▸ hu)).1) ?_
  rw [forgets, withheld, withheld, threads]
  exact (perm_cons numbered.distinct mem).flatMap_right _

/-- A request starts: it is refused by the rules or asks its first question. -/
theorem Balanced.start (ctx : Context) (request : Request) :
    s.Balanced (.start ctx request) := by
  obtain ⟨hworld, hpoint⟩ := s.world.openCall_spec ctx request
  have hblame := s.world.service.blame_begin request
  have hfor := s.world.service.isFor_begin request
  have hnew : (s.world.openCall ctx request).2.point.withheld = [] ∧
      (s.world.openCall ctx request).2.point.blame = [] ∧
      (s.world.openCall ctx request).2.point.stage.IsFor request.operation := by
    rcases hpoint with ⟨ask, hbegin, heq⟩ | ⟨outcome, hbegin, heq⟩
    all_goals
      rw [hbegin] at hblame hfor
      rw [heq]
      exact ⟨rfl, hblame, hfor⟩
  obtain ⟨hwithheld, hblame, hfor⟩ := hnew
  have noted : World.Counted s.world [] (s.act (.start ctx request)).world := by
    simp only [act, hworld]
    exact World.Counted.refl _
  have htells : s.tells (.start ctx request) = [] := tells_eq noted
  have hheard (party : Party) : ofParty party hears s (.start ctx request) = [] :=
    ofParty_nil rfl party
  have htold (party : Party) : ofParty party tells s (.start ctx request) = [] :=
    ofParty_nil htells party
  have hold : ∀ t ∈ (s.act (.start ctx request)).threads, t ∈ s.threads ∨
      t = ⟨s.asked.length, request, (s.world.openCall ctx request).2⟩ := fun t ht =>
    (List.mem_append.mp ht).imp_right List.mem_singleton.mp
  have hwhole : (s.act (.start ctx request)).withheld = s.withheld := by
    simp [withheld, act, Thread.point, hwithheld]
  refine {
    noted := htells ▸ noted
    asked := by simp [act]
    isFor := fun t ht => ?isFor
    starts := fun t ht hkey => ?starts
    strangers := fun key _ => ⟨hheard _, htold _⟩
    goesOn := fun t ht hkey => ?goesOn
    refreshes := fun ticket => by simp [hheard, htold]
    whole := by simp [htells, hwhole, hears, forgets] }
  case isFor =>
    rcases hold t ht with ht | rfl
    · exact isFor t ht
    · exact hfor
  case starts =>
    rcases hold t ht with ht | rfl
    · exact absurd hkey (Nat.ne_of_lt (numbered.key_lt ht))
    · exact ⟨hwithheld, hblame⟩
  case goesOn =>
    rcases hold t ht with ht | rfl
    · exact ⟨t, ht, rfl, by simp [hheard, htold], by simp [hheard]⟩
    · exact absurd rfl hkey

/-- A request makes a stride. -/
theorem Balanced.stride (mem : t ∈ s.threads) {q : Point} {told : List Failure}
    (party : a.party? = some (.request t.key))
    (noted : World.Counted s.world told (s.act a).world)
    (swallowed : (t.point.withheld ++ Mishap.swallowed (s.hears a)).Perm (told ++ q.withheld))
    (returned : t.point.blame ++ Mishap.returned (s.hears a) = q.blame)
    (next : q.stage.IsFor t.request.operation) (asked : (s.act a).asked = s.asked)
    (threads : (s.act a).threads = put s.threads (t.goTo q)) (kept : s.forgets a = []) :
    s.Balanced a := by
  have htells : s.tells a = told := tells_eq noted
  have hmine {α : Type} (f : Scene → Act → List α) : ofParty (.request t.key) f s a = f s a := by
    simp [ofParty, party]
  have hother {α : Type} (f : Scene → Act → List α) {p : Party} (h : p ≠ .request t.key) :
      ofParty p f s a = [] := by
    simp [ofParty, party, h.symm]
  have hold : ∀ u ∈ (s.act a).threads, u = t.goTo q ∨ u ∈ s.threads ∧ u.key ≠ t.key :=
    fun u hu => mem_put (threads ▸ hu)
  have hgiven := numbered.key_lt mem
  refine {
    noted := htells ▸ noted
    asked := asked ▸ Nat.le_refl _
    isFor := fun u hu => ?isFor
    starts := fun u hu hkey => ?starts
    strangers := fun key hkey => ?strangers
    goesOn := fun u hu _ => ?goesOn
    refreshes := fun ticket => by
      simp [hother _ (show Party.refresh ticket ≠ .request t.key by simp)]
    whole := ?whole }
  case isFor =>
    rcases hold u hu with rfl | ⟨hu, -⟩
    · exact next
    · exact isFor u hu
  case starts =>
    have hlt : u.key < s.asked.length := by
      rcases hold u hu with rfl | ⟨hu, -⟩
      · exact hgiven
      · exact numbered.key_lt hu
    exact absurd hkey (Nat.ne_of_lt hlt)
  case strangers =>
    have hne : Party.request key ≠ .request t.key := by
      simp only [ne_eq, Party.request.injEq]
      omega
    exact ⟨hother _ hne, hother _ hne⟩
  case goesOn =>
    rcases hold u hu with rfl | ⟨hu, hkey⟩
    · refine ⟨t, mem, rfl, ?_, ?_⟩
      · simp only [Thread.goTo, hmine, htells]
        exact swallowed
      · simp only [Thread.goTo, hmine]
        exact returned
    · have hne : Party.request u.key ≠ .request t.key := by simpa using hkey
      exact ⟨u, hu, rfl, by simp [hother _ hne], by simp [hother _ hne]⟩
  case whole =>
    have hput := withheld_put numbered.distinct mem q
    rw [htells, kept, List.nil_append, withheld, withheld, threads]
    refine List.perm_iff_count.mpr fun failure => ?_
    have hmine := swallowed.count_eq failure
    have hput := hput.count_eq failure
    simp only [List.count_append] at hmine hput ⊢
    omega

/-- A refresh has a turn. -/
theorem Balanced.turn {ticket : Ticket} (party : a.party? = some (.refresh ticket))
    (noted : World.Counted s.world (Mishap.swallowed (s.hears a)) (s.act a).world)
    (returned : Mishap.returned (s.hears a) = []) (asked : (s.act a).asked = s.asked)
    (threads : (s.act a).threads = s.threads) (kept : s.forgets a = []) : s.Balanced a := by
  have htells : s.tells a = Mishap.swallowed (s.hears a) := tells_eq noted
  have hother {α : Type} (f : Scene → Act → List α) (key : Nat) :
      ofParty (.request key) f s a = [] := by
    simp [ofParty, party]
  exact {
    noted := htells ▸ noted
    asked := asked ▸ Nat.le_refl _
    isFor := fun t ht => isFor t (threads ▸ ht)
    starts := fun t ht hkey => absurd hkey (Nat.ne_of_lt (numbered.key_lt (threads ▸ ht)))
    strangers := fun key _ => ⟨hother _ _, hother _ _⟩
    goesOn := fun t ht _ => ⟨t, threads ▸ ht, rfl, by simp [hother], by simp [hother]⟩
    refreshes := fun n => by
      unfold ofParty
      split
      · exact ⟨htells.symm, returned⟩
      · exact ⟨rfl, rfl⟩
    whole := by
      rw [htells, kept, withheld, withheld, threads]
      exact List.perm_append_comm }

/-- Every act keeps the books balanced. -/
theorem balanced_act (a : Act) : s.Balanced a := by
  cases a with
  | start ctx request => exact .start numbered isFor ctx request
  | look key side =>
    cases hfind : s.threads.find? (·.key = key) with
    | none =>
      exact .idle numbered isFor (by simp only [act, hfind]) (by simp only [hears, hfind]) rfl
    | some t =>
      have hkey : t.key = key := by simpa using List.find?_some hfind
      subst hkey
      have mem := List.mem_of_find?_eq_some hfind
      have haccounts := s.world.stride_accounts t.call.ctx t.call.spans side (isFor t mem)
      have hhears : s.hears (.look t.key side) =
          s.world.hears t.call.ctx t.call.spans t.request.operation side t.point := by
        simp only [hears, hfind]
      rw [← hhears] at haccounts
      rcases hstride : s.world.stride t.call.ctx t.call.spans side t.point with ⟨w, _ | q⟩
      all_goals rw [hstride] at haccounts
      · cases haccounts with
        | breaks noted silence settled =>
          refine .without numbered isFor mem ?_ silence ?_ ?_ settled.symm
          all_goals simp only [act, hfind, hstride]
          exact noted.toCounted
      · cases haccounts with
        | goesOn noted swallowed returned next =>
          refine .stride numbered isFor mem rfl ?_ swallowed returned next ?_ ?_ rfl
          all_goals simp only [act, hfind, hstride]
          exact noted.toCounted
  | leave key =>
    cases hfind : s.threads.find? (·.key = key) with
    | none =>
      exact .idle numbered isFor (by simp only [act, hfind]) rfl (by simp only [forgets, hfind])
    | some t =>
      have hkey : t.key = key := by simpa using List.find?_some hfind
      subst hkey
      refine .without numbered isFor (List.mem_of_find?_eq_some hfind) ?_ rfl ?_ ?_ ?_
      · simp only [act, hfind]
        exact World.Counted.refl _
      · simp only [act, hfind]
      · simp only [act, hfind]
      · simp only [forgets, hfind]
  | turn ticket =>
    cases hfind : s.world.refreshes.find? (·.ticket = ticket) with
    | none =>
      exact .idle numbered isFor (by simp only [act, hfind]) (by simp only [hears, hfind]) rfl
    | some r =>
      obtain ⟨noted, returned⟩ := s.world.turn_accounts r
      have hhears : s.hears (.turn ticket) = s.world.hearsOfRefresh r := by
        simp only [hears, hfind]
      rw [← hhears] at noted returned
      refine .turn numbered isFor rfl ?_ returned ?_ ?_ rfl
      all_goals simp only [act, hfind]
      exact noted
  | pass now => exact .still numbered isFor ⟨(List.append_nil _).symm, rfl⟩ rfl rfl rfl rfl
  | setClock clock => exact .still numbered isFor ⟨(List.append_nil _).symm, rfl⟩ rfl rfl rfl rfl
  | setFaults faults => exact .still numbered isFor ⟨(List.append_nil _).symm, rfl⟩ rfl rfl rfl rfl
  | give signal => exact .still numbered isFor ⟨(List.append_nil _).symm, rfl⟩ rfl rfl rfl rfl

end

/-! ### A whole run -/

/-- The books of a run are balanced. -/
structure Audited (s₀ : Scene) (acts : List Act) : Prop where
  numbered : (s₀.perform acts).Numbered
  noted : World.Counted s₀.world (s₀.reports acts) (s₀.perform acts).world
  /-- Numbers that are not given yet have no accounts. -/
  unasked : ∀ key, (s₀.perform acts).asked.length ≤ key →
    s₀.mishapsOf (.request key) acts = [] ∧ s₀.reportsOf (.request key) acts = []
  isFor : ∀ t ∈ (s₀.perform acts).threads, t.point.stage.IsFor t.request.operation
  swallowed : ∀ t ∈ (s₀.perform acts).threads,
    (Mishap.swallowed (s₀.mishapsOf (.request t.key) acts)).Perm
      (s₀.reportsOf (.request t.key) acts ++ t.point.withheld)
  returned : ∀ t ∈ (s₀.perform acts).threads,
    Mishap.returned (s₀.mishapsOf (.request t.key) acts) = t.point.blame
  refreshes : ∀ ticket,
    Mishap.swallowed (s₀.mishapsOf (.refresh ticket) acts) =
        s₀.reportsOf (.refresh ticket) acts ∧
      Mishap.returned (s₀.mishapsOf (.refresh ticket) acts) = []
  whole : (Mishap.swallowed (s₀.mishaps acts)).Perm
    (s₀.reports acts ++ (s₀.forgotten acts ++ (s₀.perform acts).withheld))

/-- Once more an act, after some. -/
theorem Audited.concat {s : Scene} {acts : List Act} (h : s.Audited acts) (a : Act) :
    s.Audited (acts ++ [a]) := by
  have numbered := h.numbered.step (step_act _ a)
  have hact := balanced_act h.numbered h.isFor a
  have hperform := s.perform_concat acts a
  have hmishaps (party : Party) : s.mishapsOf party (acts ++ [a]) =
      s.mishapsOf party acts ++ ofParty party hears (s.perform acts) a := collect_concat ..
  have hreports (party : Party) : s.reportsOf party (acts ++ [a]) =
      s.reportsOf party acts ++ ofParty party tells (s.perform acts) a := collect_concat ..
  refine {
    numbered := hperform ▸ numbered
    noted := ?noted
    unasked := fun key hkey => ?unasked
    isFor := hperform ▸ hact.isFor
    swallowed := fun t ht => ?swallowed
    returned := fun t ht => ?returned
    refreshes := fun ticket => ?refreshes
    whole := ?whole }
  case noted =>
    rw [hperform, reports, collect_concat]
    exact h.noted.trans hact.noted
  case unasked =>
    rw [hperform] at hkey
    have hasked := Nat.le_trans hact.asked hkey
    obtain ⟨hm, hr⟩ := h.unasked key hasked
    obtain ⟨hheard, htold⟩ := hact.strangers key hasked
    rw [hmishaps, hreports, hm, hr, hheard, htold]
    exact ⟨rfl, rfl⟩
  case swallowed =>
    rw [hperform] at ht
    rw [hmishaps, hreports, Mishap.swallowed_append]
    by_cases hkey : t.key = (s.perform acts).asked.length
    · obtain ⟨hm, hr⟩ := h.unasked t.key (Nat.le_of_eq hkey.symm)
      obtain ⟨hheard, htold⟩ := hact.strangers t.key (Nat.le_of_eq hkey.symm)
      simp [hm, hr, hheard, htold, (hact.starts t ht hkey).1]
    · obtain ⟨t₀, hmem, hsame, hswallowed, -⟩ := hact.goesOn t ht hkey
      have hbefore := h.swallowed t₀ hmem
      rw [hsame] at hbefore
      refine (hbefore.append_right _).trans ?_
      simpa only [List.append_assoc] using hswallowed.append_left _
  case returned =>
    rw [hperform] at ht
    rw [hmishaps, Mishap.returned_append]
    by_cases hkey : t.key = (s.perform acts).asked.length
    · rw [(h.unasked t.key (Nat.le_of_eq hkey.symm)).1,
        (hact.strangers t.key (Nat.le_of_eq hkey.symm)).1, (hact.starts t ht hkey).2]
      rfl
    · obtain ⟨t₀, hmem, hsame, -, hreturned⟩ := hact.goesOn t ht hkey
      rw [← hreturned, ← hsame, h.returned t₀ hmem]
  case refreshes =>
    obtain ⟨hswallowed, hreturned⟩ := h.refreshes ticket
    obtain ⟨hswallowed', hreturned'⟩ := hact.refreshes ticket
    rw [hmishaps, hreports, Mishap.swallowed_append, Mishap.returned_append, hswallowed,
      hswallowed', hreturned, hreturned']
    exact ⟨rfl, rfl⟩
  case whole =>
    have hall : s.mishaps (acts ++ [a]) = s.mishaps acts ++ (s.perform acts).hears a :=
      collect_concat ..
    have htold : s.reports (acts ++ [a]) = s.reports acts ++ (s.perform acts).tells a :=
      collect_concat ..
    have hforgotten : s.forgotten (acts ++ [a]) =
        s.forgotten acts ++ (s.perform acts).forgets a := collect_concat ..
    rw [hall, htold, hforgotten, hperform, Mishap.swallowed_append]
    refine List.perm_iff_count.mpr fun failure => ?_
    have hbefore := h.whole.count_eq failure
    have hnow := hact.whole.count_eq failure
    simp only [List.count_append] at hbefore hnow ⊢
    omega

theorem Audited.append {s : Scene} {acts : List Act} (h : s.Audited acts) (more : List Act) :
    s.Audited (acts ++ more) := by
  induction more generalizing acts with
  | nil => rwa [List.append_nil]
  | cons a more ih =>
    have hrest := ih (h.concat a)
    rwa [List.append_assoc] at hrest

/-- The books of every run are balanced that begins when no request is under way. -/
theorem audited {s : Scene} (idle : s.threads = []) (acts : List Act) : s.Audited acts := by
  have hinit : s.Audited [] := by
    refine ⟨⟨?_, ?_⟩, World.Counted.refl _, fun _ _ => ⟨rfl, rfl⟩, ?_, ?_, ?_,
      fun _ => ⟨rfl, rfl⟩, ?_⟩
    all_goals simp [perform, withheld, idle, mishaps, reports, forgotten, collect]
  exact hinit.append acts

/-- Each failed call of a run is returned to a caller or noted, and never both. -/
structure ReportsOnce (s : Scene) (acts : List Act) : Prop where
  /-- A request that has ended has noted each of its failures that is swallowed, and has returned
  the one that is not; so it has reported as many as there were. -/
  requests : ∀ t ∈ (s.perform acts).threads, ∀ outcome, t.point = .finished outcome →
    (Mishap.swallowed (s.mishapsOf (.request t.key) acts)).Perm
        (s.reportsOf (.request t.key) acts) ∧
      Mishap.returned (s.mishapsOf (.request t.key) acts) = outcome.blame ∧
      outcome.blame.length + (s.reportsOf (.request t.key) acts).length =
        (s.mishapsOf (.request t.key) acts).length
  refreshes : ∀ ticket,
    Mishap.swallowed (s.mishapsOf (.refresh ticket) acts) =
        s.reportsOf (.refresh ticket) acts ∧
      Mishap.returned (s.mishapsOf (.refresh ticket) acts) = []
  /-- A refresh that was called off ends without a report. -/
  calledOff : ∀ ticket r, (s.perform acts).world.refreshes.find? (·.ticket = ticket) = some r →
    r.aborted = true → (s.perform acts).tells (.turn ticket) = []
  /-- Each report raises the counter of its kind, and nothing else raises a counter. -/
  counted : (s.perform acts).world.failures =
    (s.reports acts).foldl FailureCounts.note s.world.failures
  /-- Nothing else is reported.  What is not reported yet waits for the end of a deletion's
  announcement, or was forgotten since the caller has left before that. -/
  whole : (Mishap.swallowed (s.mishaps acts)).Perm
    (s.reports acts ++ (s.forgotten acts ++ (s.perform acts).withheld))
  total : (s.perform acts).world.failures.total +
      ((s.forgotten acts).length + (s.perform acts).withheld.length) =
    s.world.failures.total + (Mishap.swallowed (s.mishaps acts)).length

/-- In every interleaving of requests, refreshes, faults and interruptions, each failed call is
reported once. -/
theorem failures_are_reported_once {s : Scene} (idle : s.threads = []) (acts : List Act) :
    s.ReportsOnce acts := by
  have haudited := audited idle acts
  refine ⟨fun t ht outcome hpoint => ?_, haudited.refreshes, fun ticket r hfind haborted => ?_,
    haudited.noted.counted, haudited.whole, ?_⟩
  · have hnothing : t.point.withheld = [] := by
      rw [hpoint]
      rfl
    have hswallowed := haudited.swallowed t ht
    have hreturned := haudited.returned t ht
    rw [hnothing, List.append_nil] at hswallowed
    rw [hpoint] at hreturned
    refine ⟨hswallowed, hreturned, ?_⟩
    rw [← hswallowed.length_eq, ← Mishap.length_returned_add_swallowed, hreturned]
    rfl
  · have hnoted := ((s.perform acts).world.turn_accounts r).1
    have hhears : (s.perform acts).world.hearsOfRefresh r = [] := if_pos haborted
    rw [hhears] at hnoted
    refine tells_eq ?_
    simp only [act, hfind]
    exact hnoted
  · have hlength := haudited.whole.length_eq
    simp only [List.length_append] at hlength
    rw [haudited.noted.counted, FailureCounts.total_noteAll, hlength, Nat.add_assoc]

/-- A record is read, and the refresh fails.  It is deleted, and neither the cache nor the event bus
can be told.  Then it is looked for once more while the cache does not answer. -/
def failuresAroundDeletion : List Act :=
  let id := oldRecord.id
  let fails (port : Port) : Port × Fault := (port, { error := some (.backend "out of order") })
  [.setFaults [fails .cacheSet, fails .cacheDeleteById, fails .publishDeleted],
    .start {} (.get id), .look 0 .cache, .look 0 .cache, .turn 0,
    .start {} (.delete id), .look 1 .cache, .look 1 .cache, .look 1 .bus, .look 1 .cache,
    .look 1 .cache, .setFaults [fails .cacheGetById], .start {} (.get id), .look 2 .cache,
    .look 2 .cache]

/-- Four of the five failed calls are counted, and the fifth is what the last read returns. -/
theorem reported_in_failuresAroundDeletion :
    withOldRecord.threads = [] ∧ withOldRecord.ReportsOnce failuresAroundDeletion ∧
      (withOldRecord.mishaps failuresAroundDeletion).length = 5 ∧
      (withOldRecord.perform failuresAroundDeletion).world.failures = ⟨1, 1, 1, 1⟩ ∧
      ∃ t ∈ (withOldRecord.perform failuresAroundDeletion).threads, t.key = 2 ∧
        t.point.blame = [.notFound oldRecord.id] :=
  ⟨rfl, failures_are_reported_once rfl failuresAroundDeletion, by decide, by decide, by decide⟩

end Scene

end Simulation

end CacheAside
