import CacheAside.Proofs.Interleaving.Reports

/-!
# Effects

In an act of a scene at most one call takes effect (`Scene.effect?`).  Such a call does to the ports
what it does there at that moment, and nothing else is done to them (`Scene.backend_act`).  An act
in which no call takes effect finds nothing out about the ports either: with any others in their
place it would have done the same (`Scene.act_on`).
-/

namespace CacheAside.Simulation

namespace World

/-- The world with other ports. -/
def on (w : World) (b : Backend) : World :=
  { w with backend := b }

/-- The call of a branch, if a look at the branch lets it take effect. -/
def effectOf (w : World) (ctx : Context) {call : PortCall} : Branch call → Option PortCall
  | .waiting g => if w.acts ctx g then some call else none
  | .replied _ => none

/-- The call that takes effect when a request at some point is looked at. -/
def effect? (w : World) (ctx : Context) (side : Side) : Point → Option PortCall
  | .asking ask g => if w.acts ctx g then some ask.call else none
  | .announcing _ _ cache events =>
    match side with
    | .cache => w.effectOf ctx cache
    | .bus => w.effectOf ctx events
  | _ => none

/-- The call that takes effect in the turn of a refresh. -/
def effectOfTurn (w : World) (r : Refresh) : Option PortCall :=
  if !r.aborted && w.acts r.ctx r.call then some (.writeCache (.keep r.record)) else none

/-- How a call takes effect when a request is looked at. -/
inductive TakesEffect (w : World) (ctx : Context) : Side → Point → PortCall → Prop where
  | asking {side : Side} {ask : Ask} {g : Option (Guarded ask.call)} (acts : w.acts ctx g = true) :
      TakesEffect w ctx side (.asking ask g) ask.call
  | cache {change : DomainEvent} {f : Bool} {g : Option (Guarded (.writeCache change.cacheWrite))}
      {events : Branch (.publish change)} (acts : w.acts ctx g = true) :
      TakesEffect w ctx .cache (.announcing change f (.waiting g) events)
        (.writeCache change.cacheWrite)
  | bus {change : DomainEvent} {f : Bool} {cache : Branch (.writeCache change.cacheWrite)}
      {g : Option (Guarded (.publish change))} (acts : w.acts ctx g = true) :
      TakesEffect w ctx .bus (.announcing change f cache (.waiting g)) (.publish change)

theorem takesEffect {w : World} {ctx : Context} {side : Side} {p : Point} {call : PortCall}
    (h : w.effect? ctx side p = some call) : w.TakesEffect ctx side p call := by
  cases p with
  | asking ask g =>
    simp only [effect?, Option.ite_none_right_eq_some, Option.some.injEq] at h
    obtain ⟨hacts, rfl⟩ := h
    exact .asking hacts
  | settling change tickets => cases h
  | finished outcome => cases h
  | announcing change f cache events =>
    cases side with
    | cache =>
      cases cache with
      | replied reply => cases h
      | waiting g =>
        simp only [effect?, effectOf, Option.ite_none_right_eq_some, Option.some.injEq] at h
        obtain ⟨hacts, rfl⟩ := h
        exact .cache hacts
    | bus =>
      cases events with
      | replied reply => cases h
      | waiting g =>
        simp only [effect?, effectOf, Option.ite_none_right_eq_some, Option.some.injEq] at h
        obtain ⟨hacts, rfl⟩ := h
        exact .bus hacts

variable {call : PortCall}

/-! ## Other ports in their place -/

section

variable (w : World) (b : Backend)

theorem takeFault_on (port : Port) :
    (w.on b).takeFault port = ((w.takeFault port).1, (w.takeFault port).2.on b) := by
  have hfaults : (w.on b).faults = w.faults := rfl
  unfold takeFault
  rw [hfaults]
  split <;> rfl

theorem wake_on (ticket : Ticket) : (w.on b).wake ticket = (w.wake ticket).on b := by
  have hqueue : (w.on b).queue = w.queue := rfl
  unfold wake
  rw [hqueue]
  split <;> rfl

theorem abort_on (ticket : Ticket) : (w.on b).abort ticket = (w.abort ticket).on b := by
  unfold abort
  exact wake_on { w with refreshes := _ } b ticket

theorem spawn_on (ctx : Context) (spans : List Span) (r : Record) :
    (w.on b).spawn ctx spans r = (w.spawn ctx spans r).on b := by
  unfold spawn
  exact wake_on { w with tracker := _, refreshes := _ } b _

theorem note_on (ctx : Context) (spans : List Span) (n : Note) :
    (w.on b).note ctx spans n = (w.note ctx spans n).on b := by
  cases n with
  | said remark => rfl
  | swallowed failure => rfl
  | refresh r => exact w.spawn_on b ctx spans r

theorem noteAll_on (ctx : Context) (spans : List Span) (notes : List Note) :
    (w.on b).noteAll ctx spans notes = (w.noteAll ctx spans notes).on b := by
  induction notes generalizing w with
  | nil => rfl
  | cons n notes ih =>
    have hnext := ih (w.note ctx spans n)
    rw [← note_on] at hnext
    exact hnext

theorem reach_on (stage : Stage) :
    (w.on b).reach stage = ((w.reach stage).1.on b, (w.reach stage).2) := by
  cases stage <;> rfl

theorem settle_on (tickets : List Ticket) :
    (w.on b).settle tickets = ((w.settle tickets).1.on b, (w.settle tickets).2) := by
  induction tickets with
  | nil => rfl
  | cons ticket tickets ih =>
    have halive : (w.on b).isAlive ticket = w.isAlive ticket := rfl
    simp only [settle, halive]
    split
    · rw [abort_on]
    · exact ih

theorem setDeadline_on (ctx : Context) :
    (w.on b).setDeadline ctx = ((w.setDeadline ctx).1, (w.setDeadline ctx).2.on b) := by
  unfold setDeadline
  split <;> rfl

theorem reply_on (owner : Owner) (fault : Fault) (reply : call.Reply) :
    (w.on b).reply owner fault reply =
      ((w.reply owner fault reply).1.on b, (w.reply owner fault reply).2) := by
  unfold World.reply
  split <;> rfl

@[simp] theorem acts_on (ctx : Context) (g : Option (Guarded call)) :
    (w.on b).acts ctx g = w.acts ctx g := by
  have hfault (g : Option (Guarded call)) : (w.on b).faultOf g = w.faultOf g := by
    rcases g with _ | ⟨deadline, fault | _⟩
    · simp only [faultOf, takeFault_on]
      rfl
    · rfl
    · rfl
  have hdue : (w.on b).isDue g = w.isDue g := by
    rcases g with _ | ⟨deadline, ⟨fault, _ | timer⟩ | _⟩
    · simp only [isDue, hfault]
    · rfl
    · rfl
    · rfl
  simp only [acts, hfault, hdue]
  rfl

/-- A call that fails before its effect does not find out anything about the ports. -/
theorem act_on (owner : Owner) (spans : List Span) {fault : Fault} (h : fault.acts = false) :
    (w.on b).act owner spans call fault =
      ((w.act owner spans call fault).1.on b, (w.act owner spans call fault).2) := by
  obtain ⟨e, herror⟩ : ∃ e, fault.error = some e := by
    cases herror : fault.error with
    | some e => exact ⟨e, rfl⟩
    | none => simp [Fault.acts, herror] at h
  have hafter : fault.after = false := by simpa [Fault.acts, herror] using h
  simp only [act, herror, hafter]
  exact w.reply_on b owner fault _

end

/-- A call that starts without an effect does not find out anything about the ports. -/
theorem depart_on (w : World) (b : Backend) (owner : Owner) (spans : List Span)
    (h : w.isDue (none : Option (Guarded call)) = true →
      (w.faultOf (none : Option (Guarded call))).acts = false) :
    (w.on b).depart owner spans call =
      ((w.depart owner spans call).1.on b, (w.depart owner spans call).2) := by
  have hwatched : (w.on b).isWatched call = w.isWatched call := rfl
  have hlaunch : (w.on b).launch owner call.port = (w.launch owner call.port).on b := rfl
  have hfault : w.faultOf (none : Option (Guarded call)) =
      if w.isWatched call then ((w.launch owner call.port).takeFault call.port).1 else {} := by
    simp only [faultOf, takeFault_fst]
    rfl
  simp only [isDue, hfault] at h
  unfold depart
  rw [hwatched, hlaunch, takeFault_on]
  split
  · rename_i hwatched
    simp only [hwatched, if_true] at h
    dsimp only
    split
    · rfl
    · split
      · rename_i hhang hdelay
        exact act_on _ b owner spans (h (by simp [hhang, hdelay]))
      · rfl
  · rename_i hwatched
    simp only [hwatched] at h
    exact absurd (h rfl) (by simp [Fault.acts])

/-- A look at a call that lets it take no effect does not find out anything about the ports. -/
theorem visit_on (w : World) (b : Backend) (owner : Owner) (ctx : Context) (spans : List Span)
    {g : Option (Guarded call)} (h : w.acts ctx g = false) :
    (w.on b).visit owner ctx spans g =
      ((w.visit owner ctx spans g).1.on b, (w.visit owner ctx spans g).2) := by
  have hcheck : (w.on b).check ctx = w.check ctx := rfl
  cases g with
  | none =>
    simp only [visit, enter, hcheck]
    split
    · rfl
    · rename_i hok
      have hdue : (w.setDeadline ctx).2.isDue (none : Option (Guarded call)) = true →
          ((w.setDeadline ctx).2.faultOf (none : Option (Guarded call))).acts = false := by
        have hset : (w.setDeadline ctx).2.isDue (none : Option (Guarded call)) =
            w.isDue (none : Option (Guarded call)) ∧
            (w.setDeadline ctx).2.faultOf (none : Option (Guarded call)) =
              w.faultOf (none : Option (Guarded call)) := by
          simp only [isDue, faultOf, takeFault_fst, setDeadline]
          split <;> exact ⟨rfl, rfl⟩
        rw [hset.1, hset.2]
        intro hdue
        simpa [acts, hok, hdue, Except.toBool] using h
      rw [setDeadline_on]
      dsimp only
      rw [depart_on _ b owner spans hdue]
  | some g =>
    obtain ⟨deadline, flight⟩ := g
    simp only [visit, revisit, hcheck]
    split
    · rfl
    · rename_i hok
      have hnow : (w.on b).now = w.now := rfl
      cases flight with
      | before fault timer =>
        cases timer with
        | none => rfl
        | some timer =>
          simp only [follow, hnow]
          split
          · rename_i hdue
            have hacts : fault.acts = false := by
              simpa [acts, hok, isDue, faultOf, hdue, Except.toBool] using h
            rw [act_on w b owner spans hacts]
          · rfl
      | after reply timer =>
        simp only [follow, hnow]
        split <;> rfl

theorem pollBranch_on (w : World) (b : Backend) (ctx : Context) (spans : List Span)
    (call : PortCall) (notes : call.Reply → List Note) {branch : Branch call}
    (h : w.effectOf ctx branch = none) :
    (w.on b).pollBranch ctx spans call notes branch =
      ((w.pollBranch ctx spans call notes branch).1.on b,
        (w.pollBranch ctx spans call notes branch).2) := by
  cases branch with
  | replied reply => rfl
  | waiting g =>
    have hacts : w.acts ctx g = false := by simpa [effectOf] using h
    simp only [pollBranch]
    rw [visit_on w b none ctx spans hacts]
    rcases w.visit none ctx spans g with ⟨w', reply | g' | _⟩
    · simp only [noteAll_on]
    · rfl
    · rfl

/-- A stride without an effect does not find out anything about the ports. -/
theorem stride_on (w : World) (b : Backend) (ctx : Context) (spans : List Span) (side : Side)
    {p : Point} (h : w.effect? ctx side p = none) :
    (w.on b).stride ctx spans side p =
      ((w.stride ctx spans side p).1.on b, (w.stride ctx spans side p).2) := by
  cases p with
  | asking ask g =>
    have hacts : w.acts ctx g = false := by simpa [effect?] using h
    simp only [stride, move]
    rw [visit_on w b none ctx spans hacts]
    rcases w.visit none ctx spans g with ⟨w', reply | g' | _⟩
    · have hservice : (w'.on b).service = w'.service := rfl
      simp only [hservice, noteAll_on, reach_on]
    · rfl
    · rfl
  | settling change tickets =>
    simp only [stride, move, settle_on]
    rcases w.settle tickets with ⟨w', _ | ⟨ticket, left⟩⟩ <;> rfl
  | finished outcome => rfl
  | announcing change f cache events =>
    have hcache (hnone : w.effectOf ctx cache = none) :
        (w.on b).tellCache ctx spans change cache events =
          ((w.tellCache ctx spans change cache events).1.on b,
            (w.tellCache ctx spans change cache events).2) := by
      simp only [tellCache, w.pollBranch_on b ctx spans (.writeCache change.cacheWrite)
        change.cacheNotes hnone]
      rcases w.pollBranch ctx spans (.writeCache change.cacheWrite) change.cacheNotes cache with
        ⟨w', _ | cache'⟩ <;> rfl
    have hbus (hnone : w.effectOf ctx events = none) :
        (w.on b).tellBus ctx spans change cache events =
          ((w.tellBus ctx spans change cache events).1.on b,
            (w.tellBus ctx spans change cache events).2) := by
      simp only [tellBus, w.pollBranch_on b ctx spans (.publish change) (fun _ => []) hnone]
      rcases w.pollBranch ctx spans (.publish change) (fun _ => []) events with
        ⟨w', _ | events'⟩ <;> rfl
    rcases cache with g | written <;> rcases events with g' | published
    case replied.replied => simp only [stride, noteAll_on]
    all_goals cases side with
    | cache => exact hcache h
    | bus => exact hbus h

/-- Without an effect the store makes no change, whatever it holds. -/
theorem change?_on_of_effect? {w : World} {ctx : Context} {side : Side} {p : Point}
    (h : w.effect? ctx side p = none) (b : Backend) : (w.on b).change? ctx p = none := by
  cases p with
  | asking ask g =>
    have hacts : w.acts ctx g = false := by simpa [effect?] using h
    simp [change?, hacts]
  | settling change tickets => rfl
  | announcing change f cache events => rfl
  | finished outcome => rfl

theorem openCall_on (w : World) (b : Backend) (ctx : Context) (request : Request) :
    (w.on b).openCall ctx request =
      ((w.openCall ctx request).1.on b, (w.openCall ctx request).2) := by
  have hservice : (w.on b).service = w.service := rfl
  simp only [openCall, hservice, reach_on]
  rfl

/-- A turn without an effect does not find out anything about the ports. -/
theorem turn_on (w : World) (b : Backend) {r : Refresh} (h : w.effectOfTurn r = none) :
    (w.on b).turn r = ((w.turn r).1.on b, (w.turn r).2) := by
  unfold turn
  split
  · rfl
  · rename_i hlive
    have hacts : w.acts r.ctx r.call = false := by simpa [effectOfTurn, hlive] using h
    rw [visit_on w b (some r.ticket) r.ctx r.spans hacts]
    rcases w.visit (some r.ticket) r.ctx r.spans r.call with ⟨w', reply | g | _⟩
    · simp only [noteAll_on]
      rfl
    · rfl
    · rfl

/-! ## What an effect does -/

/-- A call that takes effect does to the ports what it does there at that moment. -/
theorem Visited.backend_of_acts {w w' : World} {ctx : Context} {g : Option (Guarded call)}
    {poll : Poll call.Reply (Guarded call)} (h : Visited w ctx g w' poll)
    (hacts : w.acts ctx g = true) : w'.backend = (w.servedNow call).backend := by
  cases h with
  | waits calm still => simp [hacts] at still
  | fails calm still => simp [hacts] at still
  | awaits calm still => simp [hacts] at still
  | replies calm still => simp [hacts] at still
  | answers alike acted fresh backend => exact backend
  | breaks calm acted served =>
    refine calm.backend.trans (Backend.serve_of_not_ok fun value hok => ?_).symm
    cases served.symm.trans hok

theorem Resumed.backend {w w' : World} {ctx : Context} {ask : Ask} {reply : ask.call.Reply}
    {p : Point} (h : Resumed w ctx ask reply w' p) : w'.backend = w.backend := by
  cases h with
  | asks calm => exact calm.backend
  | finishes calm => exact calm.backend
  | spawns spans background coeval backend => exact backend
  | announces => rfl
  | settles => rfl

/-- A look at a branch does to the ports what its effect does. -/
theorem backend_pollBranch (w : World) (ctx : Context) (spans : List Span) (call : PortCall)
    {notes : call.Reply → List Note} (quiet : ∀ reply, ∀ n ∈ notes reply, n.IsQuiet)
    {branch : Branch call} {effect : PortCall} (h : w.effectOf ctx branch = some effect) :
    (w.pollBranch ctx spans call notes branch).1.backend = (w.servedNow effect).backend := by
  cases branch with
  | replied reply => cases h
  | waiting g =>
    simp only [effectOf, Option.ite_none_right_eq_some, Option.some.injEq] at h
    obtain ⟨hacts, rfl⟩ := h
    have hvisited := (w.visit_spec none ctx spans g).backend_of_acts hacts
    simp only [pollBranch]
    rcases hvisit : w.visit none ctx spans g with ⟨w', reply | g' | _⟩ <;> rw [hvisit] at hvisited
    · exact (w'.noteAll_quiet ctx spans (quiet reply)).backend.trans hvisited
    · exact hvisited
    · exact hvisited

/-- A stride with an effect does to the ports what the effect does. -/
theorem backend_stride (w : World) (ctx : Context) (spans : List Span) (side : Side) {p : Point}
    {effect : PortCall} (h : w.effect? ctx side p = some effect) :
    (w.stride ctx spans side p).1.backend = (w.servedNow effect).backend := by
  cases p with
  | asking ask g =>
    simp only [effect?, Option.ite_none_right_eq_some, Option.some.injEq] at h
    obtain ⟨hacts, rfl⟩ := h
    have hvisited := (w.visit_spec none ctx spans g).backend_of_acts hacts
    simp only [stride, move]
    rcases hvisit : w.visit none ctx spans g with ⟨w', reply | g' | _⟩ <;> rw [hvisit] at hvisited
    · exact (w'.resume_spec ctx spans ask reply).backend.trans hvisited
    · exact hvisited
    · exact hvisited
  | settling change tickets => cases h
  | finished outcome => cases h
  | announcing change f cache events =>
    have hcache (hsome : w.effectOf ctx cache = some effect) :
        (w.tellCache ctx spans change cache events).1.backend = (w.servedNow effect).backend := by
      rw [← w.backend_pollBranch ctx spans (.writeCache change.cacheWrite) change.quiet_cacheNotes
        hsome, tellCache]
      rcases w.pollBranch ctx spans (.writeCache change.cacheWrite) change.cacheNotes cache with
        ⟨w', _ | cache'⟩ <;> rfl
    have hbus (hsome : w.effectOf ctx events = some effect) :
        (w.tellBus ctx spans change cache events).1.backend = (w.servedNow effect).backend := by
      rw [← w.backend_pollBranch ctx spans (.publish change)
        (fun _ _ hn => absurd hn List.not_mem_nil) hsome, tellBus]
      rcases w.pollBranch ctx spans (.publish change) (fun _ => []) events with
        ⟨w', _ | events'⟩ <;> rfl
    rcases cache with g | written <;> rcases events with g' | published
    case replied.replied => cases side <;> cases h
    all_goals cases side with
    | cache => exact hcache h
    | bus => exact hbus h

/-- A turn with an effect does to the ports what the effect does. -/
theorem backend_turn (w : World) {r : Refresh} {effect : PortCall}
    (h : w.effectOfTurn r = some effect) :
    (w.turn r).1.backend = (w.servedNow effect).backend := by
  simp only [effectOfTurn, Option.ite_none_right_eq_some, Option.some.injEq, Bool.and_eq_true,
    Bool.not_eq_true'] at h
  obtain ⟨⟨hlive, hacts⟩, rfl⟩ := h
  have hvisited := (w.visit_spec (some r.ticket) r.ctx r.spans r.call).backend_of_acts hacts
  simp only [turn, hlive]
  rcases hvisit : w.visit (some r.ticket) r.ctx r.spans r.call with ⟨w', reply | g | _⟩ <;>
    rw [hvisit] at hvisited
  · exact (w'.noteAll_quiet r.ctx r.spans
      (Service.quiet_refillNotes r.record reply)).backend.trans hvisited
  · exact hvisited
  · exact hvisited

end World

namespace Scene

/-- The scene with other ports. -/
def on (s : Scene) (b : Backend) : Scene :=
  { s with world := s.world.on b }

/-- The call that takes effect in an act, and on whose behalf. -/
def effect? (s : Scene) : Act → Option (Party × PortCall)
  | .look key side => (s.threads.find? (·.key = key)).bind fun t =>
    (s.world.effect? t.call.ctx side t.point).map (.request key, ·)
  | .turn ticket => (s.world.refreshes.find? (·.ticket = ticket)).bind fun r =>
    (s.world.effectOfTurn r).map (.refresh ticket, ·)
  | _ => none

/-- How a call takes effect in an act, and on whose behalf. -/
inductive TakesEffect (s : Scene) : Act → Party → PortCall → Prop where
  | look {t : Thread} {side : Side} {call : PortCall}
      (find : s.threads.find? (·.key = t.key) = some t)
      (effect : s.world.TakesEffect t.call.ctx side t.point call) :
      TakesEffect s (.look t.key side) (.request t.key) call
  | turn {r : Refresh} (find : s.world.refreshes.find? (·.ticket = r.ticket) = some r)
      (live : r.aborted = false) (acts : s.world.acts r.ctx r.call = true) :
      TakesEffect s (.turn r.ticket) (.refresh r.ticket) (.writeCache (.keep r.record))

theorem takesEffect {s : Scene} {a : Act} {party : Party} {call : PortCall}
    (h : s.effect? a = some (party, call)) : s.TakesEffect a party call := by
  cases a with
  | look key side =>
    simp only [effect?, Option.bind_eq_some_iff, Option.map_eq_some_iff] at h
    obtain ⟨t, hfind, effect, heffect, heq⟩ := h
    cases heq
    obtain rfl : t.key = key := by simpa using List.find?_some hfind
    exact .look hfind (World.takesEffect heffect)
  | turn ticket =>
    simp only [effect?, Option.bind_eq_some_iff, Option.map_eq_some_iff] at h
    obtain ⟨r, hfind, effect, heffect, heq⟩ := h
    cases heq
    obtain rfl : r.ticket = ticket := by simpa using List.find?_some hfind
    simp only [World.effectOfTurn, Option.ite_none_right_eq_some, Option.some.injEq,
      Bool.and_eq_true, Bool.not_eq_true'] at heffect
    obtain ⟨⟨hlive, hacts⟩, rfl⟩ := heffect
    exact .turn hfind hlive hacts
  | _ => cases h

/-- An act with an effect does to the ports what the effect does. -/
theorem backend_act {s : Scene} {a : Act} {party : Party} {call : PortCall}
    (h : s.effect? a = some (party, call)) :
    (s.act a).world.backend = (s.world.servedNow call).backend := by
  cases a with
  | look key side =>
    simp only [effect?, Option.bind_eq_some_iff, Option.map_eq_some_iff] at h
    obtain ⟨t, hfind, effect, heffect, heq⟩ := h
    cases heq
    rw [← s.world.backend_stride t.call.ctx t.call.spans side heffect]
    simp only [act, hfind]
    rcases s.world.stride t.call.ctx t.call.spans side t.point with ⟨w, _ | p⟩ <;> rfl
  | turn ticket =>
    simp only [effect?, Option.bind_eq_some_iff, Option.map_eq_some_iff] at h
    obtain ⟨r, hfind, effect, heffect, heq⟩ := h
    cases heq
    simp only [act, hfind]
    exact s.world.backend_turn heffect
  | _ => cases h

/-- An act without an effect does not find out anything about the ports: with any others it would
have done the same. -/
theorem act_on {s : Scene} {a : Act} (h : s.effect? a = none) (b : Backend) :
    (s.on b).act a = (s.act a).on b := by
  cases a with
  | look key side =>
    have hthreads : (s.on b).threads = s.threads := rfl
    simp only [act, hthreads]
    cases hfind : s.threads.find? (·.key = key) with
    | none => rfl
    | some t =>
      have hnone : s.world.effect? t.call.ctx side t.point = none := by
        simpa [effect?, hfind] using h
      have hworld : (s.on b).world = s.world.on b := rfl
      have hquiet : s.world.change? t.call.ctx t.point = none :=
        World.change?_on_of_effect? hnone s.world.backend
      simp only [hworld, World.stride_on s.world b _ _ side hnone,
        World.change?_on_of_effect? hnone b, hquiet]
      rcases s.world.stride t.call.ctx t.call.spans side t.point with ⟨w, _ | p⟩ <;> rfl
  | turn ticket =>
    have hrefreshes : (s.on b).world.refreshes = s.world.refreshes := rfl
    simp only [act, hrefreshes]
    cases hfind : s.world.refreshes.find? (·.ticket = ticket) with
    | none => rfl
    | some r =>
      have hnone : s.world.effectOfTurn r = none := by simpa [effect?, hfind] using h
      have hturn : (s.on b).world.turn r = _ := s.world.turn_on b hnone
      simp only [hturn]
      rfl
  | start ctx request =>
    have hopen : (s.on b).world.openCall ctx request = _ := s.world.openCall_on b ctx request
    simp only [act, hopen]
    rfl
  | leave key =>
    have hthreads : (s.on b).threads = s.threads := rfl
    simp only [act, hthreads]
    split <;> rfl
  | pass now => rfl
  | setClock clock => rfl
  | setFaults faults => rfl
  | give signal => rfl

/-- An act without an effect leaves the ports as they are. -/
theorem backend_act_of_none {s : Scene} {a : Act} (h : s.effect? a = none) :
    (s.act a).world.backend = s.world.backend :=
  congrArg (·.world.backend) (act_on h s.world.backend)

end Scene

end CacheAside.Simulation
