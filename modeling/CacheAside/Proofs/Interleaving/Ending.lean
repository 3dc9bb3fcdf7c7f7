import CacheAside.Proofs.Interleaving.Outcome

/-!
# How a deletion comes to its end

A deletion that has removed its record ends well if it ends (`lasting_hasRemoved`), and it does not
break down (`firm_hasRemoved`).  It needs nothing but time for it, unless the cache or the event bus
never answers (`Scene.leads_of_hasRemoved`).
-/

namespace CacheAside.Simulation

/-- A deletion of the record has removed it, and has ended well if it has ended. -/
def Point.HasRemoved (id : RecordId) : Point → Prop
  | .asking _ _ => False
  | .settling change _ => change = .deleted id
  | .announcing change _ _ _ => change = .deleted id
  | .finished outcome => outcome = .ok .done

theorem lasting_hasRemoved (id : RecordId) : Lasting (Point.HasRemoved id) := by
  intro w w' ctx spans p p' h removed
  cases h with
  | asksOn => exact removed.elim
  | resumes => exact removed.elim
  | concludes =>
    -- whatever has become of the cache and of the event, the record is gone
    cases removed
    rfl
  | settlesOn => exact removed
  | settled => exact removed
  | cacheWaits => exact removed
  | cacheTold => exact removed
  | busWaits => exact removed
  | busTold => exact removed
  | skips => exact removed
  | rests => exact removed

theorem firm_hasRemoved (id : RecordId) : Firm (Point.HasRemoved id) := by
  intro w w' ctx spans p removed h
  cases h with
  | askBreaks => exact removed
  | cacheBreaks visit =>
    cases removed
    obtain ⟨r, hkeep⟩ := World.eq_keep_of_broken visit
    cases hkeep
  | busBreaks visit =>
    obtain ⟨r, hkeep⟩ := World.eq_keep_of_broken visit
    cases hkeep

/-! ## Calls that get their time -/

section

variable {call : PortCall}

/-- The call never gets any further by itself. -/
def hangs (g : Option (Guarded call)) : Bool :=
  g.any (·.flight.timer?.isNone)

/-- The moment that the call waits for. -/
def due (g : Option (Guarded call)) : Nat :=
  (g.bind (·.flight.timer?)).elim 0 (·.due)

theorem hangs_of_decided {g : Option (Guarded call)} {reply : call.Reply}
    (h : decided? g = some reply) : hangs g = false := by
  match g with
  | none => rfl
  | some ⟨_, .after _ _⟩ => rfl
  | some ⟨_, .before _ _⟩ => cases h

namespace World

variable {w w' : World} {owner : Owner} {ctx : Context} {spans : List Span}
  {g : Option (Guarded call)} {poll : Poll call.Reply (Guarded call)}

/-- Only a call that keeps a record in the cache may get no reply. -/
theorem served_of_steady (w : World) (steady : ∀ r, call ≠ .writeCache (.keep r)) :
    ∃ reply, (w.servedNow call).reply = some reply := by
  cases hserved : (w.servedNow call).reply with
  | some reply => exact ⟨reply, rfl⟩
  | none =>
    obtain ⟨r, hkeep⟩ := Backend.eq_keep_of_broken hserved
    exact absurd hkeep (steady r)

theorem decided_of_act (w : World) (owner : Owner) (spans : List Span)
    (steady : ∀ r, call ≠ .writeCache (.keep r)) (fault : Fault) (deadline : Option Timer) :
    ∃ reply, (keepDeadline deadline (w.act owner spans call fault).2).decided? = some reply := by
  cases hacts : fault.acts with
  | false =>
    obtain ⟨e, he⟩ := w.act_of_not_acts owner spans call hacts
    rw [he]
    exact ⟨_, (w.reply_spec owner fault (.error e : call.Reply) deadline).2.1⟩
  | true =>
    obtain ⟨reply, hserved⟩ := w.served_of_steady steady
    rw [w.act_of_acts owner spans call hacts]
    rw [← w.serveService_fst spans call] at hserved
    rcases hserve : w.serveService spans call with ⟨_ | reply', w₁⟩
    · rw [hserve] at hserved
      cases hserved
    · exact ⟨_, (w₁.reply_spec owner fault (fault.cover reply') deadline).2.1⟩

/-- A call that has waited long enough is decided by the next look, if no fault is to come. -/
theorem decided_of_waited (steady : ∀ r, call ≠ .writeCache (.keep r)) (calm : w.faults = [])
    (going : hangs g = false) (waited : due g ≤ w.now)
    (visit : w.visit owner ctx spans g = (w', poll)) : ∃ reply, poll.decided? = some reply := by
  cases hcheck : w.check ctx with
  | error cause =>
    have hready := visit_of_error owner spans g hcheck
    rw [visit] at hready
    cases (hready : poll = _)
    exact ⟨_, rfl⟩
  | ok value =>
    match g with
    | none =>
      obtain ⟨reply, hserved⟩ := w.served_of_steady steady
      have hready := ready_of_calm hcheck calm hserved visit
      subst hready
      exact ⟨_, rfl⟩
    | some ⟨deadline, .before fault none⟩ => cases going
    | some ⟨deadline, .before fault (some timer)⟩ =>
      have hdue : timer.due ≤ w.now := waited
      have hacted : poll = keepDeadline deadline (w.act owner spans call fault).2 := by
        simp only [World.visit, revisit, hcheck, follow, hdue, if_true] at visit
        exact (congrArg Prod.snd visit).symm
      rw [hacted]
      exact w.decided_of_act owner spans steady fault deadline
    | some ⟨deadline, .after reply timer⟩ =>
      have hready : w.visit owner ctx spans (some ⟨deadline, .after reply timer⟩) =
          (w.land owner call.port, .ready reply) := visit_of_due hcheck waited
      rw [visit] at hready
      cases hready
      exact ⟨_, rfl⟩

/-- A call whose reply was decided replies when it has waited long enough. -/
theorem ready_of_decided {reply : call.Reply} (decided : decided? g = some reply)
    (waited : due g ≤ w.now) (visit : w.visit owner ctx spans g = (w', poll)) :
    ∃ reply, poll = .ready reply := by
  cases hcheck : w.check ctx with
  | error cause =>
    have hready := visit_of_error owner spans g hcheck
    rw [visit] at hready
    exact ⟨_, hready⟩
  | ok value =>
    match g with
    | none => cases decided
    | some ⟨deadline, .before fault timer⟩ => cases decided
    | some ⟨deadline, .after reply timer⟩ =>
      have hready : w.visit owner ctx spans (some ⟨deadline, .after reply timer⟩) =
          (w.land owner call.port, .ready reply) := visit_of_due hcheck waited
      rw [visit] at hready
      cases hready
      exact ⟨_, rfl⟩

end World

namespace Branch

/-- The call of the branch never gets any further by itself. -/
def isHung : Branch call → Bool
  | .waiting g => hangs g
  | .replied _ => false

/-- The number of looks that the branch still needs at most. -/
def looks : Branch call → Nat
  | .waiting g => if (CacheAside.Simulation.decided? g).isSome then 1 else 2
  | .replied _ => 0

end Branch

/-- When a branch has waited long enough, it needs one look less after the next. -/
theorem World.pollBranch_of_waited {w : World} (ctx : Context) (spans : List Span)
    (call : PortCall) (notes : call.Reply → List Note) {g : Option (Guarded call)}
    (steady : ∀ r, call ≠ .writeCache (.keep r)) (calm : w.faults = []) (going : hangs g = false)
    (waited : due g ≤ w.now) :
    ∃ w' branch', w.pollBranch ctx spans call notes (.waiting g) = (w', some branch') ∧
      branch'.isHung = false ∧ branch'.looks < (Branch.waiting g).looks := by
  have hsome : 0 < (Branch.waiting g).looks := by
    simp only [Branch.looks]
    split <;> omega
  rcases hvisit : w.visit none ctx spans g with ⟨w', poll⟩
  obtain ⟨reply, hdecided⟩ := decided_of_waited steady calm going waited hvisit
  simp only [pollBranch, hvisit]
  cases poll with
  | ready reply => exact ⟨_, _, rfl, rfl, hsome⟩
  | pending g' =>
    have hdecided : decided? (some g') = some reply := hdecided
    refine ⟨_, _, rfl, hangs_of_decided hdecided, ?_⟩
    cases hbefore : decided? g with
    | none => simp [Branch.looks, hdecided, hbefore]
    | some reply' =>
      obtain ⟨reply'', hready⟩ := ready_of_decided hbefore waited hvisit
      cases hready
  | broken => cases hdecided

end

/-! ## The way to the end -/

/-- The world when some time has passed and no fault is to come. -/
def World.calmed (w : World) (now : Nat) : World :=
  { w with now := max w.now now, faults := [] }

/-- The request waits for a call that never gets any further by itself. -/
def Point.isHung : Point → Bool
  | .asking _ g => hangs g
  | .announcing _ _ cache events => cache.isHung || events.isHung
  | _ => false

namespace Scene

variable {s : Scene} {t : Thread} {P : Scene → Prop}

/-- A request may be looked at when some time has passed and no fault is to come. -/
theorem leads_of_look (numbered : s.Numbered) (mem : t ∈ s.threads) {now : Nat} {side : Side}
    {w : World} {p : Point}
    (stride : (s.world.calmed now).stride t.call.ctx t.call.spans side t.point = (w, some p))
    (next : ∀ {s' : Scene}, s'.Numbered → t.goTo p ∈ s'.threads → s'.Leads P) : s.Leads P := by
  have hnumbered := (numbered.step (s.step_act (.pass now))).step (step_act _ (.setFaults []))
  have hlook := look_spec hnumbered (t := t) mem stride
  refine Leads.of_act (a := .pass now) ?_ (by simp)
  refine Leads.of_act (a := .setFaults []) ?_ (by simp)
  refine Leads.of_act (a := .look t.key side) ?_ (by simp)
  exact next (hnumbered.step (step_act _ _)) hlook.2

/-- A deletion that tells of its change comes to its end. -/
theorem leads_of_announcing (numbered : s.Numbered) (mem : t ∈ s.threads) {id : RecordId} {f : Bool}
    {cache : Branch (.writeCache (DomainEvent.deleted id).cacheWrite)}
    {events : Branch (.publish (.deleted id))}
    (point : t.point = .announcing (.deleted id) f cache events) (going : t.point.isHung = false) :
    s.Leads fun s' => ∃ u ∈ s'.threads, u.key = t.key ∧ u.point = .finished (.ok .done) := by
  -- each look at a side that has not replied makes the number of looks smaller
  generalize hlooks : cache.looks + events.looks = n
  induction n using Nat.strongRecOn generalizing s t f cache events with
  | _ n ih =>
    rw [point, Point.isHung, Bool.or_eq_false_iff] at going
    match cache, events with
    | .replied written, .replied published =>
      have hstride : ∃ w, (s.world.calmed 0).stride t.call.ctx t.call.spans .cache t.point =
          (w, some (.finished (.ok .done))) := by
        rw [point]
        exact ⟨_, rfl⟩
      obtain ⟨w, hstride⟩ := hstride
      exact leads_of_look numbered mem hstride fun _ mem' => ⟨_, .refl, _, mem', rfl, rfl⟩
    | .waiting g, events =>
      obtain ⟨w', cache', hpoll, hgoing, hless⟩ := World.pollBranch_of_waited
        (w := s.world.calmed (due g)) t.call.ctx t.call.spans
        (.writeCache (DomainEvent.deleted id).cacheWrite) (DomainEvent.deleted id).cacheNotes
        (by rintro r ⟨⟩) rfl going.1 (Nat.le_max_right _ _)
      have hstride : (s.world.calmed (due g)).stride t.call.ctx t.call.spans .cache t.point =
          (w', some (.announcing (.deleted id) true cache' events)) := by
        rw [point, World.stride_announcing (by rintro ⟨_, _, ⟨⟩, -⟩)]
        simp only [World.tellCache, hpoll]
      refine leads_of_look numbered mem hstride fun numbered' mem' => ?_
      refine ih (cache'.looks + events.looks) ?_
        (t := t.goTo (.announcing (.deleted id) true cache' events)) numbered' mem' rfl ?_ rfl
      · omega
      · show (cache'.isHung || events.isHung) = false
        rw [hgoing, going.2]
        rfl
    | .replied written, .waiting g =>
      obtain ⟨w', events', hpoll, hgoing, hless⟩ := World.pollBranch_of_waited
        (w := s.world.calmed (due g)) t.call.ctx t.call.spans (.publish (.deleted id)) (fun _ => [])
        (by rintro r ⟨⟩) rfl going.2 (Nat.le_max_right _ _)
      have hstride : (s.world.calmed (due g)).stride t.call.ctx t.call.spans .bus t.point =
          (w', some (.announcing (.deleted id) false (.replied written) events')) := by
        rw [point, World.stride_announcing (by rintro ⟨_, _, -, ⟨⟩⟩)]
        simp only [World.tellBus, hpoll]
      refine leads_of_look numbered mem hstride fun numbered' mem' => ?_
      refine ih (0 + events'.looks) ?_
        (t := t.goTo (.announcing (.deleted id) false (.replied written) events')) numbered' mem'
        rfl ?_ rfl
      · have hzero : (Branch.replied written).looks = 0 := rfl
        omega
      · exact hgoing

/-- A deletion that has removed its record comes to its end, unless it waits for a call that never
gets any further. -/
theorem leads_of_hasRemoved (numbered : s.Numbered) (mem : t ∈ s.threads) {id : RecordId}
    (removed : t.point.HasRemoved id) (going : t.point.isHung = false) :
    s.Leads fun s' => ∃ u ∈ s'.threads, u.key = t.key ∧ u.point = .finished (.ok .done) := by
  cases hpoint : t.point with
  | asking ask g =>
    rw [hpoint] at removed
    exact removed.elim
  | settling change tickets =>
    rw [hpoint] at removed
    obtain rfl : change = .deleted id := removed
    apply leads_of_settles numbered mem hpoint
    intro s' numbered' _ mem'
    let told : Point := .announcing (.deleted id) true (.waiting none) (.waiting none)
    exact leads_of_announcing (t := t.goTo told) numbered' mem' rfl rfl
  | announcing change f cache events =>
    rw [hpoint] at removed
    obtain rfl : change = .deleted id := removed
    exact leads_of_announcing numbered mem hpoint going
  | finished outcome =>
    rw [hpoint] at removed
    obtain rfl : outcome = .ok .done := removed
    exact ⟨s, .refl, t, mem, rfl, hpoint⟩

end Scene

end CacheAside.Simulation
