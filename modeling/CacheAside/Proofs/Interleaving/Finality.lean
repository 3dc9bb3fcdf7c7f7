import CacheAside.Proofs.Interleaving.Comeback

/-!
# Whether a deletion is final

A request to get a record that has been deleted and evicted does not find it, as long as nobody
brings it back: `Point.Misses` says where such a request can stand.  `Scene.deletion_is_final_iff`
says that a deletion that has ended well is final exactly if, when the record was evicted, no
request had it in hand that could still put it into the cache, and no refresh carried it that could
still write.
-/

namespace CacheAside.Simulation

/-- No fault makes the call fail. -/
def IsSound {call : PortCall} (g : Option (Guarded call)) : Prop :=
  ∀ g₀ ∈ g, ∀ fault timer, g₀.flight = .before fault timer → fault.error = none

namespace World

variable {w w₁ w' : World} {ctx : Context} {call : PortCall} {owner : Owner} {spans : List Span}
  {g : Option (Guarded call)} {poll : Poll call.Reply (Guarded call)} {reply : call.Reply}

/-! ## Replies -/

/-- A reply that is no failure was decided before, or is what the port says now. -/
theorem reply_of_visited (h : Visited w ctx g w₁ poll) (decided : poll.decided? = some reply) :
    (∃ e, reply = .error e) ∨ decided? g = some reply ∨ (w.servedNow call).reply = some reply := by
  cases h with
  | waits calm still before =>
    simp [Poll.decided?, before, Flight.decided?] at decided
  | fails calm still failed => exact .inl ⟨_, Option.some.inj (decided.symm.trans failed)⟩
  | awaits calm still known => exact .inr (.inl (by rw [known, ← decided]; rfl))
  | replies calm still known => exact .inr (.inl (by rw [known, ← decided]; rfl))
  | breaks => cases decided
  | @answers _ served alike acted fresh backend hserved covered =>
    obtain rfl := Option.some.inj (covered.symm.trans decided)
    rcases (w.faultOf g).cover_eq served with heq | ⟨e, heq⟩
    · exact .inr (.inr (hserved.trans (congrArg some heq.symm)))
    · exact .inl ⟨e, heq⟩

/-- A call whose fault is no failure replies as the port does. -/
theorem decided?_act (w : World) (owner : Owner) (spans : List Span) (call : PortCall)
    {fault : Fault} (sound : fault.error = none) (deadline : Option Timer) :
    (keepDeadline deadline (w.act owner spans call fault).2).decided? =
      (w.servedNow call).reply := by
  have hacts : fault.acts = true := by simp [Fault.acts, sound]
  have hcover (reply : call.Reply) : fault.cover reply = reply := by simp [Fault.cover, sound]
  rw [w.act_of_acts owner spans call hacts, ← w.serveService_fst spans call]
  rcases w.serveService spans call with ⟨_ | reply, w₁⟩
  · rfl
  · simp only [hcover]
    exact (w₁.reply_spec owner fault reply deadline).2.1

theorem decided?_depart (w : World) (owner : Owner) (spans : List Span)
    (sound : (w.faultOf (none : Option (Guarded call))).error = none) (deadline : Option Timer) :
    (keepDeadline deadline (w.depart owner spans call).2).decided? =
      if w.isDue (none : Option (Guarded call)) then (w.servedNow call).reply else none := by
  have hfault : w.faultOf (none : Option (Guarded call)) =
      if w.isWatched call then ((w.launch owner call.port).takeFault call.port).1 else {} := by
    simp only [faultOf, takeFault_fst]
    rfl
  have hdue {fault : Fault} (h : w.faultOf (none : Option (Guarded call)) = fault) :
      w.isDue (none : Option (Guarded call)) = (!fault.hang && fault.delay == 0) := by
    rw [← h]
    rfl
  unfold depart
  split
  · rename_i hwatched
    rw [if_pos hwatched] at hfault
    rw [hdue hfault]
    rw [hfault] at sound
    have hsame : ((w.launch owner call.port).takeFault call.port).2.servedNow = w.servedNow :=
      (takeFault_snd ..).2.2
    dsimp only
    split
    · rename_i hhang
      simp [hhang, keepDeadline, Poll.decided?, Flight.decided?]
    · rename_i hhang
      split
      · rename_i hdelay
        rw [decided?_act _ owner spans call sound, hsame]
        simp [hhang, hdelay]
      · rename_i hdelay
        simp [hdelay, keepDeadline, Poll.decided?, Flight.decided?]
  · rename_i hwatched
    rw [if_neg hwatched] at hfault
    rw [hdue hfault]
    exact w.decided?_act owner spans call rfl deadline

/-- What a look shows of a call that is not interrupted and that no fault makes fail. -/
theorem decided?_visit (owner : Owner) (spans : List Span) (hcheck : w.check ctx = .ok ())
    (sound : (w.faultOf g).error = none) :
    (w.visit owner ctx spans g).2.decided? =
      if w.isDue g then (w.servedNow call).reply else decided? g := by
  cases g with
  | none =>
    have hset : (w.setDeadline ctx).2.faultOf (none : Option (Guarded call)) =
        w.faultOf (none : Option (Guarded call)) ∧
        (w.setDeadline ctx).2.isDue (none : Option (Guarded call)) =
          w.isDue (none : Option (Guarded call)) ∧
        (w.setDeadline ctx).2.servedNow call = w.servedNow call := by
      simp only [isDue, faultOf, takeFault_fst, setDeadline]
      split <;> exact ⟨rfl, rfl, rfl⟩
    simp only [visit, enter, hcheck]
    rw [decided?_depart _ owner spans (hset.1 ▸ sound), hset.2.1, hset.2.2]
    rfl
  | some g =>
    obtain ⟨deadline, flight⟩ := g
    simp only [visit, revisit, hcheck]
    cases flight with
    | before fault timer =>
      cases timer with
      | none => rfl
      | some timer =>
        simp only [follow, isDue, decide_eq_true_eq]
        split
        · exact w.decided?_act owner spans call sound deadline
        · rfl
    | after reply timer =>
      simp only [follow, isDue]
      split <;> rfl

/-- A call that is interrupted fails with that. -/
theorem visit_of_error (owner : Owner) (spans : List Span) (g : Option (Guarded call))
    {cause : Interruption} (hcheck : w.check ctx = .error cause) :
    (w.visit owner ctx spans g).2 = .ready (.error (call.interrupted cause)) := by
  cases g <;> simp [visit, enter, revisit, hcheck]

theorem ok_of_pending {g' : Guarded call}
    (visit : w.visit owner ctx spans g = (w₁, .pending g')) : w.check ctx = .ok () := by
  cases hcheck : w.check ctx with
  | ok value => rfl
  | error cause =>
    have hready := visit_of_error owner spans g hcheck
    rw [visit] at hready
    cases hready

/-- A reply of a call that no fault makes fail was decided before, or is what the port says now,
unless the call is interrupted. -/
theorem reply_of_sound (sound : (w.faultOf g).error = none)
    (visit : w.visit owner ctx spans g = (w₁, poll)) (decided : poll.decided? = some reply) :
    (∃ cause, w.check ctx = .error cause ∧ reply = .error (call.interrupted cause)) ∨
      decided? g = some reply ∨ (w.servedNow call).reply = some reply := by
  cases hcheck : w.check ctx with
  | error cause =>
    have hready := visit_of_error owner spans g hcheck
    rw [visit] at hready
    cases (hready : poll = _)
    exact .inl ⟨cause, rfl, (Option.some.inj decided).symm⟩
  | ok value =>
    have hshown := decided?_visit owner spans hcheck sound
    rw [visit] at hshown
    rw [show poll.decided? = _ from hshown] at decided
    split at decided
    · exact .inr (.inr decided)
    · exact .inr (.inl decided)

theorem sound_faultOf (hw : ∀ f ∈ w.faults, f.2.error = none) (hg : IsSound g) :
    (w.faultOf g).error = none := by
  match g with
  | none =>
    simp only [faultOf, takeFault_fst]
    split
    · cases hfind : w.faults.find? (·.1 = call.port) with
      | none => rfl
      | some f => exact hw f (List.mem_of_find?_eq_some hfind)
    · rfl
  | some ⟨deadline, .before fault timer⟩ => exact hg _ rfl fault timer rfl
  | some ⟨deadline, .after reply timer⟩ => rfl

/-- A call that goes on waiting does so with the same fault. -/
theorem isSound_of_visit {g' : Guarded call} (sound : (w.faultOf g).error = none)
    (visit : w.visit owner ctx spans g = (w₁, .pending g')) : IsSound (some g') := by
  have hdecided {reply : call.Reply} (h : g'.flight.decided? = some reply) : IsSound (some g') := by
    rintro _ ⟨⟩ fault timer hflight
    rw [hflight] at h
    cases h
  cases visited visit with
  | waits calm still before =>
    rintro _ ⟨⟩ fault timer hflight
    rw [before] at hflight
    cases hflight
    exact sound
  | fails calm still failed => exact hdecided failed
  | awaits => exact hdecided rfl
  | answers alike acted fresh backend served decided => exact hdecided decided

end World

/-- Where a request to get the record can stand that does not find it.  If no port fails, it learns
that there is none, unless it is interrupted. -/
inductive Point.Misses (sound : Prop) (w : World) (ctx : Context) (id : RecordId) :
    Point → Prop where
  | looks {g : Option (Guarded (Ask.lookingUp id).call)} (flight : sound → IsSound g)
      (miss : ∀ reply, decided? g = some reply →
        (¬ ∃ r, reply = .ok (some r)) ∧ (sound → reply = .ok none)) :
      Misses sound w ctx id (.asking (.lookingUp id) g)
  | fetches {g : Option (Guarded (Ask.fetching id).call)} (flight : sound → IsSound g)
      (miss : ∀ reply, decided? g = some reply →
        (¬ ∃ r, reply = .ok r) ∧ (sound → reply = .error (.notFound id))) :
      Misses sound w ctx id (.asking (.fetching id) g)
  | ends {outcome : Outcome} (miss : ∀ answer, outcome ≠ .ok answer)
      (cause : sound → outcome = .error (.notFound id) ∨
        w.check ctx ≠ .ok () ∧ ∃ cause, outcome = .error (.cancelled cause)) :
      Misses sound w ctx id (.finished outcome)

namespace World

variable {w w' : World} {ctx : Context} {spans : List Span} {id : RecordId} {sound : Prop}
  {p p' : Point}

/-- An outcome that is known stays the outcome later on. -/
theorem misses_of_later (later : Later w w') (h : p.Misses sound w ctx id) :
    p.Misses sound w' ctx id := by
  cases h with
  | looks flight miss => exact .looks flight miss
  | fetches flight miss => exact .fetches flight miss
  | ends miss cause =>
    refine .ends miss fun hsound => (cause hsound).imp_right fun ⟨hover, hcause⟩ => ⟨?_, hcause⟩
    exact fun hcheck => hover (check_of_later later.given later.now hcheck)

/-- A look at a call finds nothing if the port has nothing to find. -/
theorem miss_of_visit {call : PortCall} {found : call.Reply → Prop} {expected reply : call.Reply}
    {owner : Owner} {w₁ : World} {g : Option (Guarded call)} {poll : Poll call.Reply (Guarded call)}
    (faults : sound → ∀ f ∈ w.faults, f.2.error = none) (flight : sound → IsSound g)
    (failed : ∀ e, ¬ found (.error e)) (nothing : ¬ found expected)
    (served : (w.servedNow call).reply = some expected)
    (miss : ∀ reply, decided? g = some reply → ¬ found reply ∧ (sound → reply = expected))
    (visit : w.visit owner ctx spans g = (w₁, poll)) (decided : poll.decided? = some reply) :
    ¬ found reply ∧ (sound → reply = expected ∨
      ∃ cause, w.check ctx = .error cause ∧ reply = .error (call.interrupted cause)) := by
  refine ⟨fun hfound => ?_, fun hsound => ?_⟩
  · rcases reply_of_visited (visited visit) decided with ⟨e, rfl⟩ | hbefore | hnow
    · exact failed e hfound
    · exact (miss reply hbefore).1 hfound
    · obtain rfl := Option.some.inj (hnow.symm.trans served)
      exact nothing hfound
  · have hfault := sound_faultOf (faults hsound) (flight hsound)
    rcases reply_of_sound hfault visit decided with hover | hbefore | hnow
    · exact .inr hover
    · exact .inl ((miss reply hbefore).2 hsound)
    · exact .inl (Option.some.inj (hnow.symm.trans served))

/-- A request that does not find the record goes on not to find it. -/
theorem Strode.misses (faults : sound → ∀ f ∈ w.faults, f.2.error = none)
    (missing : w.backend.store.find id = .error (.notFound id))
    (uncached : w.backend.cache.entries.get? id = none) (h : p.Misses sound w ctx id)
    (strode : Strode w ctx spans p w' (some p')) : p'.Misses sound w' ctx id := by
  have hlater := strode.booking.1.later
  -- what interrupts a look interrupts the request for good
  have hover {cause : Interruption} (hcheck : w.check ctx = .error cause) :
      w'.check ctx ≠ .ok () := by
    intro hok
    cases hcheck.symm.trans (check_of_later hlater.given hlater.now hok)
  have hflight {call : PortCall} {g : Option (Guarded call)} {w₁ : World} {g' : Guarded call}
      (flight : sound → IsSound g) (visit : w.visit none ctx spans g = (w₁, .pending g'))
      (hsound : sound) : IsSound (some g') :=
    isSound_of_visit (sound_faultOf (faults hsound) (flight hsound)) visit
  have hnothing : ¬ ∃ r, (.ok none : (Ask.lookingUp id).call.Reply) = .ok (some r) := by
    rintro ⟨r, hr⟩
    cases hr
  have hlookUp : (w.servedNow (.lookUp id)).reply = some (.ok none) := by
    simp [servedNow, Backend.serve, Cache.get, uncached]
  have hfind : (w.servedNow (.find id)).reply = some (.error (.notFound id)) :=
    congrArg some missing
  cases h with
  | ends miss cause =>
    cases strode
    exact .ends miss cause
  | looks flight miss =>
    cases strode with
    | asksOn visit =>
      refine .looks (hflight flight visit) fun reply hreply => ?_
      obtain ⟨hnone, hmiss⟩ :=
        miss_of_visit faults flight (by simp) hnothing hlookUp miss visit hreply
      refine ⟨hnone, fun hsound => (hmiss hsound).resolve_right ?_⟩
      rintro ⟨cause, hcheck, -⟩
      cases hcheck.symm.trans (ok_of_pending visit)
    | @resumes _ _ w₁ _ reply _ visit resumed =>
      obtain ⟨hnone, hmiss⟩ := miss_of_visit faults flight (by simp) hnothing hlookUp miss visit rfl
      cases resumed with
      | asks calm quiet next =>
        cases Service.follows_of_resume next
        exact .fetches (fun _ _ h => by cases h) fun _ h => by cases h
      | finishes calm quiet next =>
        rcases reply with (message | cause) | (_ | r)
        · cases next
        · cases next
          refine .ends (by simp) fun hsound => .inr ?_
          rcases hmiss hsound with hok | ⟨cause', hcheck, -⟩
          · cases hok
          · exact ⟨hover hcheck, cause, rfl⟩
        · cases next
        · exact absurd ⟨r, rfl⟩ hnone
      | settles made => cases made
  | fetches flight miss =>
    cases strode with
    | asksOn visit =>
      refine .fetches (hflight flight visit) fun reply hreply => ?_
      obtain ⟨hnone, hmiss⟩ :=
        miss_of_visit faults flight (by simp) (by simp) hfind miss visit hreply
      refine ⟨hnone, fun hsound => (hmiss hsound).resolve_right ?_⟩
      rintro ⟨cause, hcheck, -⟩
      cases hcheck.symm.trans (ok_of_pending visit)
    | @resumes _ _ w₁ _ reply _ visit resumed =>
      obtain ⟨hnone, hmiss⟩ := miss_of_visit faults flight (by simp) (by simp) hfind miss visit rfl
      cases reply with
      | ok r => exact absurd ⟨r, rfl⟩ hnone
      | error e =>
        cases resumed with
        | asks calm quiet next => cases next
        | finishes calm quiet next =>
          cases next
          refine .ends (by simp) fun hsound => ?_
          rcases hmiss hsound with heq | ⟨cause, hcheck, heq⟩
          · cases heq
            exact .inl rfl
          · cases heq
            exact .inr ⟨hover hcheck, cause, rfl⟩
        | settles made => cases made

end World

namespace Scene

variable {s₀ s s' : Scene} {t : Thread} {id : RecordId}

/-- No port fails from now on. -/
def Reliably (_ s' : Scene) : Prop :=
  ∀ f ∈ s'.world.faults, f.2.error = none

/-- Requests to get the record that start from now on do not find it, provided that no identifier is
used twice. -/
structure IsFinal (s₀ s : Scene) (id : RecordId) : Prop where
  never : ∀ s', s.Runs s' → s₀.UsesOnce s' id → ∀ t ∈ s'.threads, s.asked.length ≤ t.key →
    t.request = .get id → ∀ answer, t.point ≠ .finished (.ok answer)
  /-- If no port fails, they learn that there is none, unless they are interrupted. -/
  missing : ∀ s', Reaches Reliably s s' → s₀.UsesOnce s' id → ∀ t ∈ s'.threads,
    s.asked.length ≤ t.key → t.request = .get id → ∀ outcome, t.point = .finished outcome →
      outcome = .error (.notFound id) ∨
        s'.world.check t.call.ctx ≠ .ok () ∧ ∃ cause, outcome = .error (.cancelled cause)
  /-- One that is not interrupted learns it in two strides, if the ports reply at once. -/
  ends : ∀ s', s.Runs s' → s₀.UsesOnce s' id → s'.world.faults = [] → ∀ ctx : Context,
    s'.world.check (ctx.forOperation s'.world.now s'.world.service.config.defaultTimeout) = .ok () →
    ∃ t ∈ (s'.perform [.start ctx (.get id), .look s'.asked.length .cache,
        .look s'.asked.length .cache]).threads,
      t.key = s'.asked.length ∧ t.point = .finished (.error (.notFound id))

/-- A request to get a record uses no identifier. -/
theorem UsesOnce.of_get (h : s₀.UsesOnce s id) (asked : s'.asked = s.asked ++ [.get id]) :
    s₀.UsesOnce s' id := by
  have hsame {i : Nat} {c : Record} (hi : s'.asked[i]? = some (.create c)) :
      s.asked[i]? = some (.create c) := by
    rw [asked, List.getElem?_append] at hi
    split at hi
    · exact hi
    · rw [List.getElem?_singleton] at hi
      split at hi <;> cases hi
  refine ⟨fun c hc => h.unused c ?_, fun i j c c' hi hj => h.once i j c c' (hsame hi) (hsame hj)⟩
  simpa [asked] using hc

/-- The record has been deleted and evicted, and nobody can bring it back. -/
structure IsLost (s₀ s : Scene) (id : RecordId) : Prop where
  storied : Storied s₀ s
  deleted : .deleted id ∈ s.changes
  forgotten : s.IsForgotten id
  uncached : s.world.backend.cache.entries.get? id = none

namespace IsLost

/-- What is lost stays lost. -/
theorem act (h : s₀.IsLost s id) (once : s₀.UsesOnce s id) (a : Act) : s₀.IsLost (s.act a) id where
  storied := h.storied.step (s.step_act a)
  deleted := by
    obtain ⟨made, hcommits⟩ := (s.step_act a).commits
    rw [hcommits.changes]
    exact List.mem_append_left _ h.deleted
  forgotten := h.forgotten.step (h.storied.isGone once h.deleted) h.storied.checked (s.step_act a)
  uncached := h.forgotten.uncached h.uncached a

/-- In every run what is lost stays lost, and requests to get it that start on the way miss it. -/
theorem run {allowed : Scene → Scene → Prop} (sound : Prop) (h : s₀.IsLost s id)
    (hallowed : sound → ∀ s s', allowed s s' → Reliably s s') (run : Reaches allowed s s')
    (once : s₀.UsesOnce s' id) : s₀.IsLost s' id ∧ ∀ t ∈ s'.threads, s.asked.length ≤ t.key →
      t.request = .get id → (sound → ∀ f ∈ s'.world.faults, f.2.error = none) ∧
        t.point.Misses sound s'.world t.call.ctx id := by
  induction run with
  | refl =>
    refine ⟨h, fun t ht hkey => ?_⟩
    obtain ⟨hlt, -⟩ := List.getElem?_eq_some_iff.mp (h.storied.numbered.asked t ht)
    omega
  | @act s₁ a run allowed ih =>
    have hstep := s₁.step_act a
    have once₁ := once.of_more hstep.asked_kept
    obtain ⟨hlost, hmisses⟩ := ih once₁
    refine ⟨hlost.act once₁ a, ?_⟩
    have hreliable (hsound : sound) := hallowed hsound _ _ allowed
    have hmissing := hlost.storied.missing id hlost.deleted once₁
    have hlater := hstep.later
    -- requests that stand still
    have hstill {u : Thread} (hu : u ∈ s₁.threads) (hkey : s.asked.length ≤ u.key)
        (hrequest : u.request = .get id) :
        (sound → ∀ f ∈ (s₁.act a).world.faults, f.2.error = none) ∧
          u.point.Misses sound (s₁.act a).world u.call.ctx id :=
      ⟨hreliable, World.misses_of_later hlater (hmisses u hu hkey hrequest).2⟩
    generalize s₁.act a = s₂ at hstep hreliable hlater hstill
    cases hstep with
    | start ctx request =>
      intro u hu hkey hrequest
      rcases List.mem_append.mp hu with hold | hnew
      · exact hstill hold hkey hrequest
      · obtain rfl := List.mem_singleton.mp hnew
        obtain rfl : request = .get id := hrequest
        exact ⟨hreliable, .looks (fun _ _ hg => by cases hg) fun _ hg => by cases hg⟩
    | @stride t w p side mem eq =>
      intro u hu hkey hrequest
      rcases mem_put hu with rfl | ⟨hold, -⟩
      · obtain ⟨hfaults, hbefore⟩ := hmisses t mem hkey hrequest
        exact ⟨hreliable, (World.strode eq).misses hfaults hmissing hlost.uncached hbefore⟩
      · exact hstill hold hkey hrequest
    | breakDown => exact fun u hu => hstill (List.mem_filter.mp hu).1
    | leave => exact fun u hu => hstill (List.mem_filter.mp hu).1
    | turn => exact fun u hu => hstill hu
    | elapse => exact fun u hu => hstill hu

/-- A request to get what is lost that is not interrupted learns in two strides that there is none,
if the ports reply at once. -/
theorem ends (h : s₀.IsLost s id) (once : s₀.UsesOnce s id) (calm : s.world.faults = [])
    {ctx : Context}
    (live : s.world.check (ctx.forOperation s.world.now s.world.service.config.defaultTimeout) =
      .ok ()) :
    ∃ t ∈ (s.perform [.start ctx (.get id), .look s.asked.length .cache,
        .look s.asked.length .cache]).threads,
      t.key = s.asked.length ∧ t.point = .finished (.error (.notFound id)) := by
  let t : Thread := ⟨s.asked.length, .get id, (s.world.openCall ctx (.get id)).2⟩
  let s₁ := s.act (.start ctx (.get id))
  have honce {s' : Scene} (hasked : s'.asked = s.asked ++ [.get id]) : s₀.UsesOnce s' id :=
    once.of_get hasked
  have hlost₁ : s₀.IsLost s₁ id := h.act once _
  have hmem : t ∈ s₁.threads := List.mem_append_right _ List.mem_cons_self
  -- the first stride finds no entry
  have hmiss : (s₁.world.servedNow (.lookUp id)).reply = some (.ok none) := by
    have hnone : (s.world.backend.cache.get s.world.clock id).1 = none := by
      simp [Cache.get, h.uncached]
    exact congrArg (fun found => some (Except.ok found)) hnone
  have hlook := look_of_calm hlost₁.storied.numbered hmem (.lookingUp id) rfl live calm hmiss
  -- the second one finds no record
  have hlost₂ := hlost₁.act (honce rfl) (.look t.key .cache)
  have hmissing := hlost₂.storied.missing id hlost₂.deleted (honce (asked_act s₁ (by simp)))
  have hended := look_of_calm hlost₂.storied.numbered (hlook.asks _ rfl) (.fetching id) rfl
    (hlook.check live) hlook.calm (congrArg some hmissing)
  exact ⟨_, hended.finishes _ rfl, rfl, rfl⟩

/-- What is lost is lost for good. -/
theorem isFinal (h : s₀.IsLost s id) : s₀.IsFinal s id where
  never := fun s' run once t mem key request answer hpoint => by
    have hmisses := ((h.run False (fun hf => hf.elim) run once).2 t mem key request).2
    rw [hpoint] at hmisses
    cases hmisses with
    | ends miss cause => exact miss answer rfl
  missing := fun s' run once t mem key request outcome hpoint => by
    have hmisses :=
      ((h.run True (fun _ _ _ hr => hr) run once).2 t mem key request).2
    rw [hpoint] at hmisses
    cases hmisses with
    | ends miss cause => exact cause trivial
  ends := fun s' run once calm ctx live =>
    (h.run False (fun hf => hf.elim) run once).1.ends once calm live

end IsLost

/-- If no request to get the record ever finds it, then nobody can put it into the cache. -/
theorem IsFinal.isForgotten (h : s₀.IsFinal s id) (once : s₀.UsesOnce s id) (booked : s.Booked)
    (distinct : s.Distinct) : s.IsForgotten id := by
  have hnot : ¬ s.Comes id := fun comes => by
    obtain ⟨s', run, hasked, t, mem, hkey, hrequest, r, hpoint⟩ := comes.found booked.numbered
    exact h.never s' run (once.of_get hasked) t mem (Nat.le_of_eq hkey.symm) hrequest _ hpoint
  refine ⟨fun t mem keeps fill => ?_, fun r mem own writes => ?_⟩
  · exact hnot (comes_of_canKeep booked distinct mem fill keeps)
  · exact hnot (own ▸ comes_of_canWrite distinct mem writes)

theorem asked_perform (s : Scene) (acts : List Act) : s.asked <+: (s.perform acts).asked := by
  induction acts generalizing s with
  | nil => exact List.prefix_refl _
  | cons a acts ih => exact (s.step_act a).asked_kept.trans (ih (s.act a))

/-- A deletion that has ended well without a report of the cache has had the record evicted at some
moment.  From then on no request that starts finds the record, and all of them learn that there is
none, if and only if nobody could put the record into the cache at that moment. -/
theorem deletion_is_final_iff (fresh : s₀.IsFresh) {acts : List Act}
    (mem : t ∈ (s₀.perform acts).threads) (request : t.request = .delete id)
    (done : t.point = .finished (.ok .done))
    (unreported : ∀ e, .cache .delete .delete id e ∉ s₀.reportsOf (.request t.key) acts)
    (once : s₀.UsesOnce (s₀.perform acts) id) :
    ∃ before a after, acts = before ++ a :: after ∧
      (s₀.perform before).effect? a = some (.request t.key, .writeCache (.evict id)) ∧
      (s₀.IsFinal ((s₀.perform before).act a) id ↔ ((s₀.perform before).act a).IsForgotten id) ∧
      (((s₀.perform before).act a).IsForgotten id → s₀.IsFinal (s₀.perform acts) id) := by
  obtain ⟨before, a, after, rfl, heffect⟩ := evicts_of_finished fresh mem request done unreported
  have hrun := runs_perform s₀ before
  have hstep := (s₀.perform before).step_act a
  have hlast : s₀.perform (before ++ a :: after) = ((s₀.perform before).act a).perform after := by
    simp [perform]
  rw [hlast] at once
  obtain ⟨⟨u, hu, hmade⟩, huncached⟩ := evicted_of_effect heffect
  have hstoried := hrun.storied fresh
  have honce := once.of_more (asked_perform _ after)
  have hdeleted : .deleted id ∈ ((s₀.perform before).act a).changes := by
    obtain ⟨made, hcommits⟩ := hstep.commits
    rw [hcommits.changes]
    exact List.mem_append_left _ (hstoried.hasMade u hu _ hmade)
  have hlost (forgotten : ((s₀.perform before).act a).IsForgotten id) :
      s₀.IsLost ((s₀.perform before).act a) id :=
    ⟨hstoried.step hstep, hdeleted, forgotten, huncached⟩
  refine ⟨before, a, after, rfl, heffect, ⟨fun hfinal => ?_, fun forgotten => ?_⟩,
    fun forgotten => ?_⟩
  · exact hfinal.isForgotten honce ((hrun.booked fresh).step hstep)
      ((hrun.distinct fresh).step (hrun.booked fresh) hstep)
  · exact (hlost forgotten).isFinal
  · rw [hlast]
    exact ((hlost forgotten).run False (fun hf => hf.elim) (runs_perform _ after)
      once).1.isFinal

/-- An update has ended before the record is deleted. -/
def deletionAfterUpdate : List Act :=
  let id := oldRecord.id
  [.start {} (.update id relabeling), .look 0 .cache, .look 0 .cache, .look 0 .cache,
    .look 0 .cache, .look 0 .bus, .look 0 .cache, .start {} (.delete id), .look 1 .cache,
    .look 1 .cache, .look 1 .cache, .look 1 .bus, .look 1 .cache]

/-- Nobody can put a record into the cache when no refresh is left and every request has come to its
end or tells of a deletion. -/
theorem isForgotten_of_quiet (refreshes : s.world.refreshes.isEmpty = true)
    (threads : s.threads.all (fun t => t.point.isFinished ||
      t.point.change? == some (.deleted id)) = true) : s.IsForgotten id := by
  refine ⟨fun t mem keeps => ?_, fun r mem => ?_⟩
  · have hquiet := List.all_eq_true.mp threads t mem
    generalize t.point = p at hquiet keeps
    cases keeps with
    | fills => cases hquiet
    | gets => cases hquiet
    | settles left => simp_all [Point.isFinished, Point.change?, DomainEvent.record?]
    | tells left => simp_all [Point.isFinished, Point.change?, DomainEvent.record?]
  · rw [List.isEmpty_iff.mp refreshes] at mem
    cases mem

theorem deletionAfterUpdate_is_final :
    (∃ before a after, deletionAfterUpdate = before ++ a :: after ∧
      (withOldRecord.perform before).effect? a =
        some (.request 1, .writeCache (.evict oldRecord.id))) ∧
      withOldRecord.IsFinal (withOldRecord.perform deletionAfterUpdate) oldRecord.id := by
  have hasked : (withOldRecord.perform deletionAfterUpdate).asked =
      [.update oldRecord.id relabeling, .delete oldRecord.id] := rfl
  have honce : withOldRecord.UsesOnce (withOldRecord.perform deletionAfterUpdate) oldRecord.id := by
    have hnone (c : Record) : .create c ∉ (withOldRecord.perform deletionAfterUpdate).asked := by
      simp [hasked]
    exact ⟨fun c hc => absurd hc (hnone c),
      fun i j c c' hi => absurd (List.mem_of_getElem? hi) (hnone c)⟩
  have hunreported : withOldRecord.reportsOf (.request 1) deletionAfterUpdate = [] := by decide
  -- whenever the deletion has the record evicted on the way, nothing is left of the update
  have hquiet : ∀ i < 13, (withOldRecord.perform (deletionAfterUpdate.take i)).effect?
      (deletionAfterUpdate[i]?.getD (.pass 0)) =
        some (.request 1, .writeCache (.evict oldRecord.id)) →
      let s := (withOldRecord.perform (deletionAfterUpdate.take i)).act
        (deletionAfterUpdate[i]?.getD (.pass 0))
      s.world.refreshes.isEmpty = true ∧ s.threads.all (fun t => t.point.isFinished ||
        t.point.change? == some (.deleted oldRecord.id)) = true := by decide
  obtain ⟨t, mem, hkey, request, done⟩ :
      ∃ t ∈ (withOldRecord.perform deletionAfterUpdate).threads, t.key = 1 ∧
        t.request = .delete oldRecord.id ∧ t.point = .finished (.ok .done) :=
    ⟨_, List.mem_cons_of_mem _ List.mem_cons_self, rfl, rfl, rfl⟩
  rw [← hkey] at hunreported
  obtain ⟨before, a, after, hacts, heffect, -, hfinal⟩ :=
    deletion_is_final_iff isFresh_withOldRecord mem request done (by simp [hunreported]) honce
  rw [hkey] at heffect
  have hlength : before.length < 13 := by
    have hall := congrArg List.length hacts
    simp only [List.length_append, List.length_cons] at hall
    have hthirteen : deletionAfterUpdate.length = 13 := rfl
    omega
  have hbefore : deletionAfterUpdate.take before.length = before := by simp [hacts]
  have ha : deletionAfterUpdate[before.length]?.getD (.pass 0) = a := by simp [hacts]
  have hforgotten := hquiet before.length hlength
  rw [hbefore, ha] at hforgotten
  obtain ⟨hrefreshes, hthreads⟩ := hforgotten heffect
  exact ⟨⟨before, a, after, hacts, heffect⟩, hfinal (isForgotten_of_quiet hrefreshes hthreads)⟩

/-- An update has changed the record, but the cache is told of the deletion before it. -/
def deletionDuringAnnouncement : List Act :=
  let id := oldRecord.id
  [.start {} (.update id relabeling), .look 0 .cache, .look 0 .cache, .look 0 .cache,
    .start {} (.delete id), .look 1 .cache, .look 1 .cache, .look 1 .cache, .look 1 .bus,
    .look 1 .cache]

/-- When the deletion has ended well, the update still puts the new record into the cache, where a
request that starts after that finds it. -/
theorem deleted_record_is_found :
    let id := oldRecord.id
    let s := withOldRecord.perform deletionDuringAnnouncement
    (∃ t ∈ s.threads, t.key = 1 ∧ t.request = .delete id ∧ t.point = .finished (.ok .done)) ∧
    withOldRecord.reportsOf (.request 1) deletionDuringAnnouncement = [] ∧
    s.asked = [.update id relabeling, .delete id] ∧
    s.world.backend.store.find id = .error (.notFound id) ∧
    ∃ t ∈ (s.perform [.look 0 .cache, .start {} (.get id), .look 2 .cache]).threads,
      t.key = 2 ∧ t.request = .get id ∧ t.point = .finished (.ok (.record newRecord)) :=
  ⟨⟨_, List.mem_cons_of_mem _ List.mem_cons_self, rfl, rfl, rfl⟩, by decide, rfl,
    Store.find_eq_error.mpr ⟨by decide, rfl⟩,
    _, List.mem_cons_of_mem _ (List.mem_cons_of_mem _ List.mem_cons_self), rfl, rfl, rfl⟩

end Scene

end CacheAside.Simulation
