import CacheAside.Proofs.Interleaving.Books
import CacheAside.Proofs.Traffic

/-!
# The tracker in interleavings

What goes on in a scene goes on in the traffic around its tracker, there in smaller moves
(`Traffic.Shows`): the stride that starts a refresh is three moves, the turn of a refresh is as many
as it has deeds in it, and a look at the refreshes that a request waits for is one or two moves for
each of them.  Whatever is known of all traffic (`Traffic.InOrder`) so holds in all scenes.
-/

namespace CacheAside.Simulation

/-- The request has not had the reply to its question. -/
def Point.isAsking : Point → Bool
  | .asking _ _ => true
  | _ => false

/-- The change for which a request at some point settles the refreshes of the record, or has settled
them. -/
def Point.settled? : Point → Option DomainEvent
  | .settling change _ => some change
  | .announcing change _ _ _ => if change.isCreation then none else some change
  | _ => none

/-- What the tracker knows of a refresh that waits for its turn. -/
def Refresh.job (r : Refresh) : Job where
  id := r.record.id
  ticket := r.ticket
  calledOff := r.aborted

namespace World

/-- What a stride means for the tracker. -/
inductive Passage (w : World) : Point → World → Point → Prop where
  | keeps {p q : Point} {w' : World} (alike : Alike w w')
      (settled : ∀ change ∈ q.settled?, change ∈ p.settled? ∧ q.tickets = p.tickets)
      (asking : q.isAsking = true → p.isAsking = true) : Passage w p w' q
  | spawns {p : Point} {w' : World} {outcome : Outcome} {r : Refresh} (live : r.aborted = false)
      (number : r.ticket = w.tracker.next)
      (tracker : w'.tracker = (w.tracker.spawn r.record.id).2)
      (refreshes : w'.refreshes = w.refreshes ++ [r]) : Passage w p w' (.finished outcome)
  | takes {p : Point} {w' : World} {change : DomainEvent} (asking : p.isAsking = true)
      (tracker : w'.tracker = (w.tracker.take change.recordId).2)
      (refreshes : w'.refreshes = w.refreshes) :
      Passage w p w' (.settling change (w.tracker.pending change.recordId))
  | settles {change : DomainEvent} {tickets : List Ticket} {q : Point}
      (settled : ∀ other ∈ q.settled?, other = change) (left : q.tickets = (w.settle tickets).2)
      (asking : q.isAsking = false) :
      Passage w (.settling change tickets) (w.settle tickets).1 q

theorem Resumed.passage {w w₁ w' : World} {ctx : Context} {ask : Ask} {reply : ask.call.Reply}
    {g : Option (Guarded ask.call)} {q : Point} (h : Resumed w₁ ctx ask reply w' q)
    (alike : Alike w w₁) : Passage w (.asking ask g) w' q := by
  cases h with
  | asks calm quiet next =>
    exact .keeps (alike.trans calm.toAlike) (by simp [Point.settled?]) fun _ => rfl
  | finishes calm quiet next =>
    exact .keeps (alike.trans calm.toAlike) (by simp [Point.settled?]) fun _ => rfl
  | spawns spans background coeval backend tracker refreshes =>
    rw [alike.tracker] at tracker
    rw [alike.tracker, alike.refreshes] at refreshes
    exact .spawns rfl rfl tracker refreshes
  | announces =>
    exact .keeps alike (by simp [Point.settled?, DomainEvent.isCreation]) fun _ => rfl
  | settles made later =>
    rw [alike.tracker]
    exact .takes rfl rfl alike.refreshes

/-- While a change is announced nothing happens to the tracker, and afterwards it is forgotten. -/
theorem Strode.passage_of_announcing {w w' : World} {ctx : Context} {spans : List Span}
    {change : DomainEvent} {f : Bool} {cache : Branch (.writeCache change.cacheWrite)}
    {events : Branch (.publish change)} {q : Point}
    (h : Strode w ctx spans (.announcing change f cache events) w' (some q)) :
    Passage w (.announcing change f cache events) w' q := by
  cases h with
  | cacheWaits visit =>
    exact .keeps (visited visit).alike (fun _ h => ⟨h, rfl⟩) (by simp [Point.isAsking])
  | @cacheTold _ _ _ _ w₁ reply visit =>
    have calm := w₁.noteAll_quiet ctx spans (change.quiet_cacheNotes reply)
    exact .keeps ((visited visit).alike.trans calm.toAlike) (fun _ h => ⟨h, rfl⟩)
      (by simp [Point.isAsking])
  | busWaits visit =>
    exact .keeps (visited visit).alike (fun _ h => ⟨h, rfl⟩) (by simp [Point.isAsking])
  | busTold visit =>
    exact .keeps (visited visit).alike (fun _ h => ⟨h, rfl⟩) (by simp [Point.isAsking])
  | skips => exact .keeps (Alike.refl w) (fun _ h => ⟨h, rfl⟩) (by simp [Point.isAsking])
  | @concludes _ _ written published =>
    have calm := w.noteAll_quiet ctx spans (change.quiet_conclude written published)
    exact .keeps calm.toAlike (by simp [Point.settled?]) (by simp [Point.isAsking])

theorem passage {w w' : World} {ctx : Context} {spans : List Span} {side : Side} {p q : Point}
    (stride : w.stride ctx spans side p = (w', some q)) : Passage w p w' q := by
  cases p with
  | asking ask g =>
    cases strode stride with
    | asksOn visit => exact .keeps (visited visit).alike (by simp [Point.settled?]) fun _ => rfl
    | resumes visit resumed => exact resumed.passage (visited visit).alike
  | settling change tickets =>
    -- which refreshes are left is told by `settle` itself, not by what is known of it
    simp only [World.stride, move, reach] at stride
    rcases hsettle : w.settle tickets with ⟨w₁, _ | ⟨ticket, left⟩⟩ <;>
      · obtain ⟨rfl, rfl⟩ : w₁ = w' ∧ _ = q := by simpa [hsettle] using stride
        have hworld : (w.settle tickets).1 = w₁ := congrArg Prod.fst hsettle
        refine hworld ▸ .settles (fun other hother => ?_) (congrArg Prod.snd hsettle).symm rfl
        simp only [Point.settled?] at hother
        grind
  | announcing change f cache events => exact (strode stride).passage_of_announcing
  | finished outcome =>
    cases strode stride with
    | rests => exact .keeps (Alike.refl w) (by simp [Point.settled?]) id

end World

end CacheAside.Simulation

namespace CacheAside

open Simulation

/-! ## Several deeds of one refresh -/

namespace Job

/-- Whether these things can happen to a refresh one after another. -/
def canAll (j : Job) : List Deed → Bool
  | [] => true
  | deed :: deeds => j.can deed && (j.goTo deed.phase).canAll deeds

/-- The refreshes that have not ended. -/
def live (jobs : List Job) : List Job :=
  jobs.filter (·.phase ≠ .ended)

variable {jobs : List Job} {ticket : Ticket}

@[simp] theorem amend_goTo_goTo (phase phase' : Phase) :
    amend ticket (goTo phase') (amend ticket (goTo phase) jobs) =
      amend ticket (goTo phase') jobs := by
  rw [amend, amend, List.map_map]
  refine List.map_congr_left fun j _ => ?_
  by_cases h : j.ticket = ticket <;> simp [goTo, h]

theorem amend_of_forall {f : Job → Job} (h : ∀ j ∈ jobs, j.ticket = ticket → f j = j) :
    amend ticket f jobs = jobs := by
  refine (List.map_congr_left fun j hj => ?_).trans (List.map_id' jobs)
  split
  · exact h j hj (by assumption)
  · rfl

theorem live_amend_ended : live (amend ticket (goTo .ended) jobs) =
    (live jobs).filter (·.ticket ≠ ticket) := by
  induction jobs with
  | nil => rfl
  | cons j jobs ih =>
    by_cases h : j.ticket = ticket <;> by_cases hended : j.phase = .ended <;>
      simp_all [live, amend, goTo]

theorem live_amend_callOff :
    live (amend ticket callOff jobs) = amend ticket callOff (live jobs) := by
  induction jobs with
  | nil => rfl
  | cons j jobs ih =>
    by_cases h : j.ticket = ticket <;> by_cases hended : j.phase = .ended <;>
      simp_all [live, amend, callOff]

end Job

namespace Traffic

variable {t t' : Traffic} {w w' : World} {s s' : Scene}

theorem leads_deeds (idle : t.entering = none) {j : Job} (mem : j ∈ t.jobs) (deeds : List Deed)
    (can : j.canAll deeds = true) :
    t.Leads (deeds.foldl (fun t deed => t.after (.job j.id j.ticket deed)) t) := by
  induction deeds generalizing t j with
  | nil => exact .refl t
  | cons deed deeds ih =>
    simp only [Job.canAll, Bool.and_eq_true] at can
    have hallowed : t.Allows (.job j.id j.ticket deed) := ⟨fun _ => idle, j, mem, rfl, can.1⟩
    have hidle : (t.after (.job j.id j.ticket deed)).entering = none := idle
    have hnext : j.goTo deed.phase ∈ (t.after (.job j.id j.ticket deed)).jobs :=
      Job.mem_amend_of_mem mem
    exact (leads_after hallowed).trans (ih (j := j.goTo deed.phase) hidle hnext can.2)

theorem log_deeds (t : Traffic) (id : RecordId) (ticket : Ticket) (deeds : List Deed) :
    (deeds.foldl (fun t deed => t.after (.job id ticket deed)) t).log =
      t.log ++ deeds.map (ticket, ·) := by
  induction deeds generalizing t with
  | nil => exact (List.append_nil _).symm
  | cons deed deeds ih =>
    rw [List.foldl_cons, ih, List.map_cons]
    exact List.append_assoc ..

/-! ## Refreshes of a world -/

/-- The traffic has the tracker of the world, and the refreshes of the world are those that have not
ended.  All of them wait for their turns. -/
structure Mirrors (t : Traffic) (w : World) : Prop where
  tracker : t.tracker = w.tracker
  entering : t.entering = none
  live : Job.live t.jobs = w.refreshes.map Refresh.job

namespace Mirrors

theorem congr (h : t.Mirrors w) (tracker : w'.tracker = w.tracker)
    (refreshes : w'.refreshes = w.refreshes) : t.Mirrors w' :=
  ⟨h.tracker.trans tracker.symm, h.entering, refreshes ▸ h.live⟩

theorem mem (h : t.Mirrors w) {r : Refresh} (mem : r ∈ w.refreshes) : r.job ∈ t.jobs := by
  have hlive : r.job ∈ Job.live t.jobs := h.live ▸ List.mem_map_of_mem mem
  exact (List.mem_filter.mp hlive).1

/-- A refresh that the world has forgotten is over. -/
theorem ended_of_forgotten (h : t.Mirrors w) {j : Job} (mem : j ∈ t.jobs)
    (forgotten : w.isAlive j.ticket = false) : j.phase = .ended := by
  by_contra hrunning
  have hlive : j ∈ w.refreshes.map Refresh.job :=
    h.live ▸ List.mem_filter.mpr ⟨mem, decide_eq_true hrunning⟩
  obtain ⟨r, hr, rfl⟩ := List.mem_map.mp hlive
  have halive : w.isAlive r.ticket = true := List.any_eq_true.mpr ⟨r, hr, by simp⟩
  exact absurd halive (by simpa [Refresh.job] using forgotten)

/-- A refresh ends. -/
theorem ended (h : t.Mirrors w) {w₁ : World} (alike : World.Alike w w₁) {ticket : Ticket}
    (jobs : t'.jobs = Job.amend ticket (Job.goTo .ended) t.jobs) (entering : t'.entering = none)
    (tracker : t'.tracker = w'.tracker) (ended : World.Ended w₁ w' ticket) : t'.Mirrors w' := by
  refine ⟨tracker, entering, ?_⟩
  rw [jobs, Job.live_amend_ended, h.live, ended.refreshes, alike.refreshes, List.filter_map]
  rfl

/-- The turn of a refresh is a row of deeds. -/
theorem turn (h : t.Mirrors w) (numbered : t.Numbered) {r : Refresh} (mem : r ∈ w.refreshes)
    (turned : World.Turned w r w') :
    ∃ t' deed deeds, t.Leads t' ∧ t'.Mirrors w' ∧ t'.settlings = t.settlings ∧
      t'.log = t.log ++ (r.ticket, deed) :: deeds := by
  have hmem := h.mem mem
  have hjob (live : r.aborted = false) : r.job = { id := r.record.id, ticket := r.ticket } := by
    rw [Refresh.job, live]
  cases turned with
  | calledOff aborted ended tracker =>
    refine ⟨_, _, _, leads_deeds h.entering hmem [.drop]
      (by simp [Job.canAll, Job.can, Refresh.job, aborted]), ?_, rfl, t.log_deeds _ _ [.drop]⟩
    exact h.ended (.refl w) rfl h.entering (h.tracker.trans tracker.symm) ended
  | @waits w₁ g live visit =>
    have alike := (World.visited visit).alike
    refine ⟨_, _, _, leads_deeds h.entering hmem [.poll, .act, .rest] (hjob live ▸ rfl),
      ⟨h.tracker.trans alike.tracker.symm, h.entering, ?_⟩, rfl,
      t.log_deeds _ _ [.poll, .act, .rest]⟩
    -- in the end it waits for its next turn, as it did before
    have hsame : Job.amend r.ticket (Job.goTo .resting) t.jobs = t.jobs :=
      Job.amend_of_forall fun j hj hticket => by
        rw [numbered.eq_of_ticket hj hmem hticket]
        rfl
    have hkept : (w₁.keepCall r g).refreshes.map Refresh.job = w₁.refreshes.map Refresh.job := by
      rw [World.keepCall, List.map_map]
      refine List.map_congr_left fun s hs => ?_
      rw [Function.comp_apply]
      split
      · rename_i hticket
        exact numbered.eq_of_ticket hmem (h.mem (alike.refreshes ▸ hs)) hticket.symm
      · rfl
    rw [hkept, alike.refreshes, ← h.live, ← hsame]
    simp [after, Deed.phase, Refresh.job]
  | ends live visit ended tracker =>
    have alike := (World.visited visit).alike
    refine ⟨_, _, _, leads_deeds h.entering hmem [.poll, .act, .complete, .finish]
      (hjob live ▸ rfl), h.ended alike ?_ h.entering ?_ ended, rfl,
      t.log_deeds _ _ [.poll, .act, .complete, .finish]⟩
    · simp [after, Deed.phase, Refresh.job]
    · rw [tracker, alike.tracker, ← h.tracker]
      rfl
  | breaks live visit ended tracker =>
    have alike := (World.visited visit).alike
    refine ⟨_, _, _, leads_deeds h.entering hmem [.poll, .act, .breakDown]
      (hjob live ▸ rfl), h.ended alike ?_ h.entering ?_ ended, rfl,
      t.log_deeds _ _ [.poll, .act, .breakDown]⟩
    · simp [after, Deed.phase, Refresh.job]
    · exact h.tracker.trans (alike.tracker.symm.trans tracker.symm)

/-- A refresh starts in three moves. -/
theorem starts (h : t.Mirrors w) {r : Refresh} (live : r.aborted = false)
    (number : r.ticket = w.tracker.next)
    (tracker : w'.tracker = (w.tracker.spawn r.record.id).2)
    (refreshes : w'.refreshes = w.refreshes ++ [r]) :
    ∃ t', t.Leads t' ∧ t'.Mirrors w' ∧ t'.settlings = t.settlings := by
  let id := r.record.id
  let n := t.tracker.next
  have hdraw : t.Allows (.draw id) := trivial
  have hlaunch : (t.after (.draw id)).Allows (.launch id n) :=
    ⟨h.entering, List.mem_append_right _ (List.mem_singleton.mpr rfl)⟩
  have henter : ((t.after (.draw id)).after (.launch id n)).Allows (.enter id n) := rfl
  refine ⟨_, (leads_after hdraw).trans ((leads_after hlaunch).trans (leads_after henter)),
    ⟨?_, rfl, ?_⟩, rfl⟩
  · rw [tracker, ← h.tracker, RefreshTracker.spawn_eq]
    rfl
  · have hjob : r.job = { id, ticket := n } := by
      rw [Refresh.job, live, number, ← h.tracker]
    rw [refreshes, List.map_append, ← h.live, List.map_singleton, hjob]
    exact List.filter_append ..

end Mirrors

/-! ## Calls that settle a record -/

/-- The call of this number settles the record, and these refreshes are left to it. -/
def Awaits (t : Traffic) (key : Nat) (id : RecordId) (left : List Ticket) : Prop :=
  ∃ c ∈ t.settlings, c.key = key ∧ c.id = id ∧ c.left = left

/-- All calls but that of this number are as they were. -/
def Spares (t : Traffic) (key : Nat) (t' : Traffic) : Prop :=
  ∀ c : Settling, c.key ≠ key → (c ∈ t'.settlings ↔ c ∈ t.settlings)

theorem Spares.of_eq {key : Nat} (same : t'.settlings = t.settlings) : t.Spares key t' :=
  fun _ _ => same ▸ Iff.rfl

theorem Spares.trans {key : Nat} {t₁ t₂ t₃ : Traffic} (h : t₁.Spares key t₂)
    (h' : t₂.Spares key t₃) : t₁.Spares key t₃ :=
  fun c hc => (h' c hc).trans (h c hc)

variable {key : Nat} {id : RecordId} {ticket : Ticket} {tickets : List Ticket}

theorem spares_pass (t : Traffic) (key : Nat) (ticket : Ticket) :
    t.Spares key (t.after (.pass key ticket)) := fun c hc => by
  constructor
  · intro hmem
    obtain ⟨d, hd, rfl⟩ := List.mem_map.mp hmem
    split at hc
    · rename_i hkey
      exact absurd hkey hc
    · rename_i hkey
      rwa [if_neg hkey]
  · exact fun hmem => List.mem_map.mpr ⟨c, hmem, if_neg hc⟩

theorem spares_settle (t : Traffic) (key : Nat) (id : RecordId) :
    t.Spares key (t.after (.settle key id)) := fun c hc => by
  constructor
  · intro hmem
    rcases List.mem_append.mp hmem with hold | hnew
    · exact hold
    · obtain rfl := List.mem_singleton.mp hnew
      exact absurd rfl hc
  · exact List.mem_append_left _

namespace Awaits

theorem waitsFor (h : t.Awaits key id (ticket :: tickets)) : t.WaitsFor key ticket := by
  obtain ⟨c, hc, hkey, -, hleft⟩ := h
  exact ⟨c, hc, hkey, by rw [hleft]; rfl⟩

/-- A refresh that someone waits for has been started. -/
theorem started (h : t.Awaits key id (ticket :: tickets)) (order : t.InOrder) :
    ∃ j ∈ t.jobs, j.ticket = ticket := by
  obtain ⟨c, hc, -, -, hleft⟩ := h
  have htook := order.watched.fewer c hc ticket (hleft ▸ List.mem_cons_self)
  obtain ⟨j, hj, hname⟩ := List.mem_map.mp (order.booked.taken c.id ticket ⟨c, hc, rfl, htook⟩)
  exact ⟨j, hj, congrArg Prod.snd hname⟩

theorem pass (h : t.Awaits key id (ticket :: tickets)) :
    (t.after (.pass key ticket)).Awaits key id tickets := by
  obtain ⟨c, hc, hkey, hid, hleft⟩ := h
  refine ⟨c.pass ticket, List.mem_map.mpr ⟨c, hc, if_pos hkey⟩, hkey, hid, ?_⟩
  rw [Settling.pass, hleft, List.erase_cons_head]

end Awaits

namespace Mirrors

theorem callOff (h : t.Mirrors w) (key : Nat) (ticket : Ticket) :
    (t.after (.callOff key ticket)).Mirrors (w.abort ticket) := by
  obtain ⟨-, -, tracker, refreshes⟩ := w.abort_spec ticket
  refine ⟨h.tracker.trans tracker.symm, h.entering, ?_⟩
  show Job.live (Job.amend ticket Job.callOff t.jobs) = _
  rw [Job.live_amend_callOff, h.live, refreshes, Job.amend, List.map_map, List.map_map]
  refine List.map_congr_left fun r _ => ?_
  by_cases hticket : r.ticket = ticket <;> simp [Refresh.job, Job.callOff, hticket]

/-- A call finds that the first refresh which is left to it has ended. -/
theorem passes (h : t.Mirrors w) (order : t.InOrder)
    (awaits : t.Awaits key id (ticket :: tickets)) (forgotten : w.isAlive ticket = false) :
    ∃ t', t.Leads t' ∧ t'.Mirrors w ∧ t'.Awaits key id tickets ∧ t.Spares key t' := by
  obtain ⟨j, hj, rfl⟩ := awaits.started order
  have hended : j.phase = .ended := h.ended_of_forgotten hj forgotten
  have hcallOff : t.Allows (.callOff key j.ticket) := awaits.waitsFor
  have hpass : (t.after (.callOff key j.ticket)).Allows (.pass key j.ticket) :=
    ⟨awaits.waitsFor, j.callOff, Job.mem_amend_of_mem hj, rfl, hended, rfl⟩
  refine ⟨_, (leads_after hcallOff).trans (leads_after hpass), ⟨h.tracker, h.entering, ?_⟩,
    Awaits.pass (t := t.after (.callOff key j.ticket)) awaits,
    (t.after (.callOff key j.ticket)).spares_pass key j.ticket⟩
  -- it comes too late to call anything off
  show Job.live (Job.amend j.ticket Job.callOff t.jobs) = _
  rw [Job.live_amend_callOff, ← h.live]
  refine Job.amend_of_forall fun i hi hticket => ?_
  obtain ⟨hi, hrunning⟩ := List.mem_filter.mp hi
  rw [order.numbered.eq_of_ticket hi hj hticket] at hrunning
  exact absurd hended (of_decide_eq_true hrunning)

/-- A look at the refreshes that are left to a call. -/
theorem settle (h : t.Mirrors w) (order : t.InOrder) (awaits : t.Awaits key id tickets) :
    ∃ t', t.Leads t' ∧ t'.Mirrors (w.settle tickets).1 ∧
      t'.Awaits key id (w.settle tickets).2 ∧ t.Spares key t' := by
  induction tickets generalizing t with
  | nil => exact ⟨t, .refl t, h, awaits, .of_eq rfl⟩
  | cons ticket tickets ih =>
    cases halive : w.isAlive ticket with
    | true =>
      rw [World.settle, if_pos halive]
      have hcallOff : t.Allows (.callOff key ticket) := awaits.waitsFor
      exact ⟨_, leads_after hcallOff, h.callOff key ticket, awaits, .of_eq rfl⟩
    | false =>
      rw [World.settle, if_neg (Bool.eq_false_iff.mp halive)]
      obtain ⟨t₁, hleads, hmirrors, hawaits, hspares⟩ := h.passes order awaits halive
      obtain ⟨t₂, hnext, hmirrors, hawaits, hspares'⟩ := ih hmirrors (order.leads hleads) hawaits
      exact ⟨t₂, hleads.trans hnext, hmirrors, hawaits, hspares.trans hspares'⟩

/-- A call takes all refreshes of a record off the list. -/
theorem takes (h : t.Mirrors w) (new : ∀ c ∈ t.settlings, c.key ≠ key)
    (tracker : w'.tracker = (w.tracker.take id).2) (refreshes : w'.refreshes = w.refreshes) :
    ∃ t', t.Leads t' ∧ t'.Mirrors w' ∧ t'.Awaits key id (w.tracker.pending id) ∧
      t.Spares key t' := by
  have hsettle : t.Allows (.settle key id) := ⟨h.entering, new⟩
  refine ⟨_, leads_after hsettle, ⟨?_, h.entering, refreshes ▸ h.live⟩,
    ⟨_, List.mem_append_right _ (List.mem_singleton.mpr rfl), rfl, rfl, h.tracker ▸ rfl⟩,
    t.spares_settle key id⟩
  rw [tracker, ← h.tracker]
  rfl

end Mirrors

/-! ## Scenes -/

/-- What goes on in the scene goes on in the traffic.  Each request settles the refreshes of a
record at most once, under its own number. -/
structure Shows (t : Traffic) (s : Scene) : Prop where
  mirrors : t.Mirrors s.world
  numbered : s.Numbered
  early : ∀ c ∈ t.settlings, c.key < s.asked.length
  unsettled : ∀ u ∈ s.threads, u.point.isAsking = true → ∀ c ∈ t.settlings, c.key ≠ u.key
  /-- The refreshes that a request waits for are left to its call, and none are left when it has
  waited. -/
  settled : ∀ u ∈ s.threads, ∀ change ∈ u.point.settled?,
    t.Awaits u.key change.recordId u.point.tickets

namespace Shows

/-- A request goes to another point, and its call along with it. -/
theorem goTo (h : t.Shows s) {u : Thread} (mem : u ∈ s.threads) {q : Point}
    (step : Scene.Step s s') (asked : s'.asked = s.asked)
    (threads : s'.threads = Scene.put s.threads (u.goTo q)) (mirrors : t'.Mirrors s'.world)
    (spares : t.Spares u.key t')
    (unsettled : q.isAsking = true → ∀ c ∈ t'.settlings, c.key ≠ u.key)
    (settled : ∀ change ∈ q.settled?, t'.Awaits u.key change.recordId q.tickets) : t'.Shows s' where
  mirrors := mirrors
  numbered := h.numbered.step step
  early := fun c hc => by
    rw [asked]
    by_cases hkey : c.key = u.key
    · obtain ⟨hlt, -⟩ := List.getElem?_eq_some_iff.mp (h.numbered.asked u mem)
      exact hkey ▸ hlt
    · exact h.early c ((spares c hkey).mp hc)
  unsettled := fun v hv hasking c hc => by
    rw [threads] at hv
    rcases Scene.mem_put hv with rfl | ⟨hv, hother⟩
    · exact unsettled hasking c hc
    · intro hkey
      exact h.unsettled v hv hasking c ((spares c (hkey ▸ hother)).mp hc) hkey
  settled := fun v hv change hchange => by
    rw [threads] at hv
    rcases Scene.mem_put hv with rfl | ⟨hv, hother⟩
    · exact settled change hchange
    · obtain ⟨c, hc, hkey, hcall⟩ := h.settled v hv change hchange
      exact ⟨c, (spares c (hkey ▸ hother)).mpr hc, hkey, hcall⟩

/-- Some requests may go away, and the others stay where they are. -/
theorem keep (h : t.Shows s) (step : Scene.Step s s') (asked : s'.asked = s.asked)
    (fewer : ∀ u ∈ s'.threads, u ∈ s.threads) (mirrors : t'.Mirrors s'.world)
    (same : t'.settlings = t.settlings) : t'.Shows s' where
  mirrors := mirrors
  numbered := h.numbered.step step
  early := by
    rw [same, asked]
    exact h.early
  unsettled := fun u hu hasking => same ▸ h.unsettled u (fewer u hu) hasking
  settled := fun u hu change hchange => by
    rw [Awaits, same]
    exact h.settled u (fewer u hu) change hchange

theorem start (h : t.Shows s) (ctx : Context) (request : Request) :
    t.Shows { s with
      world := (s.world.openCall ctx request).1
      threads := s.threads ++ [⟨s.asked.length, request, (s.world.openCall ctx request).2⟩]
      asked := s.asked ++ [request] } := by
  obtain ⟨hworld, hpoint⟩ := s.world.openCall_spec ctx request
  refine ⟨?_, h.numbered.start ctx request, fun c hc => ?_, fun u hu hasking c hc => ?_,
    fun u hu change hchange => ?_⟩
  · rw [hworld]
    exact h.mirrors
  · rw [List.length_append]
    exact Nat.lt_add_right _ (h.early c hc)
  · rcases List.mem_append.mp hu with hold | hnew
    · exact h.unsettled u hold hasking c hc
    · obtain rfl := List.mem_singleton.mp hnew
      exact Nat.ne_of_lt (h.early c hc)
  · rcases List.mem_append.mp hu with hold | hnew
    · exact h.settled u hold change hchange
    · obtain rfl := List.mem_singleton.mp hnew
      rcases hpoint with ⟨ask, -, hpoint⟩ | ⟨outcome, -, hpoint⟩
      · rw [Thread.point, hpoint] at hchange
        cases hchange
      · rw [Thread.point, hpoint] at hchange
        cases hchange

theorem stride (h : t.Shows s) (order : t.InOrder) {u : Thread} (mem : u ∈ s.threads) {q : Point}
    (passage : World.Passage s.world u.point s'.world q)
    (step : Scene.Step s s') (asked : s'.asked = s.asked)
    (threads : s'.threads = Scene.put s.threads (u.goTo q)) :
    ∃ t', t.Leads t' ∧ t'.Shows s' := by
  generalize hpoint : u.point = p at passage
  generalize hworld : s'.world = w at passage
  cases passage with
  | keeps alike settled asking =>
    refine ⟨t, .refl t, h.goTo mem step asked threads
      (hworld ▸ h.mirrors.congr alike.tracker alike.refreshes) (.of_eq rfl)
      (fun hasking => h.unsettled u mem (hpoint ▸ asking hasking)) fun change hchange => ?_⟩
    obtain ⟨hbefore, htickets⟩ := settled change hchange
    rw [htickets, ← hpoint]
    exact h.settled u mem change (hpoint ▸ hbefore)
  | spawns live number tracker refreshes =>
    obtain ⟨t', hleads, hmirrors, hsame⟩ := h.mirrors.starts live number tracker refreshes
    exact ⟨t', hleads, h.goTo mem step asked threads (hworld ▸ hmirrors) (.of_eq hsame)
      (by simp [Point.isAsking]) (by simp [Point.settled?])⟩
  | @takes _ _ change asking tracker refreshes =>
    have hnew := h.unsettled u mem (hpoint ▸ asking)
    obtain ⟨t', hleads, hmirrors, hawaits, hspares⟩ := h.mirrors.takes hnew tracker refreshes
    refine ⟨t', hleads, h.goTo mem step asked threads (hworld ▸ hmirrors) hspares
      (by simp [Point.isAsking]) fun other hother => ?_⟩
    obtain rfl : change = other := Option.some.inj hother
    exact hawaits
  | @settles change tickets _ settled left asking =>
    have hawaits : t.Awaits u.key change.recordId tickets := by
      have hcall := h.settled u mem change (by rw [hpoint]; rfl)
      rwa [hpoint] at hcall
    obtain ⟨t', hleads, hmirrors, hawaits, hspares⟩ := h.mirrors.settle order hawaits
    refine ⟨t', hleads, h.goTo mem step asked threads (hworld ▸ hmirrors) hspares
      (by simp [asking]) fun other hother => ?_⟩
    rw [settled other hother, left]
    exact hawaits

theorem turn (h : t.Shows s) (order : t.InOrder) {r : Refresh} (mem : r ∈ s.world.refreshes) :
    ∃ t' deed deeds, t.Leads t' ∧ t'.Shows { s with world := (s.world.turn r).1 } ∧
      t'.log = t.log ++ (r.ticket, deed) :: deeds := by
  obtain ⟨t', deed, deeds, hleads, hmirrors, hsame, hlog⟩ :=
    h.mirrors.turn order.numbered mem (s.world.turn_spec r)
  exact ⟨t', deed, deeds, hleads, h.keep (.turn mem) rfl (fun _ hu => hu) hmirrors hsame, hlog⟩

theorem step (h : t.Shows s) (order : t.InOrder) (step : Scene.Step s s') :
    ∃ t', t.Leads t' ∧ t'.Shows s' := by
  have hstep := step
  cases step with
  | start ctx request => exact ⟨t, .refl t, h.start ctx request⟩
  | stride side mem eq => exact h.stride order mem (World.passage eq) hstep rfl rfl
  | breakDown side mem eq =>
    have calm := (World.strode eq).untouched
    exact ⟨t, .refl t, h.keep hstep rfl (fun _ hu => (List.mem_filter.mp hu).1)
      (h.mirrors.congr calm.tracker calm.refreshes) rfl⟩
  | leave mem =>
    exact ⟨t, .refl t, h.keep hstep rfl (fun _ hu => (List.mem_filter.mp hu).1)
      (h.mirrors.congr rfl rfl) rfl⟩
  | turn mem =>
    obtain ⟨t', -, -, hleads, hshows, -⟩ := h.turn order mem
    exact ⟨t', hleads, hshows⟩
  | elapse elapsed =>
    exact ⟨t, .refl t, h.keep hstep rfl (fun _ hu => hu)
      (h.mirrors.congr elapsed.tracker elapsed.refreshes) rfl⟩

end Shows

/-- The traffic goes along with an act of the scene.  When a refresh has a turn there, something
happens to it here. -/
structure Follows (t : Traffic) (s : Scene) (a : Act) (t' : Traffic) : Prop where
  leads : t.Leads t'
  shows : t'.Shows (s.act a)
  turns : ∃ deeds, t'.log = t.log ++ deeds ∧
    ∀ r ∈ s.world.refreshes, a = .turn r.ticket → ∃ deed, (r.ticket, deed) ∈ deeds

theorem Shows.act (h : t.Shows s) (order : t.InOrder) (a : Act) : ∃ t', t.Follows s a t' := by
  have hidle (still : ∀ r ∈ s.world.refreshes, a ≠ .turn r.ticket) : ∃ t', t.Follows s a t' := by
    obtain ⟨t', hleads, hshows⟩ := h.step order (s.step_act a)
    obtain ⟨deeds, hlog⟩ := hleads.log
    exact ⟨t', hleads, hshows, deeds, hlog, fun r hr hturn => absurd hturn (still r hr)⟩
  cases a with
  | turn ticket =>
    cases hfind : s.world.refreshes.find? (·.ticket = ticket) with
    | none =>
      refine hidle fun r hr hturn => List.find?_eq_none.mp hfind r hr ?_
      exact decide_eq_true (Act.turn.inj hturn).symm
    | some r =>
      have hown : r.ticket = ticket := by simpa using List.find?_some hfind
      have hmem := List.mem_of_find?_eq_some hfind
      obtain ⟨t', deed, deeds, hleads, hshows, hlog⟩ := h.turn order hmem
      have hact : s.act (.turn ticket) = { s with world := (s.world.turn r).1 } := by
        simp only [Scene.act, hfind]
      refine ⟨t', hleads, hact ▸ hshows, _, hlog, fun r' _ hturn => ⟨deed, ?_⟩⟩
      rw [← Act.turn.inj hturn, ← hown]
      exact List.mem_cons_self
  | _ => exact hidle fun _ _ h => by cases h

theorem shows_opening (fresh : s.IsFresh) : (opening s.world.tracker.next).Shows s where
  mirrors := by
    refine ⟨?_, rfl, by rw [fresh.refreshes]; rfl⟩
    show (⟨s.world.tracker.next, .empty⟩ : RefreshTracker) = _
    rw [← fresh.slots]
  numbered := Scene.Reaches.numbered fresh (s.runs_perform [])
  early := fun _ hc => absurd hc List.not_mem_nil
  unsettled := fun _ hu => absurd (fresh.threads ▸ hu) List.not_mem_nil
  settled := fun _ hu => absurd (fresh.threads ▸ hu) List.not_mem_nil

/-- However calls that start refreshes, the refreshes and calls that settle records come between one
another, the tracker knows exactly the refreshes in flight.  All that goes on in a scene is of this
kind. -/
theorem tracker_is_exact :
    (∀ first t, (opening first).Leads t → t.IsExact) ∧
      ∀ s₀ : Scene, s₀.IsFresh → (opening s₀.world.tracker.next).Shows s₀ ∧
        ∀ t s, (opening s₀.world.tracker.next).Leads t → t.Shows s →
          ∀ a, ∃ t', t.Follows s a t' := by
  refine ⟨fun first t leads => ((inOrder_opening first).leads leads).isExact, fun s₀ fresh =>
    ⟨shows_opening fresh, fun t s leads hshows a => ?_⟩⟩
  exact hshows.act ((inOrder_opening _).leads leads) a

/-- Two refreshes of a record draw their numbers and are started in the other order; the first of
them gets a turn before it is on the list.  A call settles the record while it is at work, and
another refresh starts meanwhile.  The one at work takes itself off the list too late, and the other
one is given up. -/
def overlapping : List Move :=
  let id := Scene.oldRecord.id
  [.draw id, .draw id, .launch id 1, .job id 1 .poll, .enter id 1, .launch id 0, .enter id 0,
    .job id 1 .act, .settle 0 id, .callOff 0 1, .draw id, .launch id 2, .enter id 2,
    .job id 1 .complete, .job id 1 .finish, .pass 0 1, .callOff 0 0, .job id 0 .drop, .pass 0 0]

/-- A read finds the record, which is updated before its refresh has had a turn. -/
def readBeforeUpdate : List Act :=
  let id := Scene.oldRecord.id
  [.start {} (.get id), .look 0 .cache, .look 0 .cache, .start {} (.update id Scene.relabeling),
    .look 1 .cache, .look 1 .cache, .look 1 .cache]

theorem exact_in_overlapping :
    ((opening 0).perform overlapping).tracker.pending Scene.oldRecord.id = [2] ∧
      ((opening 0).perform overlapping).settlings = [⟨0, Scene.oldRecord.id, [1, 0], []⟩] ∧
      ((opening 0).perform overlapping).IsExact ∧
      ∃ t, (opening 0).Leads t ∧ t.Shows (Scene.withOldRecord.perform readBeforeUpdate) ∧
        t.Awaits 1 Scene.oldRecord.id [0] := by
  have hpending : ((opening 0).perform overlapping).tracker.pending Scene.oldRecord.id = [2] := by
    decide
  have hsettlings : ((opening 0).perform overlapping).settlings =
      [⟨0, Scene.oldRecord.id, [1, 0], []⟩] := by decide
  have hexact : ((opening 0).perform overlapping).IsExact :=
    tracker_is_exact.1 0 _ ⟨overlapping, rfl⟩
  obtain ⟨hopening, hacts⟩ := tracker_is_exact.2 Scene.withOldRecord Scene.isFresh_withOldRecord
  have hshown (acts : List Act) (t : Traffic) (s : Scene) (leads : (opening 0).Leads t)
      (h : t.Shows s) : ∃ t', (opening 0).Leads t' ∧ t'.Shows (s.perform acts) := by
    induction acts generalizing t s with
    | nil => exact ⟨t, leads, h⟩
    | cons a acts ih =>
      obtain ⟨t', hnext, hshows, -⟩ := hacts t s leads h a
      exact ih t' (s.act a) (leads.trans hnext) hshows
  obtain ⟨t, hleads, hshows⟩ := hshown readBeforeUpdate _ _ (.refl _) hopening
  have hthread : ∃ u ∈ (Scene.withOldRecord.perform readBeforeUpdate).threads, u.key = 1 ∧
      u.point.tickets = [0] ∧ u.point.settled?.map (·.recordId) = some Scene.oldRecord.id := by
    decide
  obtain ⟨u, hu, hkey, htickets, hrecord⟩ := hthread
  obtain ⟨change, hchange, hid⟩ := Option.map_eq_some_iff.mp hrecord
  have hawaits := hshows.settled u hu change hchange
  rw [hkey, hid, htickets] at hawaits
  exact ⟨hpending, hsettlings, hexact, t, hleads, hshows, hawaits⟩

end Traffic

end CacheAside
