import Mathlib.Data.List.Nodup
import Mathlib.Data.List.Perm.Basic
import CacheAside.Proofs.Tracker

/-!
# The traffic around a tracker

A tracker is used in parallel: by calls that start refreshes, by the refreshes themselves, and by
calls that settle the refreshes of a record.  Everybody's way is cut into moves, and a move can
follow any other as soon as it is possible (`Traffic.Allows`), so the lists of moves are the
interleavings.  Someone who is never heard of again makes no more moves.

The lists are under a lock.  It is held for one move, except that a call that starts a refresh keeps
it from the moment when the refresh can have turns until the refresh is on its list.  A refresh can
be called off at any time, but is given up only between two turns.

What every move keeps is `Traffic.InOrder`.  It follows that after any moves the list of a record
holds exactly the refreshes that have been put on it, have not taken themselves off it and have not
been taken off it by a call that settles the record (`Traffic.IsExact`).
-/

namespace CacheAside

namespace RefreshTracker

/-- Draws the number of a refresh.  The supply of numbers outlasts any tracker. -/
def draw (t : RefreshTracker) : Ticket × RefreshTracker :=
  (t.next, { t with next := t.next + 1 })

/-- Puts a refresh on the list of its record. -/
def enter (t : RefreshTracker) (id : RecordId) (ticket : Ticket) : RefreshTracker :=
  { t with slots := t.slots.insert id (t.pending id ++ [ticket]) }

/-- A new refresh is tracked in two steps. -/
theorem spawn_eq (t : RefreshTracker) (id : RecordId) :
    t.spawn id = (t.draw.1, t.draw.2.enter id t.draw.1) :=
  rfl

@[simp] theorem pending_enter (t : RefreshTracker) (id key : RecordId) (ticket : Ticket) :
    (t.enter id ticket).pending key =
      if key = id then t.pending id ++ [ticket] else t.pending key := by
  by_cases h : key = id <;> simp [enter, pending, h]

/-- No record has an empty list. -/
def IsFilled (t : RefreshTracker) : Prop :=
  ∀ id, t.slots.get? id ≠ some []

theorem IsFilled.enter {t : RefreshTracker} (h : t.IsFilled) (id : RecordId) (ticket : Ticket) :
    (t.enter id ticket).IsFilled := fun key => by
  by_cases hkey : key = id
  · simp [RefreshTracker.enter, hkey]
  · simpa [RefreshTracker.enter, hkey] using h key

theorem IsFilled.take {t : RefreshTracker} (h : t.IsFilled) (id : RecordId) :
    (t.take id).2.IsFilled := fun key => by
  by_cases hkey : key = id
  · simp [RefreshTracker.take, hkey]
  · simpa [RefreshTracker.take, hkey] using h key

theorem IsFilled.finish {t : RefreshTracker} (h : t.IsFilled) (id : RecordId) (ticket : Ticket) :
    (t.finish id ticket).IsFilled := fun key => by
  unfold RefreshTracker.finish
  split
  · exact h key
  · rename_i tickets hslot
    by_cases hkey : key = id
    · -- a list that has become empty goes with its last refresh
      cases hleft : tickets.filter (· ≠ ticket) <;> simp [hkey]
    · dsimp only
      split <;> simpa [hkey] using h key

end RefreshTracker

/-- How far a refresh has got. -/
inductive Phase where
  /-- Between two turns. -/
  | resting
  /-- It has a turn. -/
  | busy
  /-- Its work is done, and it is about to take itself off the list. -/
  | done
  /-- It has ended and never has a turn again. -/
  | ended
  deriving DecidableEq

/-- A refresh that has been started. -/
structure Job where
  id : RecordId
  ticket : Ticket
  phase : Phase := .resting
  /-- Someone has called it off. -/
  calledOff : Bool := false
  deriving DecidableEq

/-- What happens to a refresh. -/
inductive Deed where
  /-- It gets a turn. -/
  | poll
  /-- It does some of its work, such as a write into the cache. -/
  | act
  /-- Its turn ends before its work is done. -/
  | rest
  /-- Its work is done. -/
  | complete
  /-- It takes itself off the list and ends. -/
  | finish
  /-- It breaks down. -/
  | breakDown
  /-- It is given up. -/
  | drop
  deriving DecidableEq

namespace Deed

/-- How far a refresh has got after that. -/
def phase : Deed → Phase
  | .poll => .busy
  | .act => .busy
  | .rest => .resting
  | .complete => .done
  | .finish => .ended
  | .breakDown => .ended
  | .drop => .ended

end Deed

namespace Job

/-- The record of a refresh and its number. -/
def name (j : Job) : RecordId × Ticket :=
  (j.id, j.ticket)

/-- Whether something can happen to a refresh.  One that was called off gets no more turns. -/
def can (j : Job) : Deed → Bool
  | .poll => j.phase = .resting && !j.calledOff
  | .act => j.phase = .busy
  | .rest => j.phase = .busy
  | .complete => j.phase = .busy
  | .finish => j.phase = .done
  | .breakDown => j.phase = .busy
  | .drop => j.phase = .resting && j.calledOff

/-- The refreshes with a change in the one of this number. -/
def amend (ticket : Ticket) (f : Job → Job) (jobs : List Job) : List Job :=
  jobs.map fun j => if j.ticket = ticket then f j else j

/-- The refresh in another phase. -/
def goTo (phase : Phase) (j : Job) : Job :=
  { j with phase }

/-- The refresh when it has been called off. -/
def callOff (j : Job) : Job :=
  { j with calledOff := true }

end Job

/-- A call that settles the refreshes of a record. -/
structure Settling where
  /-- The number of the call. -/
  key : Nat
  id : RecordId
  /-- The refreshes that it has taken off the list. -/
  took : List Ticket
  /-- Those that it has not seen ended yet.  It calls off the first and waits for it. -/
  left : List Ticket
  deriving DecidableEq

/-- The call crosses a refresh off. -/
def Settling.pass (ticket : Ticket) (c : Settling) : Settling :=
  { c with left := c.left.erase ticket }

/-- A tracker and all who use it. -/
structure Traffic where
  tracker : RefreshTracker := {}
  /-- The refreshes that have a number but have not been started. -/
  drawn : List (RecordId × Ticket) := []
  /-- The refresh that is being put on its list under the lock. -/
  entering : Option (RecordId × Ticket) := none
  /-- All refreshes that have been started. -/
  jobs : List Job := []
  /-- All calls that have settled the refreshes of a record, or still do. -/
  settlings : List Settling := []
  /-- What has happened to which refresh, oldest first. -/
  log : List (Ticket × Deed) := []

inductive Move where
  /-- A call that is to start a refresh of a record draws the number. -/
  | draw (id : RecordId)
  /-- It takes the lock and starts the refresh. -/
  | launch (id : RecordId) (ticket : Ticket)
  /-- It puts the refresh on the list and gives the lock back. -/
  | enter (id : RecordId) (ticket : Ticket)
  | job (id : RecordId) (ticket : Ticket) (deed : Deed)
  /-- A call takes all refreshes of a record off the list. -/
  | settle (key : Nat) (id : RecordId)
  /-- It calls the first of them off. -/
  | callOff (key : Nat) (ticket : Ticket)
  /-- It sees that this one is over. -/
  | pass (key : Nat) (ticket : Ticket)

namespace Traffic

/-- Nobody uses the tracker yet. -/
def opening (first : Ticket) : Traffic where
  tracker := { next := first }

/-- The call waits for this refresh. -/
def WaitsFor (t : Traffic) (key : Nat) (ticket : Ticket) : Prop :=
  ∃ c ∈ t.settlings, c.key = key ∧ c.left.head? = some ticket

instance (t : Traffic) (key : Nat) (ticket : Ticket) : Decidable (t.WaitsFor key ticket) :=
  inferInstanceAs (Decidable (∃ c ∈ t.settlings, _))

/-- When a move is possible. -/
def Allows (t : Traffic) : Move → Prop
  | .draw _ => True
  | .launch id ticket => t.entering = none ∧ (id, ticket) ∈ t.drawn
  | .enter id ticket => t.entering = some (id, ticket)
  | .job id ticket deed => (deed = .finish → t.entering = none) ∧
      ∃ j ∈ t.jobs, j.name = (id, ticket) ∧ j.can deed = true
  | .settle key _ => t.entering = none ∧ ∀ c ∈ t.settlings, c.key ≠ key
  | .callOff key ticket => t.WaitsFor key ticket
  | .pass key ticket => t.WaitsFor key ticket ∧
      ∃ j ∈ t.jobs, j.ticket = ticket ∧ j.phase = .ended ∧ j.calledOff = true

instance (t : Traffic) : (m : Move) → Decidable (t.Allows m)
  | .draw _ => inferInstanceAs (Decidable True)
  | .launch _ _ => inferInstanceAs (Decidable (_ ∧ _))
  | .enter _ _ => inferInstanceAs (Decidable (_ = _))
  | .job _ _ _ => inferInstanceAs (Decidable ((_ → _) ∧ ∃ j ∈ t.jobs, _))
  | .settle _ _ => inferInstanceAs (Decidable (_ ∧ ∀ c ∈ t.settlings, _))
  | .callOff key ticket => inferInstanceAs (Decidable (t.WaitsFor key ticket))
  | .pass key ticket => inferInstanceAs (Decidable (t.WaitsFor key ticket ∧ ∃ j ∈ t.jobs, _))

/-- What becomes of the traffic by a possible move. -/
def after (t : Traffic) : Move → Traffic
  | .draw id =>
    { t with tracker := t.tracker.draw.2, drawn := t.drawn ++ [(id, t.tracker.draw.1)] }
  | .launch id ticket =>
    { t with
      drawn := t.drawn.erase (id, ticket)
      entering := some (id, ticket)
      jobs := t.jobs ++ [{ id, ticket }] }
  | .enter id ticket => { t with tracker := t.tracker.enter id ticket, entering := none }
  | .job id ticket deed =>
    { t with
      tracker := if deed = .finish then t.tracker.finish id ticket else t.tracker
      jobs := Job.amend ticket (Job.goTo deed.phase) t.jobs
      log := t.log ++ [(ticket, deed)] }
  | .settle key id =>
    let (tickets, tracker) := t.tracker.take id
    { t with tracker, settlings := t.settlings ++ [⟨key, id, tickets, tickets⟩] }
  | .callOff _ ticket => { t with jobs := Job.amend ticket Job.callOff t.jobs }
  | .pass key ticket =>
    { t with settlings := t.settlings.map fun c => if c.key = key then c.pass ticket else c }

/-- What becomes of the traffic by a move.  One that is not possible changes nothing. -/
def move (t : Traffic) (m : Move) : Traffic :=
  if t.Allows m then t.after m else t

/-- The traffic after some moves. -/
def perform (t : Traffic) (moves : List Move) : Traffic :=
  moves.foldl move t

/-- The one traffic becomes the other by some moves. -/
def Leads (t t' : Traffic) : Prop :=
  ∃ moves, t.perform moves = t'

/-- The refreshes that have been started, each with its record. -/
def started (t : Traffic) : List (RecordId × Ticket) :=
  t.jobs.map Job.name

/-- The refreshes that have a number, each with its record. -/
def numbered (t : Traffic) : List (RecordId × Ticket) :=
  t.drawn ++ t.started

/-- The refresh has been put on the list of the record. -/
def HasEntered (t : Traffic) (id : RecordId) (ticket : Ticket) : Prop :=
  (id, ticket) ∈ t.started ∧ t.entering ≠ some (id, ticket)

/-- The refresh has taken itself off the list. -/
def HasFinished (t : Traffic) (ticket : Ticket) : Prop :=
  (ticket, .finish) ∈ t.log

def HasBrokenDown (t : Traffic) (ticket : Ticket) : Prop :=
  (ticket, .breakDown) ∈ t.log

/-- A call that settles the record has taken the refresh off the list. -/
def IsTaken (t : Traffic) (id : RecordId) (ticket : Ticket) : Prop :=
  ∃ c ∈ t.settlings, c.id = id ∧ ticket ∈ c.took

/-- The move is one of a call that settles the record. -/
def IsOfSettling (t : Traffic) (id : RecordId) : Move → Prop
  | .settle _ other => other = id
  | .callOff key _ => ∃ c ∈ t.settlings, c.key = key ∧ c.id = id
  | .pass key _ => ∃ c ∈ t.settlings, c.key = key ∧ c.id = id
  | _ => False

/-- The refresh has been started and has not ended. -/
def IsInFlight (t : Traffic) (ticket : Ticket) : Prop :=
  ∃ j ∈ t.jobs, j.ticket = ticket ∧ j.phase ≠ .ended

/-- The refresh has been started and has ended. -/
def IsOver (t : Traffic) (ticket : Ticket) : Prop :=
  (∃ id, (id, ticket) ∈ t.started) ∧ ∀ j ∈ t.jobs, j.ticket = ticket → j.phase = .ended

theorem move_of_allows {t : Traffic} {m : Move} (h : t.Allows m) : t.move m = t.after m :=
  if_pos h

theorem Leads.refl (t : Traffic) : t.Leads t :=
  ⟨[], rfl⟩

theorem leads_after {t : Traffic} {m : Move} (h : t.Allows m) : t.Leads (t.after m) :=
  ⟨[m], move_of_allows h⟩

theorem Leads.trans {t₁ t₂ t₃ : Traffic} (h : t₁.Leads t₂) (h' : t₂.Leads t₃) : t₁.Leads t₃ := by
  obtain ⟨moves, rfl⟩ := h
  obtain ⟨next, rfl⟩ := h'
  exact ⟨moves ++ next, List.foldl_append⟩

/-- What every possible move keeps holds after any moves. -/
theorem perform_induct {P : Traffic → Prop} (keep : ∀ t m, P t → t.Allows m → P (t.after m))
    {t : Traffic} (init : P t) (moves : List Move) : P (t.perform moves) := by
  induction moves generalizing t with
  | nil => exact init
  | cons m moves ih =>
    refine ih ?_
    unfold move
    split
    · rename_i allowed
      exact keep t m init allowed
    · exact init

end Traffic

/-! ## Changes of one refresh -/

namespace Job

variable {j : Job} {jobs : List Job} {ticket : Ticket} {f : Job → Job}

theorem map_name_amend (hf : ∀ j, (f j).name = j.name) :
    (amend ticket f jobs).map name = jobs.map name := by
  rw [amend, List.map_map]
  refine List.map_congr_left fun j _ => ?_
  simp only [Function.comp_apply]
  split
  · exact hf j
  · rfl

theorem mem_amend (h : j ∈ amend ticket f jobs) :
    (∃ i ∈ jobs, i.ticket = ticket ∧ j = f i) ∨ j ∈ jobs ∧ j.ticket ≠ ticket := by
  obtain ⟨i, hi, rfl⟩ := List.mem_map.mp h
  split
  · exact .inl ⟨i, hi, by assumption, rfl⟩
  · exact .inr ⟨hi, by assumption⟩

theorem mem_amend_of_mem (h : j ∈ jobs) : f j ∈ amend j.ticket f jobs :=
  List.mem_map.mpr ⟨j, h, if_pos rfl⟩

end Job

namespace Traffic

variable {t : Traffic} {m : Move}

/-! ## Numbers -/

/-- No number is used twice. -/
structure Numbered (t : Traffic) : Prop where
  distinct : (t.numbered.map (·.2)).Nodup
  early : ∀ e ∈ t.numbered, e.2 < t.tracker.next

/-- Only the start of a refresh adds to those that have been started. -/
theorem started_after (t : Traffic) (m : Move) : (t.after m).started =
    match m with
    | .launch id ticket => t.started ++ [(id, ticket)]
    | _ => t.started := by
  cases m with
  | launch id ticket => exact List.map_append
  | job id ticket deed => exact Job.map_name_amend fun _ => rfl
  | callOff key ticket => exact Job.map_name_amend fun _ => rfl
  | _ => rfl

/-- Only the draw of a number adds to those that have one. -/
theorem numbered_after (allowed : t.Allows m) : (t.after m).numbered.Perm
    (match m with
    | .draw id => (id, t.tracker.next) :: t.numbered
    | _ => t.numbered) := by
  rw [numbered, started_after]
  cases m with
  | draw id => exact (List.append_assoc ..) ▸ List.perm_middle
  | launch id ticket =>
    -- the refresh goes over from those that were drawn to those that have started
    have hfront : (t.drawn.erase (id, ticket) ++ (t.started ++ [(id, ticket)])).Perm
        ((id, ticket) :: t.drawn.erase (id, ticket) ++ t.started) := by
      rw [← List.append_assoc]
      exact List.perm_append_singleton ..
    exact hfront.trans ((List.perm_cons_erase allowed.2).symm.append_right _)
  | _ => exact List.Perm.refl _

/-- Only the settlement of a record adds to those that have been taken off its list. -/
theorem isTaken_after (t : Traffic) (m : Move) (id : RecordId) (ticket : Ticket) :
    (t.after m).IsTaken id ticket ↔
      t.IsTaken id ticket ∨ (∃ key, m = .settle key id) ∧ ticket ∈ t.tracker.pending id := by
  cases m with
  | settle key other =>
    simp only [IsTaken, after, RefreshTracker.take, List.mem_append, List.mem_singleton]
    constructor
    · rintro ⟨c, hc | rfl, rfl, hticket⟩
      · exact .inl ⟨c, hc, rfl, hticket⟩
      · exact .inr ⟨⟨key, rfl⟩, hticket⟩
    · rintro (⟨c, hc, hid, hticket⟩ | ⟨⟨_, ⟨⟩⟩, hticket⟩)
      · exact ⟨c, .inl hc, hid, hticket⟩
      · exact ⟨_, .inr rfl, rfl, hticket⟩
  | pass key other =>
    -- a refresh that is crossed off was taken nonetheless
    have hsame (c : Settling) : (if c.key = key then c.pass other else c).id = c.id ∧
        (if c.key = key then c.pass other else c).took = c.took := by
      split <;> exact ⟨rfl, rfl⟩
    simp [IsTaken, after, hsame]
  | _ => simp [IsTaken, after]

theorem hasFinished_after (t : Traffic) (m : Move) (ticket : Ticket) :
    (t.after m).HasFinished ticket ↔
      t.HasFinished ticket ∨ ∃ id, m = .job id ticket .finish := by
  cases m with
  | job id n deed => simp [HasFinished, after, eq_comm]
  | _ => simp [HasFinished, after]

theorem mem_log_after (m : Move) {e : Ticket × Deed} (h : e ∈ t.log) : e ∈ (t.after m).log := by
  cases m with
  | job id ticket deed => exact List.mem_append_left _ h
  | _ => exact h

theorem next_after (t : Traffic) (m : Move) : (t.after m).tracker.next =
    match m with
    | .draw _ => t.tracker.next + 1
    | _ => t.tracker.next := by
  cases m with
  | job id ticket deed =>
    simp only [after]
    split
    · exact t.tracker.next_finish id ticket
    · rfl
  | _ => rfl

theorem Numbered.after (h : t.Numbered) (allowed : t.Allows m) : (t.after m).Numbered := by
  have hperm := numbered_after allowed
  have hnext := t.next_after m
  cases m with
  | draw id =>
    -- the new number is above all others
    have hnew : t.tracker.next ∉ t.numbered.map (·.2) := fun hold => by
      obtain ⟨e, he, heq⟩ := List.mem_map.mp hold
      exact absurd (h.early e he) (Nat.not_lt.mpr (Nat.le_of_eq heq.symm))
    refine ⟨((hperm.map _).nodup_iff).mpr (List.nodup_cons.mpr ⟨hnew, h.distinct⟩), fun e he => ?_⟩
    rw [hnext]
    rcases List.mem_cons.mp (hperm.mem_iff.mp he) with rfl | hold
    · exact Nat.lt_succ_self _
    · exact Nat.lt_succ_of_lt (h.early e hold)
  | _ =>
    exact ⟨((hperm.map _).nodup_iff).mpr h.distinct, fun e he =>
      Nat.lt_of_lt_of_eq (h.early e (hperm.mem_iff.mp he)) hnext.symm⟩

namespace Numbered

/-- A number is that of one refresh only. -/
theorem eq_of_ticket (h : t.Numbered) {i j : Job} (hi : i ∈ t.jobs) (hj : j ∈ t.jobs)
    (ticket : i.ticket = j.ticket) : i = j := by
  have hdistinct : (t.jobs.map (·.ticket)).Nodup := by
    have hstarted := h.distinct.sublist ((List.sublist_append_right t.drawn t.started).map _)
    rwa [started, List.map_map] at hstarted
  exact List.inj_on_of_nodup_map hdistinct hi hj ticket

/-- A number is that of one record only. -/
theorem eq_of_started (h : t.Numbered) {id key : RecordId} {ticket : Ticket}
    (hid : (id, ticket) ∈ t.started) (hkey : (key, ticket) ∈ t.started) : id = key := by
  have hdistinct := h.distinct.sublist ((List.sublist_append_right t.drawn t.started).map _)
  exact congrArg Prod.fst (List.inj_on_of_nodup_map hdistinct hid hkey rfl)

/-- A refresh whose number has only been drawn has not been started. -/
theorem not_started (h : t.Numbered) {id key : RecordId} {ticket : Ticket}
    (drawn : (id, ticket) ∈ t.drawn) : (key, ticket) ∉ t.started := fun hstarted => by
  have hdistinct := h.distinct
  rw [numbered, List.map_append] at hdistinct
  exact List.disjoint_of_nodup_append hdistinct (List.mem_map.mpr ⟨_, drawn, rfl⟩)
    (List.mem_map.mpr ⟨_, hstarted, rfl⟩)

end Numbered

/-! ## Lists -/

/-- The lists are what they are to be. -/
structure Booked (t : Traffic) : Prop where
  entering : ∀ id ticket, t.entering = some (id, ticket) →
    (id, ticket) ∈ t.started ∧ ¬ t.HasFinished ticket ∧ ¬ t.IsTaken id ticket
  listed : ∀ id ticket, ticket ∈ t.tracker.pending id ↔
    t.HasEntered id ticket ∧ ¬ t.HasFinished ticket ∧ ¬ t.IsTaken id ticket
  once : ∀ id, (t.tracker.pending id).Nodup
  filled : t.tracker.IsFilled
  taken : ∀ id ticket, t.IsTaken id ticket → (id, ticket) ∈ t.started
  logged : ∀ e ∈ t.log, ∃ id, (id, e.1) ∈ t.started

namespace Booked

/-- A refresh on a list has been started. -/
theorem started (h : t.Booked) {id : RecordId} {ticket : Ticket}
    (mem : ticket ∈ t.tracker.pending id) : (id, ticket) ∈ t.started :=
  ((h.listed id ticket).mp mem).1.1

theorem launch (h : t.Booked) (numbered : t.Numbered) {id : RecordId} {ticket : Ticket}
    (allowed : t.Allows (.launch id ticket)) : (t.after (.launch id ticket)).Booked := by
  obtain ⟨hfree, hdrawn⟩ := allowed
  have hnew (key : RecordId) : (key, ticket) ∉ t.started := numbered.not_started hdrawn
  have hstarted := t.started_after (.launch id ticket)
  have hkept {e : RecordId × Ticket} (he : e ∈ t.started) :
      e ∈ (t.after (.launch id ticket)).started := by
    rw [hstarted]
    exact List.mem_append_left _ he
  refine ⟨?_, fun key n => ?_, h.once, h.filled, fun key n hn => hkept (h.taken key n hn),
    fun e he => (h.logged e he).imp fun _ => hkept⟩
  · rintro _ _ ⟨⟩
    refine ⟨by rw [hstarted]; simp, fun hfinished => ?_, fun htaken => ?_⟩
    · obtain ⟨key, hkey⟩ := h.logged _ hfinished
      exact hnew key hkey
    · exact hnew id (h.taken id ticket htaken)
  · refine (h.listed key n).trans (and_congr_left fun _ => ?_)
    by_cases heq : (id, ticket) = (key, n)
    · -- the refresh itself is not on its list yet
      cases heq
      exact ⟨fun hentered => absurd hentered.1 (hnew id), fun hentered => absurd rfl hentered.2⟩
    · have hother : (key, n) ∈ (t.after (.launch id ticket)).started ↔ (key, n) ∈ t.started := by
        rw [hstarted]
        simp [Ne.symm heq]
      have hlock : some (id, ticket) ≠ some (key, n) := fun h => heq (Option.some.inj h)
      exact ⟨fun hentered => ⟨hother.mpr hentered.1, hlock⟩,
        fun hentered => ⟨hother.mp hentered.1, by simp [hfree]⟩⟩

theorem enter (h : t.Booked) {id : RecordId} {ticket : Ticket}
    (allowed : t.Allows (.enter id ticket)) : (t.after (.enter id ticket)).Booked := by
  have hentering : t.entering = some (id, ticket) := allowed
  obtain ⟨hstarted, hunfinished, huntaken⟩ := h.entering id ticket hentering
  have hunlisted : ticket ∉ t.tracker.pending id := fun hlisted =>
    ((h.listed id ticket).mp hlisted).1.2 hentering
  refine ⟨by rintro _ _ ⟨⟩, fun key n => ?_, fun key => ?_, h.filled.enter id ticket, h.taken,
    h.logged⟩
  · show n ∈ (t.tracker.enter id ticket).pending key ↔ _
    rw [RefreshTracker.pending_enter]
    by_cases heq : (id, ticket) = (key, n)
    · cases heq
      rw [if_pos rfl]
      exact ⟨fun _ => ⟨⟨hstarted, by rintro ⟨⟩⟩, hunfinished, huntaken⟩, fun _ => by simp⟩
    · have hold : n ∈ (if key = id then t.tracker.pending id ++ [ticket] else
          t.tracker.pending key) ↔ n ∈ t.tracker.pending key := by
        split
        · rename_i hid
          subst hid
          have hne : n ≠ ticket := fun hn => heq (by rw [hn])
          simp [hne]
        · exact Iff.rfl
      have hlock : t.entering ≠ some (key, n) := fun h =>
        heq (Option.some.inj (hentering.symm.trans h))
      refine hold.trans ((h.listed key n).trans (and_congr_left fun _ => ?_))
      exact ⟨fun hentered => ⟨hentered.1, by rintro ⟨⟩⟩, fun hentered => ⟨hentered.1, hlock⟩⟩
  · show ((t.tracker.enter id ticket).pending key).Nodup
    rw [RefreshTracker.pending_enter]
    split
    · refine List.nodup_append.mpr ⟨h.once id, List.nodup_singleton _, ?_⟩
      rintro n hn _ hm rfl
      exact hunlisted (List.mem_singleton.mp hm ▸ hn)
    · exact h.once key

theorem settle (h : t.Booked) {key : Nat} {id : RecordId}
    (allowed : t.Allows (.settle key id)) : (t.after (.settle key id)).Booked := by
  have hfree : t.entering = none := allowed.1
  refine ⟨fun other n hentering => ?_, fun other n => ?_, fun other => ?_, h.filled.take id,
    fun other n hn => ?_, h.logged⟩
  · cases hfree.symm.trans hentering
  · show n ∈ (t.tracker.take id).2.pending other ↔ _
    rw [RefreshTracker.pending_take, isTaken_after]
    split
    · rename_i hid
      subst hid
      refine ⟨fun hn => absurd hn List.not_mem_nil, fun ⟨hentered, hunfinished, huntaken⟩ => ?_⟩
      have hlisted := (h.listed other n).mpr ⟨hentered, hunfinished, fun hn => huntaken (.inl hn)⟩
      exact absurd (.inr ⟨⟨key, rfl⟩, hlisted⟩) huntaken
    · rename_i hid
      refine (h.listed other n).trans (and_congr_right fun _ => and_congr_right fun _ => ?_)
      refine not_congr ⟨.inl, fun hn => hn.resolve_right ?_⟩
      rintro ⟨⟨_, ⟨⟩⟩, -⟩
      exact hid rfl
  · show ((t.tracker.take id).2.pending other).Nodup
    rw [RefreshTracker.pending_take]
    split
    · exact List.nodup_nil
    · exact h.once other
  · rcases (t.isTaken_after _ other n).mp hn with hold | ⟨-, hlisted⟩
    · exact h.taken other n hold
    · exact h.started hlisted

/-- A refresh that takes itself off the list takes no other off any list. -/
theorem mem_pending_job (h : t.Booked) (numbered : t.Numbered) {id : RecordId} {ticket : Ticket}
    (mem : (id, ticket) ∈ t.started) (deed : Deed) (key : RecordId) (n : Ticket) :
    n ∈ (t.after (.job id ticket deed)).tracker.pending key ↔
      n ∈ t.tracker.pending key ∧ ¬ (n = ticket ∧ deed = .finish) := by
  by_cases hdeed : deed = .finish
  · subst hdeed
    show n ∈ (t.tracker.finish id ticket).pending key ↔ _
    rw [RefreshTracker.pending_finish]
    split
    · rename_i hid
      simp [hid]
    · rename_i hid
      -- the number is that of a refresh of another record
      refine ⟨fun hn => ⟨hn, fun ⟨heq, _⟩ => hid ?_⟩, And.left⟩
      exact numbered.eq_of_started (heq ▸ h.started hn) mem
  · simp [Traffic.after, hdeed]

theorem job (h : t.Booked) (numbered : t.Numbered) {id : RecordId} {ticket : Ticket} {deed : Deed}
    (allowed : t.Allows (.job id ticket deed)) : (t.after (.job id ticket deed)).Booked := by
  obtain ⟨hfree, j, hj, hname, -⟩ := allowed
  have hmem : (id, ticket) ∈ t.started := List.mem_map.mpr ⟨j, hj, hname⟩
  have hstarted : (t.after (.job id ticket deed)).started = t.started :=
    t.started_after (.job id ticket deed)
  have hfinished (n : Ticket) : (t.after (.job id ticket deed)).HasFinished n ↔
      t.HasFinished n ∨ n = ticket ∧ deed = .finish := by
    simp [hasFinished_after, eq_comm]
  refine ⟨fun key n hentering => ?_, fun key n => ?_, fun key => ?_, ?_, fun key n hn => ?_,
    fun e he => ?_⟩
  · obtain ⟨hold, hunfinished, huntaken⟩ := h.entering key n hentering
    refine ⟨hstarted ▸ hold, fun hdone => ?_, huntaken⟩
    rcases (hfinished n).mp hdone with hdone | ⟨-, hdeed⟩
    · exact hunfinished hdone
    · cases (hfree hdeed).symm.trans hentering
  · have hentered : (t.after (.job id ticket deed)).HasEntered key n ↔ t.HasEntered key n := by
      unfold HasEntered
      rw [hstarted]
      exact Iff.rfl
    have htaken : (t.after (.job id ticket deed)).IsTaken key n ↔ t.IsTaken key n := Iff.rfl
    rw [h.mem_pending_job numbered hmem, h.listed, hentered, hfinished, htaken]
    tauto
  · show List.Nodup
      ((if deed = .finish then t.tracker.finish id ticket else t.tracker).pending key)
    split
    · rw [RefreshTracker.pending_finish]
      split
      · exact (h.once id).filter _
      · exact h.once key
    · exact h.once key
  · show (if deed = .finish then t.tracker.finish id ticket else t.tracker).IsFilled
    split
    · exact h.filled.finish id ticket
    · exact h.filled
  · exact hstarted ▸ h.taken key n hn
  · rw [hstarted]
    rcases List.mem_append.mp he with hold | hnew
    · exact h.logged e hold
    · obtain rfl := List.mem_singleton.mp hnew
      exact ⟨id, hmem⟩

/-- The lists are what they are to be as long as nothing is put on them or taken off them. -/
theorem of_same (h : t.Booked) {t' : Traffic} (tracker : t'.tracker = t.tracker)
    (entering : t'.entering = t.entering) (log : t'.log = t.log) (started : t'.started = t.started)
    (taken : ∀ id ticket, t'.IsTaken id ticket ↔ t.IsTaken id ticket) : t'.Booked := by
  have hfinished (ticket : Ticket) : t'.HasFinished ticket ↔ t.HasFinished ticket := by
    rw [HasFinished, log, HasFinished]
  have hentered (id : RecordId) (ticket : Ticket) :
      t'.HasEntered id ticket ↔ t.HasEntered id ticket := by
    rw [HasEntered, started, entering, HasEntered]
  refine ⟨fun id ticket => ?_, fun id ticket => ?_, tracker ▸ h.once, tracker ▸ h.filled,
    fun id ticket => ?_, by rw [log, started]; exact h.logged⟩
  · rw [entering, started, hfinished, taken]
    exact h.entering id ticket
  · rw [tracker, hentered, hfinished, taken]
    exact h.listed id ticket
  · rw [taken, started]
    exact h.taken id ticket

theorem after (h : t.Booked) (numbered : t.Numbered) (allowed : t.Allows m) :
    (t.after m).Booked := by
  cases m with
  | draw id => exact ⟨h.entering, h.listed, h.once, h.filled, h.taken, h.logged⟩
  | launch id ticket => exact h.launch numbered allowed
  | enter id ticket => exact h.enter allowed
  | job id ticket deed => exact h.job numbered allowed
  | settle key id => exact h.settle allowed
  | callOff key ticket =>
    exact h.of_same rfl rfl rfl (t.started_after (.callOff key ticket)) fun _ _ => Iff.rfl
  | pass key ticket =>
    exact h.of_same rfl rfl rfl rfl fun id n => by simp [isTaken_after]

end Booked

/-! ## Ends -/

/-- How a refresh comes to be what it is after a move. -/
inductive Comes (t : Traffic) : Move → Job → Prop where
  | starts {id : RecordId} {ticket : Ticket} : Comes t (.launch id ticket) { id, ticket }
  | stays {m : Move} {j : Job} (old : j ∈ t.jobs) : Comes t m j
  | goes {j : Job} {deed : Deed} (old : j ∈ t.jobs) (can : j.can deed = true) :
      Comes t (.job j.id j.ticket deed) (j.goTo deed.phase)
  | isCalledOff {j : Job} {key : Nat} (old : j ∈ t.jobs) (waits : t.WaitsFor key j.ticket) :
      Comes t (.callOff key j.ticket) j.callOff

theorem Numbered.comes (numbered : t.Numbered) (allowed : t.Allows m) {j : Job}
    (mem : j ∈ (t.after m).jobs) : t.Comes m j := by
  cases m with
  | launch id ticket =>
    rcases List.mem_append.mp mem with hold | hnew
    · exact .stays hold
    · obtain rfl := List.mem_singleton.mp hnew
      exact .starts
  | job id ticket deed =>
    obtain ⟨-, i, hi, hname, hcan⟩ := allowed
    obtain ⟨rfl, rfl⟩ := Prod.mk.inj hname
    rcases Job.mem_amend mem with ⟨k, hk, hticket, rfl⟩ | ⟨hold, -⟩
    · obtain rfl := numbered.eq_of_ticket hk hi hticket
      exact .goes hk hcan
    · exact .stays hold
  | callOff key ticket =>
    rcases Job.mem_amend mem with ⟨i, hi, rfl, rfl⟩ | ⟨hold, -⟩
    · exact .isCalledOff hi allowed
    · exact .stays hold
  | _ => exact .stays mem

theorem IsOver.not_can {ticket : Ticket} (isOver : t.IsOver ticket) {j : Job} (mem : j ∈ t.jobs)
    (own : j.ticket = ticket) {deed : Deed} : ¬ j.can deed = true := by
  have hphase := isOver.2 j mem own
  cases deed <;> simp [Job.can, hphase]

theorem IsOver.after {ticket : Ticket} (isOver : t.IsOver ticket) (numbered : t.Numbered)
    (allowed : t.Allows m) : (t.after m).IsOver ticket := by
  obtain ⟨id, hstarted⟩ := isOver.1
  refine ⟨⟨id, ?_⟩, fun j mem hticket => ?_⟩
  · rw [started_after]
    cases m with
    | launch => exact List.mem_append_left _ hstarted
    | _ => exact hstarted
  · cases numbered.comes allowed mem with
    | starts => exact absurd (hticket ▸ hstarted) (numbered.not_started allowed.2)
    | stays old => exact isOver.2 j old hticket
    | goes old can => exact absurd can (isOver.not_can old hticket)
    | @isCalledOff j _ old => exact isOver.2 j old hticket

/-- What has happened is not forgotten. -/
theorem Leads.log {t' : Traffic} (h : t.Leads t') : ∃ deeds, t'.log = t.log ++ deeds := by
  obtain ⟨moves, rfl⟩ := h
  refine perform_induct (P := fun t' => ∃ deeds, t'.log = t.log ++ deeds) ?_
    ⟨[], (List.append_nil _).symm⟩ moves
  rintro t' m ⟨deeds, hlog⟩ -
  cases m with
  | job id n deed => exact ⟨deeds ++ [(n, deed)], by simp [Traffic.after, hlog]⟩
  | _ => exact ⟨deeds, hlog⟩

/-- Nothing happens any more to refreshes that are over. -/
theorem Numbered.quiet (numbered : t.Numbered) {tickets : List Ticket}
    (isOver : ∀ ticket ∈ tickets, t.IsOver ticket) (moves : List Move) :
    ∃ deeds, (t.perform moves).log = t.log ++ deeds ∧
      ∀ ticket ∈ tickets, ∀ deed, (ticket, deed) ∉ deeds := by
  refine (perform_induct (P := fun t' => t'.Numbered ∧ (∀ ticket ∈ tickets, t'.IsOver ticket) ∧
    ∃ deeds, t'.log = t.log ++ deeds ∧ ∀ ticket ∈ tickets, ∀ deed, (ticket, deed) ∉ deeds) ?_
    ⟨numbered, isOver, [], (List.append_nil _).symm, fun _ _ _ => List.not_mem_nil⟩ moves).2.2
  rintro t' m ⟨hnumbered, hover, deeds, hlog, hquiet⟩ allowed
  refine ⟨hnumbered.after allowed, fun ticket hticket =>
    (hover ticket hticket).after hnumbered allowed, ?_⟩
  cases m with
  | job id n deed =>
    refine ⟨deeds ++ [(n, deed)], by simp [Traffic.after, hlog],
      fun ticket hticket deed' hdeed => ?_⟩
    rcases List.mem_append.mp hdeed with hold | hnew
    · exact hquiet ticket hticket deed' hold
    · obtain ⟨rfl, rfl⟩ := Prod.mk.inj (List.mem_singleton.mp hnew)
      obtain ⟨-, j, hj, hname, hcan⟩ := allowed
      obtain ⟨rfl, rfl⟩ := Prod.mk.inj hname
      exact (hover _ hticket).not_can hj rfl hcan
  | _ => exact ⟨deeds, hlog, hquiet⟩

/-- What is known of refreshes that have ended or have been called off. -/
structure Watched (t : Traffic) : Prop where
  finished : ∀ ticket, t.HasFinished ticket → t.IsOver ticket
  /-- A refresh has ended for one of three reasons. -/
  ended : ∀ j ∈ t.jobs, j.phase = .ended →
    t.HasFinished j.ticket ∨ t.HasBrokenDown j.ticket ∨ t.IsTaken j.id j.ticket
  calledOff : ∀ j ∈ t.jobs, j.calledOff = true → t.IsTaken j.id j.ticket
  fewer : ∀ c ∈ t.settlings, ∀ ticket ∈ c.left, ticket ∈ c.took
  /-- A call waits for all refreshes that it has taken. -/
  left : ∀ c ∈ t.settlings, ∀ ticket ∈ c.took, ticket ∈ c.left ∨ t.IsOver ticket

namespace Watched

theorem finished_after (h : t.Watched) (numbered : t.Numbered) (allowed : t.Allows m)
    {ticket : Ticket} (finished : (t.after m).HasFinished ticket) : (t.after m).IsOver ticket := by
  rcases (t.hasFinished_after m ticket).mp finished with hold | ⟨id, rfl⟩
  · exact (h.finished ticket hold).after numbered allowed
  · refine ⟨⟨id, ?_⟩, fun j mem hticket => ?_⟩
    · obtain ⟨-, i, hi, hname, -⟩ := allowed
      rw [started_after]
      exact List.mem_map.mpr ⟨i, hi, hname⟩
    · rcases Job.mem_amend mem with ⟨i, -, -, rfl⟩ | ⟨-, hother⟩
      · rfl
      · exact absurd hticket hother

theorem calledOff_after (h : t.Watched) (numbered : t.Numbered) (booked : t.Booked)
    (allowed : t.Allows m) {j : Job} (mem : j ∈ (t.after m).jobs) (off : j.calledOff = true) :
    (t.after m).IsTaken j.id j.ticket := by
  refine (t.isTaken_after m _ _).mpr (.inl ?_)
  cases numbered.comes allowed mem with
  | starts => cases off
  | stays old => exact h.calledOff j old off
  | @goes j deed old => exact h.calledOff j old off
  | @isCalledOff j key old waits =>
    obtain ⟨c, hc, -, hhead⟩ := waits
    have htook := h.fewer c hc j.ticket (List.mem_of_mem_head? hhead)
    have hid := numbered.eq_of_started (booked.taken c.id j.ticket ⟨c, hc, rfl, htook⟩)
      (List.mem_map.mpr ⟨j, old, rfl⟩)
    exact ⟨c, hc, hid, htook⟩

theorem ended_after (h : t.Watched) (numbered : t.Numbered) (allowed : t.Allows m) {j : Job}
    (mem : j ∈ (t.after m).jobs) (ended : j.phase = .ended) :
    (t.after m).HasFinished j.ticket ∨ (t.after m).HasBrokenDown j.ticket ∨
      (t.after m).IsTaken j.id j.ticket := by
  have hkept {i : Job} (hi : i ∈ t.jobs) (hover : i.phase = .ended) :
      (t.after m).HasFinished i.ticket ∨ (t.after m).HasBrokenDown i.ticket ∨
        (t.after m).IsTaken i.id i.ticket :=
    (h.ended i hi hover).imp (mem_log_after m) (.imp (mem_log_after m) fun htaken =>
      (t.isTaken_after m _ _).mpr (.inl htaken))
  cases numbered.comes allowed mem with
  | starts => cases ended
  | stays old => exact hkept old ended
  | @goes j deed old can =>
    have hlast : (j.ticket, deed) ∈ (t.after (.job j.id j.ticket deed)).log :=
      List.mem_append_right _ List.mem_cons_self
    cases deed with
    | finish => exact .inl hlast
    | breakDown => exact .inr (.inl hlast)
    | drop =>
      -- only those are given up that someone has taken and called off
      have hoff : j.calledOff = true := by
        simp only [Job.can, Bool.and_eq_true] at can
        exact can.2
      exact .inr (.inr ((t.isTaken_after _ _ _).mpr (.inl (h.calledOff j old hoff))))
    | _ => cases ended
  | @isCalledOff j key old => exact hkept (i := j) old ended

theorem left_after (h : t.Watched) (numbered : t.Numbered) (allowed : t.Allows m) {c : Settling}
    (mem : c ∈ (t.after m).settlings) :
    (∀ ticket ∈ c.left, ticket ∈ c.took) ∧
      ∀ ticket ∈ c.took, ticket ∈ c.left ∨ (t.after m).IsOver ticket := by
  have hkept {d : Settling} (hd : d ∈ t.settlings) : (∀ ticket ∈ d.left, ticket ∈ d.took) ∧
      ∀ ticket ∈ d.took, ticket ∈ d.left ∨ (t.after m).IsOver ticket :=
    ⟨h.fewer d hd, fun ticket hticket =>
      (h.left d hd ticket hticket).imp_right fun hover => hover.after numbered allowed⟩
  cases m with
  | settle key id =>
    rcases List.mem_append.mp mem with hold | hnew
    · exact hkept hold
    · obtain rfl := List.mem_singleton.mp hnew
      exact ⟨fun _ hticket => hticket, fun _ => .inl⟩
  | pass key n =>
    obtain ⟨d, hd, rfl⟩ := List.mem_map.mp mem
    split
    · obtain ⟨hfewer, hleft⟩ := hkept hd
      refine ⟨fun ticket hticket => hfewer ticket (List.mem_of_mem_erase hticket),
        fun ticket hticket => ?_⟩
      by_cases hn : ticket = n
      · -- what is crossed off is over
        subst hn
        obtain ⟨-, j, hj, rfl, hover, -⟩ := allowed
        refine .inr ⟨⟨j.id, List.mem_map.mpr ⟨j, hj, rfl⟩⟩, fun i hi hticket => ?_⟩
        rw [numbered.eq_of_ticket hi hj hticket, hover]
      · exact (hleft ticket hticket).imp_left (List.mem_erase_of_ne hn).mpr
    · exact hkept hd
  | _ => exact hkept mem

theorem after (h : t.Watched) (numbered : t.Numbered) (booked : t.Booked)
    (allowed : t.Allows m) : (t.after m).Watched where
  finished := fun _ => h.finished_after numbered allowed
  ended := fun _ => h.ended_after numbered allowed
  calledOff := fun _ => h.calledOff_after numbered booked allowed
  fewer := fun _ hc => (h.left_after numbered allowed hc).1
  left := fun _ hc => (h.left_after numbered allowed hc).2

end Watched

/-! ## Any moves -/

/-- What every move keeps. -/
structure InOrder (t : Traffic) : Prop where
  numbered : t.Numbered
  booked : t.Booked
  watched : t.Watched

theorem inOrder_opening (first : Ticket) : (opening first).InOrder where
  numbered := ⟨List.nodup_nil, fun _ he => absurd he List.not_mem_nil⟩
  booked := {
    entering := by rintro _ _ ⟨⟩
    listed := fun id ticket => by simp [opening, RefreshTracker.pending, HasEntered, started]
    once := fun id => by simp [opening, RefreshTracker.pending]
    filled := fun id => by simp [opening]
    taken := by simp [opening, IsTaken]
    logged := by simp [opening] }
  watched := {
    finished := by simp [opening, HasFinished]
    ended := by simp [opening]
    calledOff := by simp [opening]
    fewer := by simp [opening]
    left := by simp [opening] }

theorem InOrder.leads {t' : Traffic} (h : t.InOrder) (run : t.Leads t') : t'.InOrder := by
  obtain ⟨moves, rfl⟩ := run
  exact perform_induct (fun _ _ h allowed => ⟨h.numbered.after allowed,
    h.booked.after h.numbered allowed, h.watched.after h.numbered h.booked allowed⟩) h moves

/-- The tracker knows exactly the refreshes in flight, and forgets none of them. -/
structure IsExact (t : Traffic) : Prop where
  /-- On the list of a record are the refreshes that have been put on it, have not taken themselves
  off it and have not been taken off it. -/
  listed : ∀ id ticket, ticket ∈ t.tracker.pending id ↔
    t.HasEntered id ticket ∧ ¬ t.HasFinished ticket ∧ ¬ t.IsTaken id ticket
  /-- They are on it once. -/
  once : ∀ id, (t.tracker.pending id).Nodup
  /-- All refreshes have different numbers. -/
  distinct : (t.started.map (·.2)).Nodup
  filled : ∀ id, t.tracker.slots.get? id ≠ some []
  /-- Of the refreshes that nobody has taken off the list, those are on it that have not ended. -/
  inFlight : ∀ id ticket, t.HasEntered id ticket → ¬ t.IsTaken id ticket →
    ¬ t.HasBrokenDown ticket → (ticket ∈ t.tracker.pending id ↔ t.IsInFlight ticket)
  /-- A refresh takes at most itself off its list. -/
  finishes : ∀ id ticket, t.Allows (.job id ticket .finish) → ∀ key,
    (t.after (.job id ticket .finish)).tracker.pending key =
      if key = id then (t.tracker.pending id).erase ticket else t.tracker.pending key
  /-- A call that settles a record leaves the lists of the others as they are. -/
  settles : ∀ id m, t.IsOfSettling id m → ∀ other, other ≠ id →
    (t.move m).tracker.slots.get? other = t.tracker.slots.get? other
  /-- What a call had taken before it returned does nothing any more. -/
  returned : ∀ c ∈ t.settlings, c.left = [] → ∀ moves, ∃ deeds,
    (t.perform moves).log = t.log ++ deeds ∧
      ∀ ticket ∈ c.took, ∀ deed, (ticket, deed) ∉ deeds

theorem InOrder.isExact (h : t.InOrder) : t.IsExact where
  listed := h.booked.listed
  once := h.booked.once
  distinct := h.numbered.distinct.sublist ((List.sublist_append_right t.drawn t.started).map _)
  filled := h.booked.filled
  inFlight := fun id ticket entered untaken unbroken => by
    rw [h.booked.listed]
    constructor
    · rintro ⟨-, hunfinished, -⟩
      obtain ⟨j, hj, hname⟩ := List.mem_map.mp entered.1
      obtain ⟨rfl, rfl⟩ := Prod.mk.inj hname
      refine ⟨j, hj, rfl, fun hover => ?_⟩
      rcases h.watched.ended j hj hover with hfinished | hbroken | htaken
      · exact hunfinished hfinished
      · exact unbroken hbroken
      · exact untaken htaken
    · rintro ⟨j, hj, rfl, hrunning⟩
      exact ⟨entered, fun hfinished => hrunning ((h.watched.finished _ hfinished).2 j hj rfl),
        untaken⟩
  finishes := fun id ticket allowed key => by
    show (t.tracker.finish id ticket).pending key = _
    rw [RefreshTracker.pending_finish, (h.booked.once id).erase_eq_filter]
    simp only [bne, Bool.beq_eq_decide_eq, decide_not]
  settles := fun id m own other hother => by
    unfold move
    split
    · cases m with
      | settle key id' =>
        obtain rfl : id' = id := own
        simp [Traffic.after, RefreshTracker.take, hother]
      | callOff => rfl
      | pass => rfl
      | _ => exact own.elim
    · rfl
  returned := fun c hc hleft moves => by
    refine h.numbered.quiet (fun ticket hticket => ?_) moves
    rcases h.watched.left c hc ticket hticket with hwaits | hover
    · rw [hleft] at hwaits
      cases hwaits
    · exact hover

end Traffic

end CacheAside
