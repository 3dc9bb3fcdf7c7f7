import CacheAside.Proofs.Interleaving.Ending

/-!
# The life of a record

An identifier that is used once lives once: there is no record of it, then one that is created, then
whatever the updates make of it, and after its deletion there is none for good
(`Scene.Reaches.hasLife`).  An update that comes to the store after that is refused, even if it has
read the record before, and of the deletions that come to the store while there is a record the
first one ends well and the others are refused (`Scene.lives_once`).
-/

namespace CacheAside.Simulation

/-! ## Lives -/

/-- How far the life of a record has come. -/
inductive Life where
  | absent
  | present (r : Record)
  | gone
  deriving DecidableEq, Repr

namespace Life

/-- What the store answers about the record. -/
def found (id : RecordId) : Life → Except StoreError Record
  | .present r => .ok r
  | _ => .error (.notFound id)

/-- What becomes of a life by a change, if such a change can come then. -/
def next : Life → DomainEvent → Option Life
  | .absent, .created r => some (.present r)
  | .present _, .updated r => some (.present r)
  | .present _, .deleted _ => some .gone
  | _, _ => none

variable {life life' : Life} {changes : List DomainEvent} {id : RecordId}

/-- Nothing comes after the end. -/
theorem eq_nil_of_gone (h : changes.foldlM next .gone = some life') :
    changes = [] ∧ life' = .gone := by
  cases changes with
  | nil =>
    cases h
    exact ⟨rfl, rfl⟩
  | cons change changes => cases h

/-- A life ends with a deletion. -/
theorem deleted_of_gone (h : changes.foldlM next life = some .gone) :
    life = .gone ∨ ∃ key, .deleted key ∈ changes := by
  induction changes generalizing life with
  | nil =>
    cases h
    exact .inl rfl
  | cons change changes ih =>
    rw [List.foldlM_cons, Option.bind_eq_bind, Option.bind_eq_some_iff] at h
    obtain ⟨life', hnext, hrest⟩ := h
    rcases ih hrest with rfl | ⟨key, hkey⟩
    · cases life with
      | absent => cases change <;> cases hnext
      | gone => cases hnext
      | present r =>
        cases change with
        | deleted key => exact .inr ⟨key, List.mem_cons_self⟩
        | created r => cases hnext
        | updated r => cases hnext
    · exact .inr ⟨key, List.mem_cons_of_mem _ hkey⟩

/-- A deletion is the end of a life. -/
theorem gone_of_deleted {key : RecordId} (h : changes.foldlM next life = some life')
    (deleted : .deleted key ∈ changes) : life' = .gone := by
  induction changes generalizing life with
  | nil => cases deleted
  | cons change changes ih =>
    rw [List.foldlM_cons, Option.bind_eq_bind, Option.bind_eq_some_iff] at h
    obtain ⟨between, hnext, hrest⟩ := h
    rcases List.mem_cons.mp deleted with rfl | hlater
    · obtain rfl : between = .gone := by
        cases life <;> cases hnext
        rfl
      exact (eq_nil_of_gone hrest).2
    · exact ih hrest hlater

end Life

namespace Scene

variable {s₀ s s' : Scene} {acts before during : List Act} {id : RecordId} {life : Life}

/-- The changes that the store has made of the record. -/
def changesOf (s : Scene) (id : RecordId) : List DomainEvent :=
  s.changes.filter (·.recordId = id)

/-- How far the life of a record has come when nothing has been asked yet. -/
def firstLife (s₀ : Scene) (id : RecordId) : Life :=
  match s₀.world.backend.store.find id with
  | .ok r => .present r
  | .error _ => .absent

/-- The changes make a life of the record, and the store answers accordingly. -/
structure HasLife (s₀ s : Scene) (id : RecordId) (life : Life) : Prop where
  lived : (s.changesOf id).foldlM Life.next (s₀.firstLife id) = some life
  found : s.world.backend.store.find id = life.found id

namespace HasLife

theorem deleted_of_gone (h : s₀.HasLife s id .gone) : .deleted id ∈ s.changes := by
  rcases Life.deleted_of_gone h.lived with hfirst | ⟨key, hkey⟩
  · unfold firstLife at hfirst
    split at hfirst <;> cases hfirst
  · obtain ⟨hmem, hid⟩ := List.mem_filter.mp hkey
    obtain rfl : key = id := of_decide_eq_true hid
    exact hmem

theorem gone_of_deleted (h : s₀.HasLife s id life) (deleted : .deleted id ∈ s.changes) :
    life = .gone :=
  Life.gone_of_deleted h.lived (List.mem_filter.mpr ⟨deleted, by simp [DomainEvent.recordId]⟩)

/-- The store holds a record only while it lives. -/
theorem present_of_found (h : s₀.HasLife s id life) {r : Record}
    (found : s.world.backend.store.find id = .ok r) : life = .present r := by
  have hsame := h.found.symm.trans found
  cases life with
  | present x =>
    cases hsame
    rfl
  | absent => cases hsame
  | gone => cases hsame

/-- A change of the record that the store makes can come then. -/
theorem fits (h : s₀.HasLife s id life) (storied : Storied s₀ s) (once : s₀.UsesOnce s id)
    {change : DomainEvent} (commits : Commits s s' (some change)) (own : id = change.recordId) :
    ∃ life', life.next change = some life' ∧ life'.found id = change.found := by
  cases change with
  | created r =>
    obtain ⟨t, ht, c, hrequest, hcid, hmay, -⟩ := storied.creator commits rfl
    have hbarred (held : s.HasHeld id) : False :=
      storied.barred once held ht hrequest (hcid.trans own.symm) hmay
    cases life with
    | absent => exact ⟨_, rfl, rfl⟩
    | present x => exact (hbarred (.inl ⟨x, h.found⟩)).elim
    | gone => exact (hbarred (.inr h.deleted_of_gone)).elim
  | updated r =>
    obtain ⟨old, hold⟩ := commits.updated rfl
    have hid : id = r.id := own
    obtain rfl := h.present_of_found (hid ▸ hold)
    exact ⟨_, rfl, rfl⟩
  | deleted key =>
    obtain rfl : id = key := own
    obtain ⟨old, hold⟩ := commits.found id rfl
    obtain rfl := h.present_of_found hold
    exact ⟨_, rfl, rfl⟩

/-- A step takes a life one step further, or leaves it as it is. -/
theorem step (h : s₀.HasLife s id life) (storied : Storied s₀ s) (once : s₀.UsesOnce s id)
    (step : Step s s') : ∃ life', s₀.HasLife s' id life' := by
  obtain ⟨made, hcommits⟩ := step.commits
  have hfind := hcommits.find id
  cases made with
  | none =>
    refine ⟨life, ?_, hfind.trans h.found⟩
    rw [changesOf, hcommits.changes, Option.toList_none, List.append_nil]
    exact h.lived
  | some change =>
    simp only [Option.elim_some] at hfind
    by_cases own : id = change.recordId
    · obtain ⟨life', hnext, hfound⟩ := h.fits storied once hcommits own
      have hchanges : s'.changesOf id = s.changesOf id ++ [change] := by
        simp [changesOf, hcommits.changes, own]
      refine ⟨life', ?_, ?_⟩
      · rw [hchanges, List.foldlM_append, h.lived]
        simpa using hnext
      · rw [hfind, if_pos own, hfound]
    · have hother : change.recordId ≠ id := Ne.symm own
      have hchanges : s'.changesOf id = s.changesOf id := by
        simp [changesOf, hcommits.changes, hother]
      refine ⟨life, ?_, ?_⟩
      · rw [hchanges]
        exact h.lived
      · rw [hfind, if_neg own, h.found]

end HasLife

/-- Before anything has been asked, a record has been there from the beginning or is absent. -/
theorem hasLife_first (fresh : s₀.IsFresh) : s₀.HasLife s₀ id (s₀.firstLife id) := by
  refine ⟨?_, ?_⟩
  · rw [changesOf, fresh.changes]
    rfl
  · unfold firstLife
    split
    · assumption
    · rename_i e hfind
      obtain ⟨-, rfl⟩ := Store.find_eq_error.mp hfind
      exact hfind

/-- In any interleaving an identifier that is used once lives once. -/
theorem Reaches.hasLife {allowed : Scene → Scene → Prop} (fresh : s₀.IsFresh)
    (run : Reaches allowed s₀ s) (once : s₀.UsesOnce s id) : ∃ life, s₀.HasLife s id life := by
  have hinit : Storied s₀ s₀ ∧ (s₀.UsesOnce s₀ id → ∃ life, s₀.HasLife s₀ id life) := by
    have still : Reaches allowed s₀ s₀ := .refl
    exact ⟨still.storied fresh, fun _ => ⟨_, hasLife_first fresh⟩⟩
  have hkept := run.induct
    (P := fun s => Storied s₀ s ∧ (s₀.UsesOnce s id → ∃ life, s₀.HasLife s id life)) hinit
    fun s a h _ => by
      have hstep := s.step_act a
      refine ⟨h.1.step hstep, fun once => ?_⟩
      have honce := once.of_more hstep.asked_kept
      obtain ⟨life, hlife⟩ := h.2 honce
      exact hlife.step h.1 honce hstep
  exact hkept.2 once

theorem changes_perform (s : Scene) (acts : List Act) : s.changes <+: (s.perform acts).changes := by
  induction acts generalizing s with
  | nil => exact List.prefix_refl _
  | cons a acts ih =>
    obtain ⟨made, hcommits⟩ := (s.step_act a).commits
    have hfirst : s.changes <+: (s.act a).changes := ⟨made.toList, hcommits.changes.symm⟩
    exact hfirst.trans (ih (s.act a))

theorem changesOf_prefix (s : Scene) (id : RecordId) (acts : List Act) :
    s.changesOf id <+: (s.perform acts).changesOf id :=
  (s.changes_perform acts).filter _

/-- What is used once in a run is used once in its parts. -/
theorem UsesOnce.of_part (once : s₀.UsesOnce (s₀.perform acts) id) (part : before <+: acts) :
    s₀.UsesOnce (s₀.perform before) id := by
  obtain ⟨rest, rfl⟩ := part
  rw [perform_append] at once
  exact once.of_more (asked_perform _ rest)

/-- After its deletion nothing happens to a record any more. -/
theorem gone_for_good (fresh : s₀.IsFresh) (once : s₀.UsesOnce (s₀.perform acts) id)
    (part : before <+: acts) (deleted : .deleted id ∈ (s₀.perform before).changes) :
    (s₀.perform acts).changesOf id = (s₀.perform before).changesOf id ∧
      (s₀.perform acts).world.backend.store.find id = .error (.notFound id) := by
  obtain ⟨life, hlife⟩ := (runs_perform s₀ before).hasLife fresh (once.of_part part)
  obtain ⟨life', hlife'⟩ := (runs_perform s₀ acts).hasLife fresh once
  obtain ⟨rest, rfl⟩ := part
  rw [perform_append] at hlife' ⊢
  obtain rfl := hlife.gone_of_deleted deleted
  obtain ⟨more, hmore⟩ := changesOf_prefix (s₀.perform before) id rest
  have hlived := hlife'.lived
  rw [← hmore, List.foldlM_append, hlife.lived] at hlived
  obtain ⟨rfl, rfl⟩ := Life.eq_nil_of_gone hlived
  exact ⟨by rw [← hmore, List.append_nil], hlife'.found⟩

/-! ## Requests that come too late -/

/-- A request that finds no record where it is to change or remove one is refused. -/
theorem refused_of_effect {a : Act} {key : Nat} {call : PortCall}
    (h : s.effect? a = some (.request key, call))
    (comes : call = .remove id ∨ ∃ new, new.id = id ∧ call = .replace new)
    (missing : s.world.backend.store.find id = .error (.notFound id))
    (atomic : s.StoreIsAtomic (s.act a)) (waiting : ∀ t ∈ s.threads, t.point.IsAtomic) :
    ∃ t ∈ s.threads, t.key = key ∧ ¬ t.point.IsPastAsking ∧
      t.goTo (.finished (.error (.notFound id))) ∈ (s.act a).threads := by
  have hcomes : call.port.isStore = true ∧ call.isTelling = false := by
    rcases comes with rfl | ⟨new, -, rfl⟩ <;> exact ⟨rfl, rfl⟩
  obtain ⟨t, mem, ask, g, hparty, hpoint, rfl, hanswer⟩ :=
    answered_of_effect h hcomes.1 atomic waiting
  refine ⟨t, mem, (Party.request.inj hparty).symm, ?_, ?_⟩
  · rw [hpoint]
    show ¬ ask.call.isTelling = true
    rw [hcomes.2]
    exact Bool.false_ne_true
  · rcases comes with hremove | ⟨new, hid, hreplace⟩
    · cases ask <;> cases hremove
      have hreply : (s.world.servedNow (.remove id)).reply = some (.error (.notFound id)) := by
        rw [World.servedNow, Backend.reply_remove, missing]
        rfl
      obtain ⟨w, hmem⟩ := hanswer _ hreply
      exact hmem
    · cases ask <;> cases hreplace
      have hreply : (s.world.servedNow (.replace new)).reply = some (.error (.notFound id)) := by
        rw [← hid] at missing ⊢
        exact Backend.reply_replace missing
      obtain ⟨w, hmem⟩ := hanswer _ hreply
      exact hmem

/-- A deletion that finds the record removes it. -/
theorem removed_of_effect {a : Act} {key : Nat} (h : s.effect? a = some (.request key, .remove id))
    {r : Record} (found : s.world.backend.store.find id = .ok r)
    (atomic : s.StoreIsAtomic (s.act a)) (waiting : ∀ t ∈ s.threads, t.point.IsAtomic) :
    ∃ t ∈ s.threads, t.key = key ∧ t.point.isFinished = false ∧
      ∃ tickets, t.goTo (.settling (.deleted id) tickets) ∈ (s.act a).threads := by
  obtain ⟨t, mem, ask, g, hparty, hpoint, hcall, hanswer⟩ := answered_of_effect h rfl atomic waiting
  refine ⟨t, mem, (Party.request.inj hparty).symm, by rw [hpoint]; rfl, ?_⟩
  cases ask <;> cases hcall
  have hreply : (s.world.servedNow (.remove id)).reply = some (.ok ()) := by
    rw [World.servedNow, Backend.reply_remove, found]
    rfl
  obtain ⟨w, hmem⟩ := hanswer _ hreply
  exact ⟨_, hmem⟩

/-- The request learns that there is no record.  It tells neither the cache nor the event bus
anything. -/
structure IsRefused (s₀ : Scene) (acts : List Act) (key : Nat) (id : RecordId) : Prop where
  returns : ∀ outcome, s₀.Returns acts key outcome ↔ outcome = .error (.notFound id)
  silent : ∀ call, (.request key, call) ∈ s₀.effects acts → call.isTelling = false

/-- In any run a request that comes to an atomic store too late is refused. -/
theorem isRefused (fresh : s₀.IsFresh) (atomic : s₀.Allows StoreIsAtomic acts) {a : Act} {key : Nat}
    {call : PortCall} (part : before ++ [a] <+: acts)
    (h : (s₀.perform before).effect? a = some (.request key, call))
    (comes : call = .remove id ∨ ∃ new, new.id = id ∧ call = .replace new)
    (missing : (s₀.perform before).world.backend.store.find id = .error (.notFound id)) :
    s₀.IsRefused acts key id := by
  obtain ⟨hbefore, hact⟩ := atomic.split part
  obtain ⟨t, mem, rfl, hasking, hended⟩ :=
    refused_of_effect h comes missing hact ((reaches_perform hbefore).isAtomic fresh)
  rw [← perform_concat] at hended
  -- before the act it was still asking, and since then it has been at its end
  have hearlier {moment : List Act} {u : Thread} (hmoment : moment <+: before)
      (hu : u ∈ (s₀.perform moment).threads) (hkey : u.key = t.key) : ¬ u.point.IsPastAsking :=
    fun past => hasking (later_of_kept fresh lasting_isPastAsking hu past hmoment t mem hkey.symm)
  have hlater {moment : List Act} {u : Thread} (hmoment : before ++ [a] <+: moment)
      (hu : u ∈ (s₀.perform moment).threads) (hkey : u.key = t.key) :
      u.point = .finished (.error (.notFound id)) :=
    later_of_kept fresh (lasting_finished _) hended rfl hmoment u hu hkey
  have hreturns : s₀.Returns acts t.key (.error (.notFound id)) :=
    ⟨before ++ [a], part, _, hended, rfl, rfl⟩
  refine ⟨fun outcome => ⟨fun h => h.unique hreturns fresh, ?_⟩, fun other heffect => ?_⟩
  · rintro rfl
    exact hreturns
  · obtain ⟨moment, b, hpart, heffect⟩ := mem_effects.mp heffect
    have hmoment : moment <+: acts := (List.prefix_append moment [b]).trans hpart
    cases htelling : other.isTelling with
    | false => rfl
    | true =>
      obtain ⟨u, hu, hkey, hunfinished, hpast⟩ := isPastAsking_of_effect heffect htelling
      rcases before_or_after hmoment part with hbefore | hafter
      · exact absurd hpast (hearlier hbefore hu hkey)
      · rw [hlater hafter hu hkey] at hunfinished
        cases hunfinished

/-! ## The deletion that counts -/

/-- The request returns nothing but success.  It is under way until its caller leaves, and comes to
its end unless it waits for a call that never gets any further. -/
structure Wins (s₀ : Scene) (acts : List Act) (key : Nat) : Prop where
  returns : ∀ outcome, s₀.Returns acts key outcome → outcome = .ok .done
  remains : .leave key ∉ acts → ∃ t ∈ (s₀.perform acts).threads, t.key = key
  ends : ∀ t ∈ (s₀.perform acts).threads, t.key = key → t.point.isHung = false →
    (s₀.perform acts).Leads fun s => ∃ u ∈ s.threads, u.key = key ∧ u.point = .finished (.ok .done)

/-- In any run a deletion that has had the record removed wins. -/
theorem wins (fresh : s₀.IsFresh) (atomic : s₀.Allows StoreIsAtomic acts) {a : Act} {key : Nat}
    (part : before ++ [a] <+: acts)
    (h : (s₀.perform before).effect? a = some (.request key, .remove id)) {r : Record}
    (found : (s₀.perform before).world.backend.store.find id = .ok r) : s₀.Wins acts key := by
  obtain ⟨hbefore, hact⟩ := atomic.split part
  obtain ⟨t, mem, rfl, hunfinished, tickets, hremoved⟩ :=
    removed_of_effect h found hact ((reaches_perform hbefore).isAtomic fresh)
  rw [← perform_concat] at hremoved
  have hlater {moment : List Act} {u : Thread} (hmoment : before ++ [a] <+: moment)
      (hu : u ∈ (s₀.perform moment).threads) (hkey : u.key = t.key) : u.point.HasRemoved id :=
    later_of_kept fresh (lasting_hasRemoved id) hremoved rfl hmoment u hu hkey
  refine ⟨?_, fun stays => ?_, fun u hu hkey going => ?_⟩
  · rintro outcome ⟨moment, hmoment, u, hu, hkey, houtcome⟩
    rcases before_or_after hmoment part with hearlier | hafter
    · have hstill := later_of_kept fresh (lasting_finished outcome) hu houtcome hearlier t mem
        hkey.symm
      rw [hstill] at hunfinished
      cases hunfinished
    · have hdone := hlater hafter hu hkey
      rw [houtcome] at hdone
      exact hdone
  · obtain ⟨rest, rfl⟩ := part
    have hnumbered := (runs_perform s₀ (before ++ [a])).numbered fresh
    have hknown := hnumbered.key_lt hremoved
    rw [perform_append]
    refine remains (lasting_hasRemoved id) (firm_hasRemoved id) hknown
      (fun u hu hkey => hlater (List.prefix_refl _) hu hkey) ⟨_, hremoved, rfl⟩ ?_
    exact fun hleave => stays (List.mem_append_right _ hleave)
  · have hnumbered := (runs_perform s₀ acts).numbered fresh
    have hleads := leads_of_hasRemoved hnumbered hu (hlater part hu hkey) going
    rwa [hkey] at hleads

/-- The request that has the record removed by an effect, or tries to. -/
def removal? (id : RecordId) : Party × PortCall → Option Nat
  | (.request key, .remove other) => if other = id then some key else none
  | _ => none

/-- The requests that had the record removed, or tried to, in the order in which the store was
asked. -/
def removals (s : Scene) (id : RecordId) (acts : List Act) : List Nat :=
  (s.effects acts).filterMap (removal? id)

theorem removal?_eq_some {effect : Party × PortCall} {key : Nat} :
    removal? id effect = some key ↔ effect = (.request key, .remove id) := by
  obtain ⟨party, call⟩ := effect
  cases party <;> cases call <;> simp [removal?, and_comm, eq_comm]

theorem mem_removals {key : Nat} :
    key ∈ s.removals id acts ↔ (.request key, .remove id) ∈ s.effects acts := by
  simp [removals, removal?_eq_some]

/-- As long as no deletion comes to the store, a record that is found is found. -/
theorem found_act {a : Act} {r : Record} (found : s.world.backend.store.find id = .ok r)
    (kept : (s.effect? a).bind (removal? id) = none) :
    ∃ r', (s.act a).world.backend.store.find id = .ok r' := by
  cases heffect : s.effect? a with
  | none =>
    rw [backend_act_of_none heffect]
    exact ⟨r, found⟩
  | some effect =>
    obtain ⟨party, call⟩ := effect
    rw [backend_act heffect, World.find_servedNow]
    cases hmade : (s.world.servedNow call).reply.bind call.change? with
    | none => exact ⟨r, found⟩
    | some change =>
      simp only [Option.elim_some]
      split
      · rename_i hid
        cases change with
        | created x => exact ⟨x, rfl⟩
        | updated x => exact ⟨x, rfl⟩
        | deleted key =>
          obtain rfl : id = key := hid
          obtain ⟨reply, -, hchange⟩ := Option.bind_eq_some_iff.mp hmade
          obtain rfl : call = .remove id := by
            cases call with
            | remove key => cases reply <;> cases hchange; rfl
            | insert x => cases reply <;> cases hchange
            | replace x => cases reply <;> cases hchange
            | _ => cases hchange
          obtain ⟨t, -, -, -, -, -, -, rfl, -⟩ := asking_of_effect heffect rfl
          rw [heffect] at kept
          simp [removal?] at kept
      · exact ⟨r, found⟩

theorem removals_cons (s : Scene) (id : RecordId) (a : Act) (acts : List Act) :
    s.removals id (a :: acts) =
      ((s.effect? a).bind (removal? id)).toList ++ (s.act a).removals id acts := by
  cases heffect : s.effect? a with
  | none => simp [removals, effects, collect, heffect]
  | some effect =>
    cases hremoval : removal? id effect <;>
      simp [removals, effects, collect, heffect, hremoval]

/-- A deletion that comes to the store after another one is refused. -/
theorem isRefused_of_removal (fresh : s₀.IsFresh) (once : s₀.UsesOnce (s₀.perform acts) id)
    (atomic : s₀.Allows StoreIsAtomic acts) (part : before ++ during <+: acts)
    (deleted : .deleted id ∈ (s₀.perform before).changes) {key : Nat}
    (mem : key ∈ (s₀.perform before).removals id during) : s₀.IsRefused acts key id := by
  obtain ⟨moment, b, hmoment, hlate⟩ := mem_effects.mp (mem_removals.mp mem)
  rw [← perform_append] at hlate
  have hpart : before ++ moment ++ [b] <+: acts := by
    rw [List.append_assoc]
    exact ((List.prefix_append_right_inj before).mpr hmoment).trans part
  have honce := once.of_part ((List.prefix_append _ [b]).trans hpart)
  obtain ⟨-, hmissing⟩ := gone_for_good fresh honce (List.prefix_append before moment) deleted
  exact isRefused fresh atomic hpart hlate (.inl rfl) hmissing

/-- Of the deletions that come to an atomic store from a moment on at which it holds the record, the
first one wins and the others are refused. -/
theorem removals_of_found (fresh : s₀.IsFresh) (once : s₀.UsesOnce (s₀.perform acts) id)
    (atomic : s₀.Allows StoreIsAtomic acts) (part : before ++ during <+: acts) {r : Record}
    (found : (s₀.perform before).world.backend.store.find id = .ok r) :
    (s₀.perform before).removals id during = [] ∨
      ∃ winner losers, (s₀.perform before).removals id during = winner :: losers ∧
        s₀.Wins acts winner ∧ ∀ key ∈ losers, s₀.IsRefused acts key id := by
  induction during generalizing before r with
  | nil => exact .inl rfl
  | cons a during ih =>
    rw [List.append_cons] at part
    have hpart : before ++ [a] <+: acts := (List.prefix_append _ during).trans part
    rw [removals_cons]
    cases hremoval : ((s₀.perform before).effect? a).bind (removal? id) with
    | none =>
      obtain ⟨r', hfound⟩ := found_act found hremoval
      rw [← perform_concat] at hfound ⊢
      exact ih part hfound
    | some winner =>
      obtain ⟨effect, heffect, hwinner⟩ := Option.bind_eq_some_iff.mp hremoval
      obtain rfl := removal?_eq_some.mp hwinner
      refine .inr ⟨winner, _, rfl, wins fresh atomic hpart heffect found, fun key hkey => ?_⟩
      -- the record has been removed when the others come to the store
      obtain ⟨hbefore, hact⟩ := atomic.split hpart
      obtain ⟨t, -, -, -, tickets, hremoved⟩ :=
        removed_of_effect heffect found hact ((reaches_perform hbefore).isAtomic fresh)
      rw [← perform_concat] at hremoved hkey
      have hdeleted : .deleted id ∈ (s₀.perform (before ++ [a])).changes :=
        ((runs_perform s₀ _).storied fresh).hasMade _ hremoved _ rfl
      exact isRefused_of_removal fresh once atomic part hdeleted hkey

/-! ## The whole life -/

/-- An identifier lives once, and whoever comes to the store after its end is refused. -/
structure LivesOnce (s₀ : Scene) (acts : List Act) (id : RecordId) : Prop where
  /-- The changes of the record make a life, and the store answers as its last stage says. -/
  lives : ∃ life, s₀.HasLife (s₀.perform acts) id life
  /-- After its deletion nothing happens to the record any more, and it is not found. -/
  gone : ∀ before, before <+: acts → .deleted id ∈ (s₀.perform before).changes →
    (s₀.perform acts).changesOf id = (s₀.perform before).changesOf id ∧
      (s₀.perform acts).world.backend.store.find id = .error (.notFound id)
  /-- An update that comes to the store after the deletion is refused, whatever it has read. -/
  late : ∀ before a key new, before ++ [a] <+: acts → .deleted id ∈ (s₀.perform before).changes →
    (s₀.perform before).effect? a = some (.request key, .replace new) → new.id = id →
      s₀.IsRefused acts key id
  /-- Of the deletions that come to the store from a moment on at which it holds the record, the
  first one wins and the others are refused. -/
  removed : ∀ before during r, before ++ during <+: acts →
    (s₀.perform before).world.backend.store.find id = .ok r →
      (s₀.perform before).removals id during = [] ∨
        ∃ winner losers, (s₀.perform before).removals id during = winner :: losers ∧
          s₀.Wins acts winner ∧ ∀ key ∈ losers, s₀.IsRefused acts key id

/-- In any interleaving of any requests over an atomic store, an identifier that is used once lives
once. -/
theorem lives_once (fresh : s₀.IsFresh) (once : s₀.UsesOnce (s₀.perform acts) id)
    (atomic : s₀.Allows StoreIsAtomic acts) : s₀.LivesOnce acts id where
  lives := (runs_perform s₀ acts).hasLife fresh once
  gone := fun _ part deleted => gone_for_good fresh once part deleted
  late := by
    intro before a key new part deleted heffect hid
    have honce := once.of_part ((List.prefix_append before [a]).trans part)
    obtain ⟨-, hmissing⟩ := gone_for_good fresh honce (List.prefix_refl before) deleted
    exact isRefused fresh atomic part heffect (.inr ⟨new, hid, rfl⟩) hmissing
  removed := fun _ _ _ part found => removals_of_found fresh once atomic part found

/-- A record is created and updated.  Two deletions and another update then wait for each other: the
update reads the record, the second deletion removes it, and the others come too late. -/
def wholeLife : List Act :=
  let id := oldRecord.id
  [.start {} (.create oldRecord), .look 0 .cache, .start {} (.update id relabeling), .look 1 .cache,
    .look 1 .cache, .start {} (.update id relabeling), .start {} (.delete id),
    .start {} (.delete id), .look 2 .cache, .look 4 .cache, .look 2 .cache, .look 3 .cache,
    .look 4 .cache, .look 4 .cache, .look 4 .bus, .look 4 .cache]

theorem lives_once_in_wholeLife :
    let id := oldRecord.id
    let s := withNothing.perform wholeLife
    withNothing.UsesOnce s id ∧ withNothing.Allows StoreIsAtomic wholeLife ∧
      s.changesOf id = [.created oldRecord, .updated newRecord, .deleted id] ∧
      withNothing.HasLife s id .gone ∧
      (withNothing.perform (wholeLife.take 2)).removals id (wholeLife.drop 2) = [4, 3] ∧
      withNothing.Returns wholeLife 4 (.ok .done) ∧ withNothing.Wins wholeLife 4 ∧
      withNothing.IsRefused wholeLife 3 id ∧ withNothing.IsRefused wholeLife 2 id := by
  intro id s
  have hnever : s.NeverRepeats := by
    unfold NeverRepeats
    decide
  have honce : withNothing.UsesOnce s id :=
    ⟨fun _ _ _ => Store.find_eq_error.mpr ⟨rfl, rfl⟩,
      fun i j c c' hi hj hc hc' => hnever.eq_of_id hi hj (hc.trans hc'.symm)⟩
  have hatomic : withNothing.Allows StoreIsAtomic wholeLife := by decide
  have hlives := lives_once isFresh_withNothing honce hatomic
  have hchanges : s.changes = [.created oldRecord, .updated newRecord, .deleted id] := by decide
  have hchangesOf : s.changesOf id = [.created oldRecord, .updated newRecord, .deleted id] := by
    decide
  have hremovals : (withNothing.perform (wholeLife.take 2)).removals id (wholeLife.drop 2) =
      [4, 3] := by decide
  obtain ⟨life, hlife⟩ := hlives.lives
  obtain rfl := hlife.gone_of_deleted (by rw [hchanges]; simp)
  obtain ⟨winner, losers, heq, hwins, hlosers⟩ :
      ∃ winner losers, [4, 3] = winner :: losers ∧ withNothing.Wins wholeLife winner ∧
        ∀ key ∈ losers, withNothing.IsRefused wholeLife key id := by
    have hremoved := hlives.removed (wholeLife.take 2) (wholeLife.drop 2) oldRecord
      (List.prefix_refl _) rfl
    rw [hremovals] at hremoved
    exact hremoved.resolve_left (List.cons_ne_nil _ _)
  obtain ⟨rfl, rfl⟩ := List.cons.inj heq
  have hlate : withNothing.IsRefused wholeLife 2 id :=
    hlives.late (wholeLife.take 10) (.look 2 .cache) 2 newRecord ⟨wholeLife.drop 11, rfl⟩
      (by decide) (by decide) rfl
  have hreturns : withNothing.Returns wholeLife 4 (.ok .done) :=
    ⟨wholeLife, List.prefix_refl _, _, List.mem_of_getElem? (i := 4) rfl, rfl, rfl⟩
  exact ⟨honce, hatomic, hchangesOf, hlife, hremovals, hreturns, hwins,
    hlosers 3 List.mem_cons_self, hlate⟩

end Scene

end CacheAside.Simulation
