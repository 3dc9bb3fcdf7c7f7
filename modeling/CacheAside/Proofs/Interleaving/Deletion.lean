import CacheAside.Proofs.Interleaving.Effect
import CacheAside.Proofs.Interleaving.Validity

/-!
# What has been deleted stays deleted

In any interleaving the store changes a record only as it says (`World.find_stride`).  A deletion
that is busy with its change has removed the record (`Storied.hasMade`), and since each identifier
is used once, no request puts a record under it again (`Storied.isGone`).  A deletion that ends well
has evicted the record from the cache, unless it has reported that it could not
(`evicts_of_finished`).
-/

namespace CacheAside.Simulation

namespace World

variable {w w' : World} {ctx : Context} {spans : List Span}

/-- The store answers as a call in it says. -/
theorem find_servedNow (w : World) (call : PortCall) (key : RecordId) :
    (w.servedNow call).backend.store.find key =
      ((w.servedNow call).reply.bind call.change?).elim (w.backend.store.find key)
        fun change => if key = change.recordId then change.found else w.backend.store.find key := by
  cases hchange : (w.servedNow call).reply.bind call.change? with
  | none =>
    have hstore : (w.servedNow call).backend.store = w.backend.store :=
      Backend.store_serve fun reply hserved => by
        rwa [show (w.servedNow call).reply = _ from hserved] at hchange
    rw [hstore]
    rfl
  | some change =>
    obtain ⟨reply, hserved, hmade⟩ := Option.bind_eq_some_iff.mp hchange
    exact Backend.find_serve hserved hmade key

/-- No request for the cache or the event bus changes the store. -/
theorem find_servedNow_of_quiet (w : World) {call : PortCall}
    (h : ∀ reply, call.change? reply = none) (key : RecordId) :
    (w.servedNow call).backend.store.find key = w.backend.store.find key := by
  have hnone : (w.servedNow call).reply.bind call.change? = none := by
    rw [Option.bind_eq_none_iff]
    exact fun reply _ => h reply
  rw [find_servedNow, hnone]
  rfl

/-- A stride changes in the store what the change says, and nothing else. -/
theorem find_stride (w : World) (ctx : Context) (spans : List Span) (side : Side) (p : Point)
    (key : RecordId) :
    (w.stride ctx spans side p).1.backend.store.find key =
      (w.change? ctx p).elim (w.backend.store.find key)
        fun change => if key = change.recordId then change.found else w.backend.store.find key := by
  cases heffect : w.effect? ctx side p with
  | none =>
    have hstride := w.stride_on w.backend ctx spans side heffect
    have hsame : (w.stride ctx spans side p).1.backend = w.backend :=
      congrArg (fun o => o.1.backend) hstride
    have hquiet : w.change? ctx p = none := change?_on_of_effect? heffect w.backend
    rw [hsame, hquiet]
    rfl
  | some effect =>
    rw [w.backend_stride ctx spans side heffect]
    cases takesEffect heffect with
    | asking acts => rw [find_servedNow, change?, if_pos acts]
    | cache => exact w.find_servedNow_of_quiet (fun _ => rfl) key
    | bus => exact w.find_servedNow_of_quiet (fun _ => rfl) key

/-- The store removes only what it holds. -/
theorem found_of_change? {p : Point} {id : RecordId} (h : w.change? ctx p = some (.deleted id)) :
    ∃ r, w.backend.store.find id = .ok r := by
  cases p with
  | asking ask g =>
    simp only [change?] at h
    split at h
    · obtain ⟨reply, hserved, hmade⟩ := Option.bind_eq_some_iff.mp h
      cases ask with
      | removing id =>
        cases reply with
        | ok value =>
          cases hmade
          exact (Store.delete_eq_ok (Backend.serve_remove hserved)).1
        | error e => cases hmade
      | inserting candidate => cases reply <;> cases hmade
      | replacing merged => cases reply <;> cases hmade
      | _ => cases hmade
    · cases h
  | _ => cases h

/-- The turn of a refresh leaves the store as it is. -/
theorem find_turn (w : World) (r : Refresh) (key : RecordId) :
    (w.turn r).1.backend.store.find key = w.backend.store.find key := by
  cases heffect : w.effectOfTurn r with
  | none =>
    have hturn := w.turn_on w.backend heffect
    have hsame : (w.turn r).1.backend = w.backend := congrArg (fun o => o.1.backend) hturn
    rw [hsame]
  | some effect =>
    rw [w.backend_turn heffect]
    simp only [effectOfTurn, Option.ite_none_right_eq_some, Option.some.injEq] at heffect
    obtain ⟨-, rfl⟩ := heffect
    exact w.find_servedNow_of_quiet (fun _ => rfl) key

/-! ## Changes that have been made -/

end World

/-- The store has made the change for the request, whether the reply has come or not. -/
def Point.HasMade (change : DomainEvent) : Point → Prop
  | .asking ask g => ∃ reply, decided? g = some reply ∧ ask.call.change? reply = some change
  | .settling made _ => made = change
  | .announcing made _ _ _ => made = change
  | .finished _ => False

namespace World

variable {w w' : World} {ctx : Context} {spans : List Span}

/-- A reply that shows a change had been decided before, or the change is made now. -/
theorem Visited.hasMade {ask : Ask} {g : Option (Guarded ask.call)}
    {poll : Poll ask.call.Reply (Guarded ask.call)} (h : Visited w ctx g w' poll)
    {reply : ask.call.Reply} (decided : poll.decided? = some reply) {change : DomainEvent}
    (made : ask.call.change? reply = some change) :
    (Point.asking ask g).HasMade change ∨ w.change? ctx (.asking ask g) = some change := by
  cases h with
  | @waits g' _ calm still before =>
    have hwaits : g'.flight.decided? = some reply := decided
    rw [before] at hwaits
    cases hwaits
  | fails calm still failed =>
    cases failed.symm.trans decided
    rw [PortCall.change?_error] at made
    cases made
  | awaits calm still known =>
    cases decided
    exact .inl ⟨reply, by rw [known]; rfl, made⟩
  | replies calm still known =>
    cases decided
    exact .inl ⟨reply, by rw [known]; rfl, made⟩
  | breaks => cases decided
  | @answers _ served alike acted fresh backend hserved covered =>
    obtain rfl := Option.some.inj (covered.symm.trans decided)
    rcases (w.faultOf g).cover_eq served with heq | ⟨e, heq⟩
    · rw [heq] at made
      exact .inr (by simp [change?, acted, hserved, made])
    · rw [heq, PortCall.change?_error] at made
      cases made

/-- A change that a request has made by its next stride it has made before, or makes now. -/
theorem Strode.hasMade {p p' : Point} (h : Strode w ctx spans p w' (some p'))
    {change : DomainEvent} (made : p'.HasMade change) :
    p.HasMade change ∨ w.change? ctx p = some change := by
  cases h with
  | asksOn visit =>
    obtain ⟨reply, hdecided, hmade⟩ := made
    exact (visited visit).hasMade hdecided hmade
  | resumes visit resumed =>
    cases resumed with
    | asks =>
      obtain ⟨reply, hdecided, -⟩ := made
      cases hdecided
    | finishes => exact made.elim
    | spawns => exact made.elim
    | announces =>
      obtain rfl := made
      exact (visited visit).hasMade rfl rfl
    | settles hmade =>
      obtain rfl := made
      exact (visited visit).hasMade rfl hmade
  | settlesOn => exact .inl made
  | settled => exact .inl made
  | cacheWaits => exact .inl made
  | cacheTold => exact .inl made
  | busWaits => exact .inl made
  | busTold => exact .inl made
  | skips => exact .inl made
  | concludes => exact made.elim
  | rests => exact made.elim

end World

namespace Scene

variable {s₀ s s' : Scene} {t : Thread} {id : RecordId}

/-- What becomes of the store in a step; `made` is the change, if it makes one. -/
structure Commits (s s' : Scene) (made : Option DomainEvent) : Prop where
  changes : s'.changes = s.changes ++ made.toList
  find : ∀ key, s'.world.backend.store.find key =
    made.elim (s.world.backend.store.find key) fun change =>
      if key = change.recordId then change.found else s.world.backend.store.find key
  /-- The request that makes the change does not insert a record after it. -/
  maker : ∀ change ∈ made, ∃ t ∈ s.threads, s.world.Changes t.point change ∧
    ∀ u ∈ s'.threads, u.key = t.key → ¬ u.point.MayInsert
  found : ∀ id, .deleted id ∈ made → ∃ r, s.world.backend.store.find id = .ok r
  hasMade : ∀ u ∈ s'.threads, ∀ change, u.point.HasMade change → change ∈ made ∨
    ∃ t ∈ s.threads, t.point.HasMade change

theorem Step.commits (step : Step s s') : ∃ made, Commits s s' made := by
  cases step with
  | start ctx request =>
    obtain ⟨hworld, hpoint⟩ := s.world.openCall_spec ctx request
    refine ⟨none, (List.append_nil _).symm, fun key => by rw [hworld]; rfl, by simp,
      by simp, fun u hu change hmade => ?_⟩
    rcases List.mem_append.mp hu with hold | hnew
    · exact .inr ⟨u, hold, hmade⟩
    · obtain rfl := List.mem_singleton.mp hnew
      rcases hpoint with ⟨ask, -, hask⟩ | ⟨outcome, -, hfinished⟩
      · rw [Thread.point, hask] at hmade
        obtain ⟨reply, hdecided, -⟩ := hmade
        cases hdecided
      · rw [Thread.point, hfinished] at hmade
        exact hmade.elim
  | @stride t w p side mem eq =>
    have hstrode := World.strode eq
    have hfind := s.world.find_stride t.call.ctx t.call.spans side t.point
    rw [eq] at hfind
    refine ⟨_, rfl, hfind, fun change hchange => ⟨t, mem, World.change?_spec hchange,
      fun u hu hkey hmay => ?_⟩, fun id hid => World.found_of_change? hid,
      fun u hu change hmade => ?_⟩
    · rcases mem_put hu with rfl | ⟨-, hother⟩
      · cases (hstrode.mayInsert hmay).2.symm.trans hchange
      · exact hother hkey
    · rcases mem_put hu with rfl | ⟨hu, -⟩
      · rcases hstrode.hasMade hmade with hbefore | hnow
        · exact .inr ⟨t, mem, hbefore⟩
        · exact .inl hnow
      · exact .inr ⟨u, hu, hmade⟩
  | @breakDown t w side mem eq =>
    have hfind := s.world.find_stride t.call.ctx t.call.spans side t.point
    rw [eq] at hfind
    refine ⟨_, rfl, hfind, fun change hchange => ⟨t, mem, World.change?_spec hchange,
      fun u hu hkey => ?_⟩, fun id hid => World.found_of_change? hid,
      fun u hu change hmade => .inr ⟨u, (List.mem_filter.mp hu).1, hmade⟩⟩
    have hne : u.key ≠ t.key := by simpa using (List.mem_filter.mp hu).2
    exact absurd hkey hne
  | leave mem =>
    exact ⟨none, (List.append_nil _).symm, fun key => rfl, by simp, by simp,
      fun u hu change hmade => .inr ⟨u, (List.mem_filter.mp hu).1, hmade⟩⟩
  | @turn r mem =>
    exact ⟨none, (List.append_nil _).symm, s.world.find_turn r, by simp, by simp,
      fun u hu change hmade => .inr ⟨u, hu, hmade⟩⟩
  | elapse elapsed =>
    exact ⟨none, (List.append_nil _).symm, fun key => by rw [elapsed.backend]; rfl, by simp,
      by simp, fun u hu change hmade => .inr ⟨u, hu, hmade⟩⟩

/-- The store updates only what it holds. -/
theorem Commits.updated {made : Option DomainEvent} (h : Commits s s' made) {r : Record}
    (updated : .updated r ∈ made) : ∃ old, s.world.backend.store.find r.id = .ok old := by
  obtain ⟨t, -, hchanges, -⟩ := h.maker _ updated
  generalize t.point = p at hchanges
  cases hchanges with
  | updated eq =>
    obtain ⟨old, hfound, hstored, -⟩ := Store.update_eq_ok eq
    exact ⟨old, by rw [hstored]; exact hfound⟩

/-! ## Identifiers that are used once -/

/-- No request creates a record of the identifier if there was one at the beginning, and no two do
so. -/
structure UsesOnce (s₀ s : Scene) (id : RecordId) : Prop where
  unused : ∀ c, Request.create c ∈ s.asked → c.id = id →
    s₀.world.backend.store.find id = .error (.notFound id)
  once : ∀ (i j : Nat) (c c' : Record), s.asked[i]? = some (.create c) →
    s.asked[j]? = some (.create c') → c.id = id → c'.id = id → i = j

/-- Requests are only added to those that were asked before. -/
theorem Step.asked_kept (step : Step s s') : s.asked <+: s'.asked := by
  cases step with
  | start ctx request => exact List.prefix_append _ _
  | _ => exact List.prefix_refl _

theorem UsesOnce.of_more (h : s₀.UsesOnce s' id) (more : s.asked <+: s'.asked) :
    s₀.UsesOnce s id := by
  have hsame {i : Nat} {request : Request} (hi : s.asked[i]? = some request) :
      s'.asked[i]? = some request := by
    obtain ⟨rest, hrest⟩ := more
    obtain ⟨hlt, -⟩ := List.getElem?_eq_some_iff.mp hi
    rw [← hrest, List.getElem?_append_left hlt, hi]
  exact ⟨fun c hc => h.unused c (more.subset hc), fun i j c c' hi hj =>
    h.once i j c c' (hsame hi) (hsame hj)⟩

/-- The store holds a record of the identifier, or has removed it. -/
def HasHeld (s : Scene) (id : RecordId) : Prop :=
  (∃ r, s.world.backend.store.find id = .ok r) ∨ .deleted id ∈ s.changes

/-- Whoever has created a record of the identifier does not insert it once more. -/
def IsSpent (s₀ s : Scene) (id : RecordId) : Prop :=
  (∃ r, s₀.world.backend.store.find id = .ok r) ∨
    ∃ (key : Nat) (c : Record), s.asked[key]? = some (.create c) ∧ c.id = id ∧
      ∀ t ∈ s.threads, t.key = key → ¬ t.point.MayInsert

/-- There is no record of the identifier, and no request inserts one any more. -/
structure IsGone (s : Scene) (id : RecordId) : Prop where
  missing : s.world.backend.store.find id = .error (.notFound id)
  barred : ∀ t ∈ s.threads, ∀ c, t.request = .create c → c.id = id → ¬ t.point.MayInsert

/-- What is known of the records that have come and gone. -/
structure Storied (s₀ s : Scene) : Prop where
  numbered : s.Numbered
  checked : ∀ t ∈ s.threads, t.point.IsChecked s.world.service.limits t.request
  spent : ∀ id, s.HasHeld id → s₀.IsSpent s id
  missing : ∀ id, .deleted id ∈ s.changes → s₀.UsesOnce s id →
    s.world.backend.store.find id = .error (.notFound id)
  hasMade : ∀ t ∈ s.threads, ∀ change, t.point.HasMade change → change ∈ s.changes

/-- A record has been checked before a request goes to the store with it. -/
theorem Step.checked (step : Step s s')
    (h : ∀ t ∈ s.threads, t.point.IsChecked s.world.service.limits t.request) :
    ∀ t ∈ s'.threads, t.point.IsChecked s'.world.service.limits t.request := by
  rw [step.service]
  cases step with
  | start ctx request =>
    intro t ht
    rcases List.mem_append.mp ht with hold | hnew
    · exact h t hold
    · obtain rfl := List.mem_singleton.mp hnew
      rcases (s.world.openCall_spec ctx request).2
        with ⟨ask, hbegin, hask⟩ | ⟨outcome, -, hfinished⟩
      · rw [Thread.point, hask]
        cases Service.begin_spec hbegin with
        | create checked => exact ⟨rfl, checked⟩
        | _ => trivial
      · rw [Thread.point, hfinished]
        trivial
  | @stride t w p side mem eq =>
    intro u hu
    rcases mem_put hu with rfl | ⟨hu, -⟩
    · exact (World.strode eq).checked (h t mem)
    · exact h u hu
  | breakDown => exact fun u hu => h u (List.mem_filter.mp hu).1
  | leave => exact fun u hu => h u (List.mem_filter.mp hu).1
  | turn => exact h
  | elapse => exact h

/-- A request that may still insert its record is new, or might have done so before. -/
theorem Step.mayInsert (step : Step s s') {u : Thread} (mem : u ∈ s'.threads)
    (may : u.point.MayInsert) :
    s.asked.length ≤ u.key ∨ ∃ t ∈ s.threads, t.key = u.key ∧ t.point.MayInsert := by
  cases step with
  | start ctx request =>
    rcases List.mem_append.mp mem with hold | hnew
    · exact .inr ⟨u, hold, rfl, may⟩
    · obtain rfl := List.mem_singleton.mp hnew
      exact .inl (Nat.le_refl _)
  | stride side ht eq =>
    rcases mem_put mem with rfl | ⟨hu, -⟩
    · exact .inr ⟨_, ht, rfl, ((World.strode eq).mayInsert may).1⟩
    · exact .inr ⟨u, hu, rfl, may⟩
  | breakDown => exact .inr ⟨u, (List.mem_filter.mp mem).1, rfl, may⟩
  | leave => exact .inr ⟨u, (List.mem_filter.mp mem).1, rfl, may⟩
  | turn => exact .inr ⟨u, mem, rfl, may⟩
  | elapse => exact .inr ⟨u, mem, rfl, may⟩

theorem IsSpent.step (h : s₀.IsSpent s id) (step : Step s s') : s₀.IsSpent s' id := by
  rcases h with hr | ⟨key, c, hkey, hid, hdone⟩
  · exact .inl hr
  · obtain ⟨hlt, -⟩ := List.getElem?_eq_some_iff.mp hkey
    refine .inr ⟨key, c, ?_, hid, fun u hu hsame hmay => ?_⟩
    · obtain ⟨rest, hrest⟩ := step.asked_kept
      rw [← hrest, List.getElem?_append_left hlt, hkey]
    · rcases step.mayInsert hu hmay with hnew | ⟨t, ht, hkey', hmay'⟩
      · omega
      · exact hdone t ht (hkey'.trans hsame) hmay'

namespace Storied

/-- A request that is to create a record of a spent identifier has done so. -/
theorem barred (h : Storied s₀ s) (once : s₀.UsesOnce s id) (held : s.HasHeld id)
    (mem : t ∈ s.threads) {c : Record} (request : t.request = .create c) (hid : c.id = id) :
    ¬ t.point.MayInsert := by
  have hasked := h.numbered.asked t mem
  rw [request] at hasked
  rcases h.spent id held with ⟨r, hr⟩ | ⟨key, c', hkey, hid', hdone⟩
  · rw [once.unused c (List.mem_of_getElem? hasked) hid] at hr
    cases hr
  · exact hdone t mem (once.once _ _ _ _ hasked hkey hid hid')

theorem isGone (h : Storied s₀ s) (once : s₀.UsesOnce s id) (gone : .deleted id ∈ s.changes) :
    s.IsGone id :=
  ⟨h.missing id gone once, fun _ mem _ => h.barred once (.inr gone) mem⟩

/-- A record that is new in the store has been created in this step by a request that was asked
to. -/
theorem creator (h : Storied s₀ s) {made : Option DomainEvent} (commits : Commits s s' made)
    {r : Record} (created : .created r ∈ made) :
    ∃ t ∈ s.threads, ∃ c, t.request = .create c ∧ c.id = r.id ∧ t.point.MayInsert ∧
      ∀ u ∈ s'.threads, u.key = t.key → ¬ u.point.MayInsert := by
  obtain ⟨t, ht, hchanges, hdone⟩ := commits.maker _ created
  have hmine := h.checked t ht
  generalize hpoint : t.point = p at hchanges hmine
  cases hchanges with
  | created eq fresh =>
    obtain ⟨-, hstored, -⟩ := Store.create_eq_ok eq
    exact ⟨t, ht, _, hmine.1, by rw [hstored], by rw [hpoint]; exact fresh, hdone⟩

theorem step (h : Storied s₀ s) (step : Step s s') : Storied s₀ s' := by
  obtain ⟨made, hcommits⟩ := step.commits
  refine ⟨h.numbered.step step, step.checked h.checked, fun id hheld => ?_, fun id hgone once => ?_,
    fun t ht change hmade => ?_⟩
  · rcases hheld with ⟨r, hr⟩ | hgone
    · rw [hcommits.find] at hr
      cases made with
      | none => exact (h.spent id (.inl ⟨r, hr⟩)).step step
      | some change =>
        simp only [Option.elim_some] at hr
        split at hr
        · rename_i hid
          cases change with
          | created x =>
            obtain ⟨t, ht, c, hrequest, hcid, -, hdone⟩ := h.creator hcommits rfl
            obtain ⟨hlt, -⟩ := List.getElem?_eq_some_iff.mp (h.numbered.asked t ht)
            refine .inr ⟨t.key, c, ?_, hcid.trans hid.symm, hdone⟩
            obtain ⟨rest, hrest⟩ := step.asked_kept
            rw [← hrest, List.getElem?_append_left hlt, h.numbered.asked t ht, hrequest]
          | updated x =>
            obtain ⟨old, hold⟩ := hcommits.updated rfl
            exact (h.spent id (.inl ⟨old, by rw [hid]; exact hold⟩)).step step
          | deleted key => cases hr
        · exact (h.spent id (.inl ⟨r, hr⟩)).step step
    · rw [hcommits.changes] at hgone
      rcases List.mem_append.mp hgone with hold | hnew
      · exact (h.spent id (.inr hold)).step step
      · obtain ⟨r, hr⟩ := hcommits.found id (by simpa using hnew)
        exact (h.spent id (.inl ⟨r, hr⟩)).step step
  · have once := once.of_more step.asked_kept
    rw [hcommits.changes] at hgone
    rw [hcommits.find]
    cases made with
    | none => exact h.missing id (by simpa using hgone) once
    | some change =>
      simp only [Option.elim_some]
      split
      · rename_i hid
        cases change with
        | deleted key => exact congrArg (fun key => Except.error (StoreError.notFound key)) hid.symm
        | created x =>
          obtain ⟨t, ht, c, hrequest, hcid, hmay, -⟩ := h.creator hcommits rfl
          have hold : .deleted id ∈ s.changes := by simpa using hgone
          exact absurd hmay (h.barred once (.inr hold) ht hrequest (hcid.trans hid.symm))
        | updated x =>
          obtain ⟨old, hfound⟩ := hcommits.updated rfl
          have hmissing := h.missing id (by simpa using hgone) once
          rw [hid] at hmissing
          cases hmissing.symm.trans hfound
      · rename_i hid
        refine h.missing id ?_ once
        rcases List.mem_append.mp hgone with hold | hnew
        · exact hold
        · obtain rfl := List.mem_singleton.mp hnew
          exact absurd rfl hid
  · rw [hcommits.changes]
    rcases hcommits.hasMade t ht change hmade with hnow | ⟨u, hu, hbefore⟩
    · exact List.mem_append_right _ (by simp [Option.mem_def.mp hnow])
    · exact List.mem_append_left _ (h.hasMade u hu change hbefore)

end Storied

theorem Reaches.storied {allowed : Scene → Scene → Prop} (fresh : s₀.IsFresh)
    (run : Reaches allowed s₀ s) : Storied s₀ s := by
  have still : s₀.Runs s₀ := .refl
  have hinit : Storied s₀ s₀ := by
    refine ⟨still.numbered fresh, ?_, fun id hheld => .inl ?_, ?_, ?_⟩
    · simp [fresh.threads]
    · simpa [HasHeld, fresh.changes] using hheld
    · simp [fresh.changes]
    · simp [fresh.threads]
  exact run.induct hinit fun s a h _ => h.step (s.step_act a)

end Scene

/-! ## Evictions -/

/-- The reply of a side, if it has come or been decided. -/
def Branch.decided? {call : PortCall} : Branch call → Option call.Reply
  | .waiting g => CacheAside.Simulation.decided? g
  | .replied reply => some reply

namespace Point

/-- A deletion of the record stands where deletions stand. -/
def Deletes (id : RecordId) : Point → Prop
  | .asking ask _ => ask = .removing id
  | .settling change _ => change = .deleted id
  | .announcing change _ _ _ => change = .deleted id
  | .finished _ => True

/-- The cache has carried out what it was told, or the request has ended well. -/
def HasTold : Point → Prop
  | .announcing _ _ cache _ => cache.decided? = some (.ok ())
  | .finished outcome => outcome = .ok .done
  | _ => False

end Point

namespace World

variable {w w' : World} {ctx : Context} {spans : List Span}

/-- A look at a side that shows a success lets the call take effect, or it has done so before. -/
theorem pollBranch_ok {call : PortCall} {notes : call.Reply → List Note}
    {branch branch' : Branch call}
    (poll : w.pollBranch ctx spans call notes branch = (w', some branch')) {value : call.Value}
    (decided : branch'.decided? = some (.ok value)) :
    branch.decided? = some (.ok value) ∨ w.effectOf ctx branch = some call := by
  cases branch with
  | replied reply =>
    cases poll
    exact .inl decided
  | waiting g =>
    have hvisited {w₁ : World} {poll : Poll call.Reply (Guarded call)}
        (h : Visited w ctx g w₁ poll) (hok : poll.decided? = some (.ok value)) :
        (Branch.waiting g).decided? = some (.ok value) ∨
          w.effectOf ctx (Branch.waiting g) = some call := by
      cases h with
      | @waits g' _ calm still before =>
        have hwaits : g'.flight.decided? = some (.ok value) := hok
        rw [before] at hwaits
        cases hwaits
      | fails calm still failed => cases failed.symm.trans hok
      | awaits calm still known =>
        cases hok
        exact .inl (by rw [known]; rfl)
      | replies calm still known =>
        cases hok
        exact .inl (by rw [known]; rfl)
      | breaks => cases hok
      | answers alike acted => exact .inr (if_pos acted)
    simp only [pollBranch] at poll
    rcases hvisit : w.visit none ctx spans g with ⟨w₁, reply | g' | _⟩
    all_goals rw [hvisit] at poll
    · cases poll
      exact hvisited (visited hvisit) decided
    · cases poll
      exact hvisited (visited hvisit) decided
    · cases poll

/-- A deletion goes on as a deletion, and tells the cache before it ends well; when it ends, it
reports what the cache could not do. -/
theorem stride_deletes {side : Side} {p p' : Point} {id : RecordId} (deletes : p.Deletes id)
    (stride : w.stride ctx spans side p = (w', some p')) :
    p'.Deletes id ∧ (p'.HasTold → p.HasTold ∨
      w.effect? ctx side p = some (.writeCache (.evict id)) ∨
      ∃ e, ∃ told, Counted w told w' ∧ .cache .delete .delete id e ∈ told) := by
  have hstrode := strode stride
  cases p with
  | asking ask g =>
    obtain rfl : ask = .removing id := deletes
    cases hstrode with
    | asksOn => exact ⟨rfl, fun h => h.elim⟩
    | @resumes _ _ _ _ reply _ visit resumed =>
      cases resumed with
      | asks calm quiet next => cases Service.follows_of_resume next
      | @finishes _ _ _ outcome calm quiet next =>
        refine ⟨trivial, fun h => ?_⟩
        obtain rfl : outcome = .ok .done := h
        cases reply with
        | ok value => cases quiet
        | error e => cases next
      | settles made =>
        cases reply with
        | ok value =>
          cases made
          exact ⟨rfl, fun h => h.elim⟩
        | error e => cases made
  | settling change tickets =>
    obtain rfl : change = .deleted id := deletes
    cases hstrode with
    | settlesOn => exact ⟨rfl, fun h => h.elim⟩
    | settled => exact ⟨rfl, fun h => by cases h⟩
  | finished outcome =>
    cases hstrode
    exact ⟨trivial, .inl⟩
  | announcing change f cache events =>
    obtain rfl : change = .deleted id := deletes
    have hcache (h : w.tellCache ctx spans (.deleted id) cache events = (w', some p')) :
        p'.Deletes id ∧ (p'.HasTold → cache.decided? = some (.ok ()) ∨
          w.effectOf ctx cache = some (.writeCache (.evict id))) := by
      simp only [tellCache] at h
      rcases hpoll : w.pollBranch ctx spans (.writeCache (DomainEvent.deleted id).cacheWrite)
        (DomainEvent.deleted id).cacheNotes cache with ⟨w₁, _ | cache'⟩
      all_goals rw [hpoll] at h
      · cases h
      · cases h
        exact ⟨rfl, fun hok => pollBranch_ok hpoll hok⟩
    have hbus (h : w.tellBus ctx spans (.deleted id) cache events = (w', some p')) :
        p'.Deletes id ∧ (p'.HasTold → cache.decided? = some (.ok ())) := by
      simp only [tellBus] at h
      rcases hpoll : w.pollBranch ctx spans (.publish (.deleted id)) (fun _ => []) events with
        ⟨w₁, _ | events'⟩
      all_goals rw [hpoll] at h
      · cases h
      · cases h
        exact ⟨rfl, fun hok => hok⟩
    rcases cache with g | written <;> rcases events with g' | published
    case replied.replied =>
      cases stride
      refine ⟨trivial, fun _ => ?_⟩
      cases written with
      | ok value => exact .inl rfl
      | error e =>
        refine .inr (.inr ⟨e, _, (w.noteAll_noted ctx spans _).toCounted, ?_⟩)
        cases published <;> simp [DomainEvent.conclude, Note.failure?]
    all_goals cases side with
    | cache =>
      obtain ⟨hdeletes, htold⟩ := hcache stride
      exact ⟨hdeletes, fun h => (htold h).imp_right .inl⟩
    | bus =>
      obtain ⟨hdeletes, htold⟩ := hbus stride
      exact ⟨hdeletes, fun h => .inl (htold h)⟩

end World

namespace Scene

/-- At some moment of the run a request has had the record evicted from the cache. -/
def Evicts (s₀ : Scene) (acts : List Act) (key : Nat) (id : RecordId) : Prop :=
  ∃ before a after, acts = before ++ a :: after ∧
    (s₀.perform before).effect? a = some (.request key, .writeCache (.evict id))

variable {s₀ : Scene} {acts : List Act} {t : Thread} {key : Nat} {id : RecordId}

theorem Evicts.concat (h : s₀.Evicts acts key id) (a : Act) : s₀.Evicts (acts ++ [a]) key id := by
  obtain ⟨before, b, after, rfl, heffect⟩ := h
  exact ⟨before, b, after ++ [a], by simp, heffect⟩

/-- A deletion that has told the cache has had the record evicted, or has reported that the cache
has failed. -/
def Accountable (s₀ : Scene) (acts : List Act) (t : Thread) (id : RecordId) : Prop :=
  t.point.Deletes id ∧ (t.point.HasTold → s₀.Evicts acts t.key id ∨
    ∃ e, .cache .delete .delete id e ∈ s₀.reportsOf (.request t.key) acts)

/-- Whatever else happens, a deletion that stands still remains accountable. -/
theorem Accountable.concat (h : s₀.Accountable acts t id) (a : Act) :
    s₀.Accountable (acts ++ [a]) t id := by
  refine ⟨h.1, fun htold => (h.2 htold).imp (·.concat a) fun ⟨e, he⟩ => ⟨e, ?_⟩⟩
  rw [reportsOf, collect_concat]
  exact List.mem_append_left _ he

/-- One more act, after some. -/
theorem accountable_concat
    (h : ∀ t ∈ (s₀.perform acts).threads, t.request = .delete id → s₀.Accountable acts t id)
    (a : Act) : ∀ t ∈ (s₀.perform (acts ++ [a])).threads, t.request = .delete id →
      s₀.Accountable (acts ++ [a]) t id := by
  intro u hu hrequest
  rw [perform_concat] at hu
  generalize hs : s₀.perform acts = s at h hu
  cases a with
  | start ctx request =>
    rcases List.mem_append.mp hu with hold | hnew
    · exact (h u hold hrequest).concat _
    · obtain rfl := List.mem_singleton.mp hnew
      obtain rfl : request = .delete id := hrequest
      exact ⟨rfl, fun hnone => hnone.elim⟩
  | look key side =>
    simp only [act] at hu
    cases hfind : s.threads.find? (·.key = key) with
    | none =>
      rw [hfind] at hu
      exact (h u hu hrequest).concat _
    | some t =>
      have hkey : t.key = key := by simpa using List.find?_some hfind
      subst hkey
      rw [hfind] at hu
      simp only at hu
      rcases hstride : s.world.stride t.call.ctx t.call.spans side t.point with ⟨w, _ | p⟩
      · rw [hstride] at hu
        exact (h u (List.mem_filter.mp hu).1 hrequest).concat _
      · rw [hstride] at hu
        rcases mem_put hu with rfl | ⟨hold, -⟩
        · obtain ⟨hdeletes, htold⟩ := h t (List.mem_of_find?_eq_some hfind) hrequest
          obtain ⟨hdeletes', htold'⟩ := World.stride_deletes hdeletes hstride
          refine ⟨hdeletes', fun hnow => ?_⟩
          rcases htold' hnow with hbefore | heffect | ⟨e, told, hcounted, he⟩
          · rcases htold hbefore with hevicts | ⟨e, he⟩
            · exact .inl (hevicts.concat _)
            · refine .inr ⟨e, ?_⟩
              rw [reportsOf, collect_concat]
              exact List.mem_append_left _ he
          · refine .inl ⟨acts, .look t.key side, [], rfl, ?_⟩
            rw [hs]
            simp [effect?, hfind, heffect, Thread.goTo]
          · have htells : s.tells (.look t.key side) = told := by
              refine tells_eq ?_
              simp only [act, hfind, hstride]
              exact hcounted
            refine .inr ⟨e, ?_⟩
            rw [reportsOf, collect_concat, hs]
            refine List.mem_append_right _ ?_
            simpa [ofParty, Act.party?, Thread.goTo, htells] using he
        · exact (h u hold hrequest).concat _
  | leave key =>
    simp only [act] at hu
    split at hu
    · exact (h u hu hrequest).concat _
    · exact (h u (List.mem_filter.mp hu).1 hrequest).concat _
  | turn ticket =>
    simp only [act] at hu
    split at hu
    · exact (h u hu hrequest).concat _
    · exact (h u hu hrequest).concat _
  | pass now => exact (h u hu hrequest).concat _
  | setClock clock => exact (h u hu hrequest).concat _
  | setFaults faults => exact (h u hu hrequest).concat _
  | give signal => exact (h u hu hrequest).concat _

theorem accountable (fresh : s₀.IsFresh) (acts : List Act) :
    ∀ t ∈ (s₀.perform acts).threads, t.request = .delete id → s₀.Accountable acts t id := by
  -- a run grows at its end: so from any run on
  suffices hmore : ∀ (more acts : List Act),
      (∀ t ∈ (s₀.perform acts).threads, t.request = .delete id → s₀.Accountable acts t id) →
      ∀ t ∈ (s₀.perform (acts ++ more)).threads, t.request = .delete id →
        s₀.Accountable (acts ++ more) t id from
    hmore acts [] (by simp [perform, fresh.threads])
  intro more
  induction more with
  | nil => simp
  | cons a more ih =>
    intro acts h
    have hrest := ih (acts ++ [a]) (accountable_concat h a)
    rwa [List.append_assoc] at hrest

/-- Only a deletion that has removed the record has it evicted, and no entry of it is left then. -/
theorem evicted_of_effect {s : Scene} {a : Act} {party : Party}
    (h : s.effect? a = some (party, .writeCache (.evict id))) :
    (∃ t ∈ s.threads, t.point.HasMade (.deleted id)) ∧
      (s.act a).world.backend.cache.entries.get? id = none := by
  constructor
  · generalize hcall : PortCall.writeCache (.evict id) = call at h
    cases takesEffect h with
    | @look t side _ find effect =>
      refine ⟨t, List.mem_of_find?_eq_some find, ?_⟩
      generalize t.point = p at effect
      cases effect with
      | @asking _ ask g acts => cases ask <;> cases hcall
      | @cache change f g events acts =>
        cases change with
        | deleted key =>
          cases hcall
          rfl
        | created r => cases hcall
        | updated r => cases hcall
      | bus => cases hcall
    | turn => cases hcall
  · rw [backend_act h]
    simp [World.servedNow, Backend.serve, Cache.delete]

/-- A deletion that has ended well without a report of the cache has had the record evicted. -/
theorem evicts_of_finished (fresh : s₀.IsFresh) (mem : t ∈ (s₀.perform acts).threads)
    (request : t.request = .delete id) (done : t.point = .finished (.ok .done))
    (unreported : ∀ e, .cache .delete .delete id e ∉ s₀.reportsOf (.request t.key) acts) :
    s₀.Evicts acts t.key id := by
  obtain ⟨-, htold⟩ := accountable fresh acts t mem request
  have hdone : t.point.HasTold := by
    rw [done]
    rfl
  rcases htold hdone with hevicts | ⟨e, he⟩
  · exact hevicts
  · exact absurd he (unreported e)

end Scene

end CacheAside.Simulation
