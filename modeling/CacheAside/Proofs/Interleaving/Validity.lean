import CacheAside.Proofs.Interleaving.Books
import CacheAside.Proofs.Interleaving.Provenance
import CacheAside.Proofs.Validation

/-!
# Every record is valid

Whatever goes on at the same time, whatever the mergers do and however the clocks go, a service that
starts with nothing holds only records that pass its rules, under their own identifiers and with
their times in order (`Scene.held_records_are_proper`).  This is a matter of the changes that the
store has made: each record that it was given had been checked (`Point.IsChecked`), and each
identifier has been used by one request at most, which inserts its record once (`Point.MayInsert`).
-/

namespace CacheAside

/-- The identifier of the record that a request is to create. -/
def Request.newId? : Request → Option RecordId
  | .create candidate => some candidate.id
  | _ => none

namespace Simulation

/-- The record that the request is about to put into the store has passed the rules. -/
def Point.IsChecked (limits : Limits) (request : Request) : Point → Prop
  | .asking (.inserting candidate) _ =>
    request = .create candidate ∧ limits.check candidate = .ok ()
  | .asking (.replacing merged) _ => limits.check merged = .ok ()
  | _ => True

/-- The request is to insert a record, and has not done so yet. -/
def Point.MayInsert : Point → Prop
  | .asking (.inserting _) g => decided? g = none
  | _ => False

namespace World

variable {w w' : World} {ctx : Context} {spans : List Span}

/-- A change that the store makes when a request is looked at. -/
inductive Changes (w : World) : Point → DomainEvent → Prop where
  | created {candidate r : Record} {g : Option (Guarded (.insert candidate))} {store : Store}
      (eq : w.backend.store.create w.clock candidate = .ok (r, store)) (fresh : decided? g = none) :
      Changes w (.asking (.inserting candidate) g) (.created r)
  | updated {merged r : Record} {g : Option (Guarded (.replace merged))} {store : Store}
      (eq : w.backend.store.update w.clock merged = .ok (r, store)) :
      Changes w (.asking (.replacing merged) g) (.updated r)
  | deleted {id : RecordId} {g : Option (Guarded (.remove id))} :
      Changes w (.asking (.removing id) g) (.deleted id)

/-- A call takes effect only if its reply has not been decided. -/
theorem fresh_of_acts {call : PortCall} {g : Option (Guarded call)} (h : w.acts ctx g = true) :
    decided? g = none := by
  match g with
  | none => rfl
  | some ⟨_, .before fault timer⟩ => rfl
  | some ⟨_, .after reply timer⟩ => simp [acts, isDue] at h

theorem change?_spec {p : Point} {change : DomainEvent} (h : w.change? ctx p = some change) :
    w.Changes p change := by
  cases p with
  | asking ask g =>
    simp only [change?] at h
    split at h
    · rename_i acted
      obtain ⟨reply, hserved, hchange⟩ := Option.bind_eq_some_iff.mp h
      cases ask with
      | inserting candidate =>
        cases reply with
        | ok r =>
          cases hchange
          exact .created (Backend.serve_insert hserved) (fresh_of_acts acted)
        | error e => cases hchange
      | replacing merged =>
        cases reply with
        | ok r =>
          cases hchange
          exact .updated (Backend.serve_replace hserved)
        | error e => cases hchange
      | removing id =>
        cases reply with
        | ok _ =>
          cases hchange
          exact .deleted
        | error e => cases hchange
      | _ => cases hchange
    · cases h
  | _ => cases h

/-- A call that waits for a reply that has not been decided has not taken effect. -/
theorem Visited.still {call : PortCall} {g : Option (Guarded call)} {g' : Guarded call}
    (visited : Visited w ctx g w' (.pending g')) (h : decided? (some g') = none) :
    w.acts ctx g = false ∧ decided? g = none := by
  have hflight : g'.flight.decided? = none := h
  cases visited with
  | waits calm still before same =>
    refine ⟨still, ?_⟩
    cases g with
    | none => rfl
    | some g₀ => exact same g₀ rfl ▸ h
  | fails calm still failed => cases hflight.symm.trans failed
  | awaits => cases hflight
  | answers alike acted fresh backend served decided => cases hflight.symm.trans decided

/-- A request that may still insert its record might have done so before, but has not. -/
theorem Strode.mayInsert {p p' : Point} (strode : Strode w ctx spans p w' (some p'))
    (h : p'.MayInsert) : p.MayInsert ∧ w.change? ctx p = none := by
  cases strode with
  | @asksOn ask g _ g' visit =>
    cases ask with
    | inserting candidate =>
      obtain ⟨hstill, hfresh⟩ := (visited visit).still h
      exact ⟨hfresh, by simp [change?, hstill]⟩
    | _ => exact h.elim
  | resumes visit resumed =>
    cases resumed with
    | asks calm quiet next => cases Service.follows_of_resume next <;> exact h.elim
    | _ => exact h.elim
  | _ => exact h.elim

/-- A record has been checked before a request goes to the store with it. -/
theorem Strode.checked {p p' : Point} {request : Request}
    (h : p.IsChecked w.service.limits request) (strode : Strode w ctx spans p w' (some p')) :
    p'.IsChecked w.service.limits request := by
  cases strode with
  | @asksOn ask => cases ask <;> exact h
  | @resumes _ _ w₁ _ _ _ visit resumed =>
    cases resumed with
    | asks calm quiet next =>
      have hservice := (visited visit).alike.service
      cases Service.follows_of_resume next with
      | replaces same checked => exact hservice ▸ checked
      | _ => trivial
    | _ => trivial
  | _ => trivial

end World

namespace Scene

variable {s s' : Scene} {t : Thread}

/-- No identifier is used for two new records. -/
def NeverRepeats (s : Scene) : Prop :=
  (s.asked.filterMap Request.newId?).Nodup

/-- Two requests that are to create a record of the same identifier are the same. -/
theorem NeverRepeats.eq_of_id (h : s.NeverRepeats) {i j : Nat} {c c' : Record}
    (hi : s.asked[i]? = some (.create c)) (hj : s.asked[j]? = some (.create c'))
    (hid : c.id = c'.id) : i = j := by
  have hne {i j : Nat} {c c' : Record} (hi : s.asked[i]? = some (.create c))
      (hj : s.asked[j]? = some (.create c')) (hlt : i < j) : c.id ≠ c'.id := by
    obtain ⟨hi, heq⟩ := List.getElem?_eq_some_iff.mp hi
    obtain ⟨hj, heq'⟩ := List.getElem?_eq_some_iff.mp hj
    have hpair := List.pairwise_iff_getElem.mp (List.pairwise_filterMap.mp h) i j hi hj hlt
    exact hpair c.id (by rw [heq]; rfl) c'.id (by rw [heq']; rfl)
  rcases Nat.lt_trichotomy i j with hlt | heq | hlt
  · exact absurd hid (hne hi hj hlt)
  · exact heq
  · exact absurd hid.symm (hne hj hi hlt)

/-- What is known of the changes that the store has made, and of the requests that are to make
more. -/
structure Lawful (s : Scene) : Prop where
  numbered : s.Numbered
  vouched : s.Vouched
  checked : ∀ t ∈ s.threads, t.point.IsChecked s.world.service.limits t.request
  valid : ∀ r, s.Made r → s.world.service.limits.check r = .ok ()
  /-- A record is new until it is updated. -/
  unstamped : ∀ r, .created r ∈ s.changes → r.updatedAt = none
  /-- A record has the time of its creation. -/
  origin : ∀ r, s.Made r → ∃ x, .created x ∈ s.changes ∧ x.id = r.id ∧ x.createdAt = r.createdAt
  /-- A record has been created by a request, which does not do so again. -/
  creator : ∀ x, .created x ∈ s.changes → ∃ (key : Nat) (c : Record),
    s.asked[key]? = some (.create c) ∧ c.id = x.id ∧
      ∀ t ∈ s.threads, t.key = key → ¬ t.point.MayInsert
  single : s.NeverRepeats → ∀ x y, .created x ∈ s.changes → .created y ∈ s.changes →
    x.id = y.id → x = y

/-- A change that the store makes when the request is looked at is in order. -/
structure Sanctions (s : Scene) (t : Thread) (change : DomainEvent) : Prop where
  valid : ∀ r, change.record? = some r → s.world.service.limits.check r = .ok ()
  unstamped : ∀ r, change = .created r → r.updatedAt = none
  origin : ∀ r, change.record? = some r → change = .created r ∨
    ∃ x, .created x ∈ s.changes ∧ x.id = r.id ∧ x.createdAt = r.createdAt
  creator : ∀ r, change = .created r →
    ∃ c, t.request = .create c ∧ c.id = r.id ∧ t.point.MayInsert

namespace Lawful

/-- The store makes no change. -/
theorem quiet (h : s.Lawful) {w : World} {threads : List Thread} {asked : List Request}
    {forsaken : List Ticket} {spawned : List (Ticket × Nat)}
    (numbered : Numbered { s with world := w, threads, asked, forsaken, spawned })
    (vouched : Vouched { s with world := w, threads, asked, forsaken, spawned })
    (service : w.service = s.world.service) (more : s.asked <+: asked)
    (checked : ∀ u ∈ threads, u.point.IsChecked s.world.service.limits u.request)
    (may : ∀ u ∈ threads, u.point.MayInsert → s.asked.length ≤ u.key ∨
      ∃ t ∈ s.threads, t.key = u.key ∧ t.point.MayInsert) :
    Lawful { s with world := w, threads, asked, forsaken, spawned } where
  numbered := numbered
  vouched := vouched
  checked := fun u hu => service ▸ checked u hu
  valid := fun r hr => service ▸ h.valid r hr
  unstamped := h.unstamped
  origin := h.origin
  creator := fun x hx => by
    obtain ⟨key, c, hasked, hid, hdone⟩ := h.creator x hx
    obtain ⟨hlt, -⟩ := List.getElem?_eq_some_iff.mp hasked
    have hsame : asked[key]? = s.asked[key]? := by
      obtain ⟨rest, rfl⟩ := more
      exact List.getElem?_append_left hlt
    refine ⟨key, c, hsame.trans hasked, hid, fun u hu hkey hmay => ?_⟩
    rcases may u hu hmay with hnew | ⟨t, ht, hsame, hmay⟩
    · exact absurd hlt (Nat.not_lt.mpr (hkey ▸ hnew))
    · exact hdone t ht (hsame.trans hkey) hmay
  single := fun never => h.single (List.Nodup.sublist (more.sublist.filterMap _) never)

/-- A change that the store makes is in order. -/
theorem sanctions (h : s.Lawful) {change : DomainEvent} (mem : t ∈ s.threads)
    (made : s.world.Changes t.point change) : s.Sanctions t change := by
  have hmine := h.checked t mem
  generalize hpoint : t.point = p at made hmine
  cases made with
  | @created candidate r g store eq fresh =>
    obtain ⟨hcreate, hcheck⟩ := hmine
    obtain ⟨-, hstored, -⟩ := Store.create_eq_ok eq
    refine ⟨?_, ?_, ?_, ?_⟩
    · rintro _ ⟨⟩
      exact Store.check_of_create eq hcheck
    · rintro _ ⟨⟩
      rw [hstored]
    · rintro _ ⟨⟩
      exact .inl rfl
    · rintro _ ⟨⟩
      refine ⟨candidate, hcreate, by rw [hstored], ?_⟩
      rw [hpoint]
      exact fresh
  | @updated merged r g store eq =>
    obtain ⟨old, hfound, hstored, -⟩ := Store.update_eq_ok eq
    refine ⟨?_, ?_, ?_, ?_⟩
    · rintro _ ⟨⟩
      exact Store.check_of_update eq hmine
    · rintro _ ⟨⟩
    · rintro _ ⟨⟩
      obtain ⟨x, hx, hid, hcreated⟩ := h.origin old (h.vouched.world.backend.store _ _ hfound)
      refine .inr ⟨x, hx, ?_, ?_⟩
      · rw [hid, Store.id_of_find hfound, hstored]
      · rw [hcreated, hstored]
    · rintro _ ⟨⟩
  | deleted =>
    refine ⟨?_, ?_, ?_, ?_⟩ <;> rintro _ ⟨⟩

/-- The store makes a change when a request is looked at. -/
theorem change (h : s.Lawful) {w : World} {threads : List Thread} {spawned : List (Ticket × Nat)}
    {change : DomainEvent} (mem : t ∈ s.threads) (made : s.world.Changes t.point change)
    (numbered : Numbered
      { s with world := w, threads, changes := s.changes ++ [change], spawned })
    (vouched : Vouched { s with world := w, threads, changes := s.changes ++ [change], spawned })
    (service : w.service = s.world.service)
    (checked : ∀ u ∈ threads, u.point.IsChecked s.world.service.limits u.request)
    (may : ∀ u ∈ threads, u.point.MayInsert → u ∈ s.threads ∧ u.key ≠ t.key) :
    Lawful { s with world := w, threads, changes := s.changes ++ [change], spawned } := by
  have hsanctions := h.sanctions mem made
  have hmade {r : Record}
      (hr : Made { s with world := w, threads, changes := s.changes ++ [change], spawned } r) :
      s.Made r ∨ change.record? = some r := by
    obtain ⟨c, hc, hr⟩ := hr
    rcases List.mem_append.mp hc with hold | hnew
    · exact .inl ⟨c, hold, hr⟩
    · obtain rfl := List.mem_singleton.mp hnew
      exact .inr hr
  have hcreated {x : Record} (hx : .created x ∈ s.changes ++ [change]) :
      .created x ∈ s.changes ∨ change = .created x := by
    rcases List.mem_append.mp hx with hold | hnew
    · exact .inl hold
    · exact .inr (List.mem_singleton.mp hnew).symm
  refine ⟨numbered, vouched, fun u hu => service ▸ checked u hu, fun r hr => ?_, fun x hx => ?_,
    fun r hr => ?_, fun x hx => ?_, fun never x y hx hy hid => ?_⟩
  · rw [service]
    exact (hmade hr).elim (h.valid r) (hsanctions.valid r)
  · exact (hcreated hx).elim (h.unstamped x) (hsanctions.unstamped x)
  · have hold (h : ∃ x, .created x ∈ s.changes ∧ x.id = r.id ∧ x.createdAt = r.createdAt) :
        ∃ x, .created x ∈ s.changes ++ [change] ∧ x.id = r.id ∧ x.createdAt = r.createdAt :=
      h.imp fun x hx => hx.imp_left (List.mem_append_left _)
    rcases hmade hr with hr | hr
    · exact hold (h.origin r hr)
    · rcases hsanctions.origin r hr with rfl | hr
      · exact ⟨r, List.mem_append_right _ List.mem_cons_self, rfl, rfl⟩
      · exact hold hr
  · rcases hcreated hx with hx | rfl
    · obtain ⟨key, c, hasked, hid, hdone⟩ := h.creator x hx
      exact ⟨key, c, hasked, hid, fun u hu hkey hmay => hdone u (may u hu hmay).1 hkey hmay⟩
    · obtain ⟨c, hrequest, hid, -⟩ := hsanctions.creator x rfl
      refine ⟨t.key, c, ?_, hid, fun u hu hkey hmay => (may u hu hmay).2 hkey⟩
      rw [← hrequest]
      exact h.numbered.asked t mem
  · -- a request that has created the record before would have had the same number
    have hfirst {x y : Record} (hx : .created x ∈ s.changes) (hy : change = .created y) :
        x.id ≠ y.id := by
      intro hid
      obtain ⟨key, c, hasked, hcid, hdone⟩ := h.creator x hx
      obtain ⟨c', hrequest, hcid', hmay⟩ := hsanctions.creator y hy
      have hmine := h.numbered.asked t mem
      rw [hrequest] at hmine
      have hkey := never.eq_of_id hasked hmine (by rw [hcid, hid, hcid'])
      exact hdone t mem hkey.symm hmay
    rcases hcreated hx with hx | hx <;> rcases hcreated hy with hy | hy
    · exact h.single never x y hx hy hid
    · exact absurd hid (hfirst hx hy)
    · exact absurd hid.symm (hfirst hy hx)
    · cases hx.symm.trans hy
      rfl

/-- A request is looked at, and goes on or goes away. -/
theorem look (h : s.Lawful) {w : World} {threads : List Thread} {spawned : List (Ticket × Nat)}
    (mem : t ∈ s.threads)
    (numbered : Numbered { s with
      world := w
      threads
      changes := s.changes ++ (s.world.change? t.call.ctx t.point).toList
      spawned })
    (vouched : Vouched { s with
      world := w
      threads
      changes := s.changes ++ (s.world.change? t.call.ctx t.point).toList
      spawned })
    (service : w.service = s.world.service)
    (checked : ∀ u ∈ threads, u.point.IsChecked s.world.service.limits u.request)
    (may : ∀ u ∈ threads, u.point.MayInsert → (u ∈ s.threads ∧ u.key ≠ t.key) ∨
      (t.key = u.key ∧ t.point.MayInsert ∧ s.world.change? t.call.ctx t.point = none)) :
    Lawful { s with
      world := w
      threads
      changes := s.changes ++ (s.world.change? t.call.ctx t.point).toList
      spawned } := by
  cases hchange : s.world.change? t.call.ctx t.point with
  | none =>
    simp only [hchange, Option.toList, List.append_nil] at numbered vouched ⊢
    refine h.quiet numbered vouched service (List.prefix_refl _) checked fun u hu hmay => .inr ?_
    rcases may u hu hmay with ⟨hold, -⟩ | ⟨hkey, hmay, -⟩
    · exact ⟨u, hold, rfl, hmay⟩
    · exact ⟨t, mem, hkey, hmay⟩
  | some change =>
    simp only [hchange, Option.toList] at numbered vouched ⊢
    refine h.change mem (World.change?_spec hchange) numbered vouched service checked
      fun u hu hmay => ?_
    rcases may u hu hmay with hold | ⟨-, -, hnone⟩
    · exact hold
    · cases hnone.symm.trans hchange

theorem step (h : s.Lawful) (step : Step s s') : s'.Lawful := by
  have numbered := h.numbered.step step
  have vouched := h.vouched.step step
  have service := step.service
  cases step with
  | start ctx request =>
    obtain ⟨-, hpoint⟩ := s.world.openCall_spec ctx request
    refine h.quiet numbered vouched service (List.prefix_append _ _) (fun u hu => ?_)
      fun u hu hmay => ?_
    · rcases List.mem_append.mp hu with hold | hnew
      · exact h.checked u hold
      · obtain rfl := List.mem_singleton.mp hnew
        rcases hpoint with ⟨ask, hbegin, hask⟩ | ⟨outcome, -, hfinished⟩
        · rw [Thread.point, hask]
          cases Service.begin_spec hbegin with
          | create checked => exact ⟨rfl, checked⟩
          | _ => trivial
        · rw [Thread.point, hfinished]
          trivial
    · rcases List.mem_append.mp hu with hold | hnew
      · exact .inr ⟨u, hold, rfl, hmay⟩
      · obtain rfl := List.mem_singleton.mp hnew
        exact .inl (Nat.le_refl _)
  | @stride t w p side mem eq =>
    have strode := World.strode eq
    refine h.look mem numbered vouched service (fun u hu => ?_)
      fun u hu hmay => ?_
    · rcases mem_put hu with rfl | ⟨hu, -⟩
      · exact strode.checked (h.checked t mem)
      · exact h.checked u hu
    · rcases mem_put hu with rfl | hother
      · exact .inr ⟨rfl, strode.mayInsert hmay⟩
      · exact .inl hother
  | breakDown side mem eq =>
    refine h.look mem numbered vouched service (fun u hu => ?_)
      fun u hu _ => .inl ?_
    · exact h.checked u (List.mem_filter.mp hu).1
    · simpa using hu
  | leave mem =>
    exact h.quiet numbered vouched service (List.prefix_refl _)
      (fun u hu => h.checked u (List.mem_filter.mp hu).1)
      fun u hu hmay => .inr ⟨u, (List.mem_filter.mp hu).1, rfl, hmay⟩
  | turn mem =>
    exact h.quiet numbered vouched service (List.prefix_refl _)
      h.checked fun u hu hmay => .inr ⟨u, hu, rfl, hmay⟩
  | elapse elapsed =>
    exact h.quiet numbered vouched service (List.prefix_refl _)
      h.checked fun u hu hmay => .inr ⟨u, hu, rfl, hmay⟩

end Lawful

theorem Reaches.lawful {allowed : Scene → Scene → Prop} {s₀ s : Scene} (fresh : s₀.IsFresh)
    (empty : s₀.world.backend = {}) (run : Reaches allowed s₀ s) : s.Lawful := by
  have hnothing (r : Record) : ¬ s₀.Made r := by
    rintro ⟨change, hchange, -⟩
    rw [fresh.changes] at hchange
    cases hchange
  have hinit : s₀.Lawful := by
    have still : s₀.Runs s₀ := .refl
    refine ⟨still.numbered fresh, still.vouched fresh empty, ?_,
      fun r hr => absurd hr (hnothing r), ?_, fun r hr => absurd hr (hnothing r), ?_, ?_⟩
    · simp [fresh.threads]
    · simp [fresh.changes]
    · simp [fresh.changes]
    · simp [fresh.changes]
  exact run.induct hinit fun s a h _ => h.step (s.step_act a)

/-- The record is held under the identifier: in the store, in the cache, in the journal as what has
been created or updated, or by a refresh in flight. -/
inductive Holds (s : Scene) : RecordId → Record → Prop where
  | store {id : RecordId} {r : Record} (found : s.world.backend.store.find id = .ok r) :
      Holds s id r
  | cache {id : RecordId} {r : Record} (stored : s.world.backend.cache.stored? id = some r) :
      Holds s id r
  | journal {e : EventEnvelope} {r : Record} (mem : e ∈ s.world.backend.journal.events)
      (payload : e.event.record? = some r) : Holds s e.event.recordId r
  /-- A refresh is filed where its number is on a list. -/
  | listed {f : Refresh} {id : RecordId} (mem : f ∈ s.world.refreshes)
      (listed : f.ticket ∈ s.world.tracker.pending id) : Holds s id f.record
  /-- A refresh may have been taken off its list. -/
  | taken {f : Refresh} (mem : f ∈ s.world.refreshes) : Holds s f.record.id f.record

/-- What is promised of a record that is held under an identifier. -/
structure IsProper (s : Scene) (limits : Limits) (id : RecordId) (r : Record) : Prop where
  passes : limits.check r = .ok ()
  named : r.id.isNil = false
  filed : r.id = id
  ordered : ∀ t, r.updatedAt = some t → ¬ t < r.createdAt
  /-- No time of an update is given before the store has made one. -/
  unstamped : (∀ x, .updated x ∈ s.changes → x.id ≠ r.id) → r.updatedAt = none

theorem Lawful.made (h : s.Lawful) (listed : s.Listed) {id : RecordId} {r : Record}
    (held : s.Holds id r) : s.Made r ∧ r.id = id := by
  obtain ⟨hbackend, hrefreshes⟩ := h.vouched.world
  cases held with
  | store found => exact ⟨hbackend.store id r found, Store.id_of_find found⟩
  | cache stored => exact hbackend.cache id r stored
  | journal mem payload =>
    exact ⟨hbackend.journal _ mem r payload, (DomainEvent.recordId_of_record? payload).symm⟩
  | listed mem ticket => exact ⟨hrefreshes _ mem, listed.own _ mem id ticket⟩
  | taken mem => exact ⟨hrefreshes _ mem, rfl⟩

/-- Every record that is held anywhere passes the rules, under its own identifier and with its times
in order, and all records of an identifier that was used once have the same time of creation. -/
theorem held_records_are_proper {s₀ s : Scene} (fresh : s₀.IsFresh)
    (empty : s₀.world.backend = {}) (run : s₀.Runs s) :
    (∀ id r, s.Holds id r → s.IsProper s₀.world.service.limits id r) ∧
      (s.NeverRepeats → ∀ id r r', s.Holds id r → s.Holds id r' → r.createdAt = r'.createdAt) := by
  have hlawful := run.lawful fresh empty
  have hlisted := run.listed fresh
  constructor
  · intro id r held
    obtain ⟨hmade, hid⟩ := hlawful.made hlisted held
    have hpasses : s₀.world.service.limits.check r = .ok () := run.service ▸ hlawful.valid r hmade
    obtain ⟨hnamed, -, -, -, -, htimes⟩ := Limits.check_eq_ok.mp hpasses
    refine ⟨hpasses, hnamed, hid, Limits.checkTimes_eq_ok.mp htimes, fun hnever => ?_⟩
    obtain ⟨change, hchange, hr⟩ := hmade
    cases change with
    | created x =>
      cases hr
      exact hlawful.unstamped r hchange
    | updated x =>
      cases hr
      exact absurd rfl (hnever r hchange)
    | deleted key => cases hr
  · intro never id r r' held held'
    obtain ⟨hmade, hid⟩ := hlawful.made hlisted held
    obtain ⟨hmade', hid'⟩ := hlawful.made hlisted held'
    obtain ⟨x, hx, hxid, hcreated⟩ := hlawful.origin r hmade
    obtain ⟨x', hx', hxid', hcreated'⟩ := hlawful.origin r' hmade'
    have hsame : x = x' := hlawful.single never x x' hx hx' (by rw [hxid, hid, hxid', hid'])
    rw [← hcreated, ← hcreated', hsame]

/-- Nothing has ever been stored. -/
def withNothing : Scene where
  world := { clock := firstMoment }

theorem isFresh_withNothing : withNothing.IsFresh :=
  ⟨rfl, rfl, rfl, rfl, rfl, rfl, rfl⟩

/-- A record is created, the clock goes back by a day, and the record is updated. -/
def creationAndUpdate : List Act :=
  [.start {} (.create oldRecord), .look 0 .cache, .look 0 .cache, .look 0 .bus,
    .setClock { firstMoment with day := -1, firstDay_le := by decide, le_lastDay := by decide },
    .start {} (.update oldRecord.id relabeling), .look 1 .cache, .look 1 .cache, .look 1 .cache,
    .look 1 .cache, .look 1 .bus]

theorem held_records_after_creationAndUpdate :
    let s := withNothing.perform creationAndUpdate
    s.Holds oldRecord.id newRecord ∧ s.IsProper {} oldRecord.id newRecord ∧
      s.world.backend.journal.size = 2 ∧ s.NeverRepeats ∧
      ∀ r, s.Holds oldRecord.id r → r.createdAt = firstMoment := by
  intro s
  obtain ⟨hproper, hsame⟩ :=
    held_records_are_proper (s := s) isFresh_withNothing rfl (runs_perform _ _)
  have hheld : s.Holds oldRecord.id newRecord := .cache (by decide)
  have hnever : s.NeverRepeats := by
    unfold NeverRepeats
    decide
  refine ⟨hheld, hproper _ _ hheld, by decide, hnever, fun r hr => ?_⟩
  exact hsame hnever _ r newRecord hr hheld

end Scene

end Simulation

end CacheAside
