import CacheAside.Proofs.Backend
import CacheAside.Simulation.Action

/-!
# The store as a plain map

The store keeps one record in two tables and stands for a plain map of whole records, a `Ledger`.
`Ledger.serve` says what the plain map answers to a call of the store and what becomes of it.
`Store.view` is the map that a store stands for: each call of the store does to the view what it
does to the plain map, and gives the same answer (`Backend.serve_ledger`), as long as no tags are
left without their row and no empty list of tags is kept (`Store.IsTidy`).  From there on it is an
induction over the calls (`World.attend_ledger`).
-/

namespace CacheAside

/-! ## Tables whose values are looked at -/

namespace Table

variable {α β : Type}

/-- The table with what is made of each value, given its identifier. -/
def mapEntries (t : Table α) (f : RecordId → α → β) : Table β :=
  ⟨t.entries.map fun e => (e.1, f e.1 e.2), List.pairwise_map.mpr t.sorted⟩

@[simp] theorem get?_mapEntries (t : Table α) (f : RecordId → α → β) (id : RecordId) :
    (t.mapEntries f).get? id = (t.get? id).map (f id) := by
  have h (entries : List (RecordId × α)) :
      (entries.map fun e => (e.1, f e.1 e.2)).lookup id = (entries.lookup id).map (f id) := by
    induction entries with
    | nil => rfl
    | cons entry rest ih =>
      rw [List.map_cons, lookup_cons, lookup_cons, ih]
      split
      · rename_i hid
        rw [hid, Option.map_some]
      · rfl
  exact h t.entries

end Table

/-! ## Plain maps -/

/-- A plain map from identifiers to whole records, in the order of the identifiers. -/
abbrev Ledger := Table Record

/-- What is asked of a store. -/
inductive StoreCall where
  | findAll (page : Page)
  | find (id : RecordId)
  | create (record : Record)
  | update (record : Record)
  | delete (id : RecordId)

/-- The call of the store's port. -/
def StoreCall.call : StoreCall → PortCall
  | .findAll page => .findAll page
  | .find id => .find id
  | .create r => .insert r
  | .update r => .replace r
  | .delete id => .remove id

namespace Ledger

/-- The record of an identifier. -/
def find (m : Ledger) (id : RecordId) : Except StoreError Record :=
  match m.get? id with
  | some r => .ok r
  | none => .error (.notFound id)

/-- All records in the order of their identifiers. -/
def records (m : Ledger) : List Record :=
  m.entries.map (·.2)

/-- Adds a record that is not there, created now. -/
def create (m : Ledger) (now : Timestamp) (r : Record) : Except StoreError Record × Ledger :=
  match m.get? r.id with
  | some _ => (.error (.conflict r.id), m)
  | none =>
    let new : Record := { r with createdAt := now, updatedAt := none }
    (.ok new, m.insert r.id new)

/-- Gives a record that is there a new label, value, weight and tags, and nothing else but the time
of the update. -/
def update (m : Ledger) (now : Timestamp) (r : Record) : Except StoreError Record × Ledger :=
  match m.get? r.id with
  | some old =>
    let new : Record := { old with
      label := r.label, value := r.value, weight := r.weight, tags := r.tags
      updatedAt := some (now.latest old.createdAt) }
    (.ok new, m.insert r.id new)
  | none => (.error (.notFound r.id), m)

/-- Removes a record that is there. -/
def delete (m : Ledger) (id : RecordId) : Except StoreError Unit × Ledger :=
  match m.get? id with
  | some _ => (.ok (), m.erase id)
  | none => (.error (.notFound id), m)

/-- What a plain map answers to a call at a moment, and what becomes of it. -/
def serve (m : Ledger) (now : Timestamp) : (q : StoreCall) → q.call.Reply × Ledger
  | .findAll page => (.ok ((m.records.drop page.offset).take page.limit), m)
  | .find id => (m.find id, m)
  | .create r => m.create now r
  | .update r => m.update now r
  | .delete id => m.delete id

end Ledger

/-! ## What a store stands for -/

namespace Store

variable {s : Store} {m : Ledger}

/-- The plain map that a store stands for. -/
def view (s : Store) : Ledger :=
  s.rows.mapEntries s.join

/-- All tags that are kept belong to a row, and no empty list of tags is kept. -/
def IsTidy (s : Store) : Prop :=
  ∀ id tags, s.tags.get? id = some tags → tags ≠ [] ∧ (s.rows.get? id).isSome = true

/-- To all questions the store gives the answers of the plain map, and it keeps no tags besides
those of the records in the map. -/
structure Represents (s : Store) (m : Ledger) : Prop where
  find : ∀ id, s.find id = m.find id
  findAll : ∀ page, s.findAll page = (m.records.drop page.offset).take page.limit
  size : s.size = m.size
  childRows : ∀ id, s.childRows id = match m.get? id with
    | some r => r.tags.length
    | none => 0
  children : ∀ id tags, s.tags.get? id = some tags →
    tags ≠ [] ∧ ∃ r, m.get? id = some r ∧ r.tags = tags

@[simp] theorem get?_view (s : Store) (id : RecordId) :
    s.view.get? id = (s.rows.get? id).map (s.join id) :=
  Table.get?_mapEntries s.rows s.join id

theorem find_view (s : Store) (id : RecordId) : s.find id = s.view.find id := by
  rw [find, Ledger.find, get?_view]
  cases s.rows.get? id <;> rfl

theorem records_view (s : Store) : s.records = s.view.records := by
  rw [Ledger.records, view, Table.mapEntries, List.map_map]
  rfl

/-- A tidy store represents the map that it stands for. -/
theorem IsTidy.represents (h : s.IsTidy) : s.Represents s.view where
  find := s.find_view
  findAll := fun page => by rw [findAll, records_view]
  size := (List.length_map _).symm
  childRows := fun id => by
    rw [childRows, get?_view]
    cases hrow : s.rows.get? id with
    | some row => rfl
    | none =>
      -- without a row there are no tags either
      cases htags : s.tags.get? id with
      | some tags =>
        have hsome := (h id tags htags).2
        rw [hrow] at hsome
        cases hsome
      | none => rfl
  children := fun id tags htags => by
    obtain ⟨hne, hrow⟩ := h id tags htags
    obtain ⟨row, hrow⟩ := Option.isSome_iff_exists.mp hrow
    exact ⟨hne, s.join id row, by rw [get?_view, hrow, Option.map_some], by simp [join, htags]⟩

/-! ## What the changes do to the view -/

/-- A row makes up the same record in two stores with the same tags for it. -/
theorem join_congr {s s' : Store} {id : RecordId}
    (h : (s'.tags.get? id).getD [] = (s.tags.get? id).getD []) : s'.join id = s.join id := by
  funext row
  simp only [join, h]

theorem view_put (s : Store) (id : RecordId) (row : Row) (tags : List String) :
    (s.put id row tags).2.view = s.view.insert id (s.put id row tags).1 := by
  refine Table.ext_get? fun key => ?_
  by_cases h : key = id
  · subst h
    simp [put]
  · have hjoin : (s.put id row tags).2.join key = s.join key :=
      join_congr (by simp [put, h])
    rw [get?_view, hjoin]
    simp [put, h]

theorem IsTidy.put (h : s.IsTidy) (id : RecordId) (row : Row) (tags : List String) :
    (s.put id row tags).2.IsTidy := by
  intro key kept hkept
  by_cases hkey : key = id
  · subst hkey
    refine ⟨?_, by simp [Store.put]⟩
    rintro rfl
    simp only [Store.put, putTags] at hkept
    split at hkept
    · simp at hkept
    · rename_i hne
      exact hne (by simpa using hkept)
  · have hold : s.tags.get? key = some kept := by
      rw [← hkept]
      simp only [Store.put, putTags]
      split <;> simp [hkey]
    simpa [Store.put, hkey] using h key kept hold

/-- The store without a record and its tags. -/
theorem view_erase (s : Store) (id : RecordId) :
    view ⟨s.rows.erase id, s.tags.erase id⟩ = s.view.erase id := by
  refine Table.ext_get? fun key => ?_
  by_cases h : key = id
  · simp [h]
  · have hjoin : join ⟨s.rows.erase id, s.tags.erase id⟩ key = s.join key :=
      join_congr (by simp [h])
    rw [get?_view, hjoin]
    simp [h]

theorem IsTidy.erase (h : s.IsTidy) (id : RecordId) :
    IsTidy ⟨s.rows.erase id, s.tags.erase id⟩ := by
  intro key kept hkept
  by_cases hkey : key = id
  · simp [hkey] at hkept
  · simp only [Table.get?_erase, hkey, if_false] at hkept ⊢
    exact h key kept hkept

end Store

/-! ## The changes -/

namespace Store

variable {s : Store}

/-- A store into which a record is put stands for the map into which it is put as a whole. -/
theorem put_ledger (s : Store) (r : Record) :
    let put := s.put r.id ⟨r.label, r.value, r.weight, r.createdAt, r.updatedAt⟩ r.tags
    ((.ok put.1, put.2.view) : Except StoreError Record × Ledger) =
      (.ok r, s.view.insert r.id r) := by
  intro put
  have hput : put.1 = r := s.put_fst r.id _ r.tags
  have hview : put.2.view = s.view.insert r.id put.1 := s.view_put r.id _ r.tags
  rw [hview, hput]

theorem create_ledger (s : Store) (now : Timestamp) (r : Record) :
    Ledger.create s.view now r = match s.create now r with
      | .ok (stored, s') => (.ok stored, s'.view)
      | .error e => (.error e, s.view) := by
  unfold Ledger.create create Table.contains
  rw [get?_view]
  cases hrow : s.rows.get? r.id with
  | some row => rfl
  | none => exact (s.put_ledger { r with createdAt := now, updatedAt := none }).symm

theorem update_ledger (s : Store) (now : Timestamp) (r : Record) :
    Ledger.update s.view now r = match s.update now r with
      | .ok (stored, s') => (.ok stored, s'.view)
      | .error e => (.error e, s.view) := by
  unfold Ledger.update update
  rw [get?_view]
  cases hrow : s.rows.get? r.id with
  | none => rfl
  | some row =>
    exact (s.put_ledger { r with
      createdAt := row.createdAt, updatedAt := some (now.latest row.createdAt) }).symm

theorem delete_ledger (s : Store) (id : RecordId) :
    Ledger.delete s.view id = match s.delete id with
      | .ok s' => (.ok (), s'.view)
      | .error e => (.error e, s.view) := by
  unfold Ledger.delete delete Table.contains
  rw [get?_view]
  cases hrow : s.rows.get? id with
  | some row => exact Prod.ext rfl (s.view_erase id).symm
  | none => rfl

theorem IsTidy.create (h : s.IsTidy) {now : Timestamp} {r stored : Record} {s' : Store}
    (eq : s.create now r = .ok (stored, s')) : s'.IsTidy := by
  unfold Store.create at eq
  split at eq
  · cases eq
  · cases eq
    exact h.put _ _ _

theorem IsTidy.update (h : s.IsTidy) {now : Timestamp} {r stored : Record} {s' : Store}
    (eq : s.update now r = .ok (stored, s')) : s'.IsTidy := by
  unfold Store.update at eq
  split at eq
  · cases eq
    exact h.put _ _ _
  · cases eq

theorem IsTidy.delete (h : s.IsTidy) {id : RecordId} {s' : Store} (eq : s.delete id = .ok s') :
    s'.IsTidy := by
  unfold Store.delete at eq
  split at eq
  · cases eq
    exact h.erase id
  · cases eq

end Store

/-- A call does to the map that the store stands for what it does to a plain map, and gives the same
answer.  The store stays tidy. -/
theorem Backend.serve_ledger {b : Backend} (tidy : b.store.IsTidy) (c : Circumstances)
    (q : StoreCall) :
    (b.serve c q.call).reply = some (Ledger.serve b.store.view c.now q).1 ∧
      (b.serve c q.call).backend.store.view = (Ledger.serve b.store.view c.now q).2 ∧
      (b.serve c q.call).backend.store.IsTidy := by
  cases q with
  | findAll page =>
    refine ⟨?_, rfl, tidy⟩
    simp only [StoreCall.call, serve, Ledger.serve, tidy.represents.findAll]
  | find id =>
    refine ⟨?_, rfl, tidy⟩
    simp only [StoreCall.call, serve, Ledger.serve, Store.find_view]
  | create r =>
    simp only [StoreCall.call, serve, Ledger.serve, Store.create_ledger]
    cases hcreate : b.store.create c.now r with
    | ok made => exact ⟨rfl, rfl, tidy.create hcreate⟩
    | error e => exact ⟨rfl, rfl, tidy⟩
  | update r =>
    simp only [StoreCall.call, serve, Ledger.serve, Store.update_ledger]
    cases hupdate : b.store.update c.now r with
    | ok made => exact ⟨rfl, rfl, tidy.update hupdate⟩
    | error e => exact ⟨rfl, rfl, tidy⟩
  | delete id =>
    simp only [StoreCall.call, serve, Ledger.serve, Store.delete_ledger]
    cases hdelete : b.store.delete id with
    | ok s' => exact ⟨rfl, rfl, tidy.delete hdelete⟩
    | error e => exact ⟨rfl, rfl, tidy⟩

/-! ## One call after another -/

/-- A call of the store, with what it meets. -/
structure StoreVisit where
  ask : StoreCall
  /-- The context of the caller. -/
  ctx : Context
  /-- The signals that have been given. -/
  given : List Nat
  /-- The time of timers. -/
  now : Nat
  /-- The time on the clock of the store. -/
  clock : Timestamp

/-- What callers are told. -/
abbrev StoreAnswer := Simulation.Poll Simulation.Finding Simulation.Task

namespace StoreVisit

/-- The caller is told a reply. -/
def told (v : StoreVisit) (reply : v.ask.call.Reply) : StoreAnswer :=
  .ready (.replied v.ask.call reply)

/-- Whether the context of the caller is interrupted. -/
def check (v : StoreVisit) : Except Interruption Unit :=
  v.ctx.check (v.given.contains ·) v.now

end StoreVisit

/-- What a plain map tells the caller, and what becomes of it.  A call under an interrupted context
has no effect. -/
def Ledger.receive (m : Ledger) (v : StoreVisit) : v.ask.call.Reply × Ledger :=
  match v.check with
  | .error cause => (.error (v.ask.call.interrupted cause), m)
  | .ok () => m.serve v.clock v.ask

/-- What a plain map tells its callers, one after another, and what becomes of it. -/
def Ledger.attend (m : Ledger) : List StoreVisit → List StoreAnswer × Ledger
  | [] => ([], m)
  | v :: visits =>
    (v.told (m.receive v).1 :: (Ledger.attend (m.receive v).2 visits).1,
      (Ledger.attend (m.receive v).2 visits).2)

namespace Simulation.World

/-- The world as a visit finds it. -/
def before (w : World) (v : StoreVisit) : World :=
  { w with given := v.given, now := v.now, clock := v.clock }

/-- What the store tells the caller, and what becomes of the world. -/
def visitStore (w : World) (v : StoreVisit) : World × StoreAnswer :=
  (w.before v).callDirectly v.ctx 0 false v.ask.call

/-- What the store tells its callers, one after another, and what becomes of the world. -/
def attend (w : World) : List StoreVisit → List StoreAnswer × World
  | [] => ([], w)
  | v :: visits =>
    ((w.visitStore v).2 :: ((w.visitStore v).1.attend visits).1,
      ((w.visitStore v).1.attend visits).2)

@[simp] theorem serve_fst (w : World) (spans : List Span) (ttl : Nat) (silent : Bool)
    (call : PortCall) :
    (w.serve spans ttl silent call).1 = (w.backend.serve (w.circumstances ttl silent) call).reply :=
  rfl

@[simp] theorem serve_backend (w : World) (spans : List Span) (ttl : Nat) (silent : Bool)
    (call : PortCall) :
    (w.serve spans ttl silent call).2.backend =
      (w.backend.serve (w.circumstances ttl silent) call).backend := by
  unfold serve
  dsimp only
  split <;> rfl

/-- A port that is called directly under an interrupted context only says so. -/
theorem callDirectly_of_error {w : World} {ctx : Context} {cause : Interruption}
    (h : w.check ctx = .error cause) (ttl : Nat) (silent : Bool) (call : PortCall) :
    w.callDirectly ctx ttl silent call =
      (w, .ready (.replied call (.error (call.interrupted cause)))) := by
  simp only [callDirectly, h]

/-- A port that is called directly carries the call out, unless the context is interrupted. -/
theorem callDirectly_of_ok {w : World} {ctx : Context} (h : w.check ctx = .ok ()) (ttl : Nat)
    (silent : Bool) (call : PortCall) :
    (w.callDirectly ctx ttl silent call).1.backend =
        (w.backend.serve (w.circumstances ttl silent) call).backend ∧
      (w.callDirectly ctx ttl silent call).2 =
        (w.backend.serve (w.circumstances ttl silent) call).reply.elim .broken
          fun reply => .ready (.replied call reply) := by
  have hreply := w.serve_fst [] ttl silent call
  have hbackend := w.serve_backend [] ttl silent call
  unfold callDirectly
  rw [h]
  rcases hserve : w.serve [] ttl silent call with ⟨_ | reply, w'⟩
  all_goals
    rw [hserve] at hreply hbackend
    exact ⟨hbackend, by rw [← hreply]; rfl⟩

/-- A visit under an interrupted context is told so. -/
theorem visitStore_of_error {w : World} {v : StoreVisit} {cause : Interruption}
    (h : v.check = .error cause) :
    w.visitStore v = (w.before v, v.told (.error (v.ask.call.interrupted cause))) := by
  have hcheck : (w.before v).check v.ctx = .error cause := h
  rw [visitStore, callDirectly_of_error hcheck]
  rfl

/-- A visit under any other context is told the reply of the store. -/
theorem visitStore_of_ok {w : World} {v : StoreVisit} (h : v.check = .ok ()) :
    (w.visitStore v).1.backend =
        (w.backend.serve ((w.before v).circumstances 0 false) v.ask.call).backend ∧
      (w.visitStore v).2 =
        (w.backend.serve ((w.before v).circumstances 0 false) v.ask.call).reply.elim .broken
          v.told :=
  (w.before v).callDirectly_of_ok h 0 false v.ask.call

/-- A caller of the store is told what a plain map would tell it. -/
theorem visitStore_ledger {w : World} (tidy : w.backend.store.IsTidy) (v : StoreVisit) :
    (w.visitStore v).2 = v.told (Ledger.receive w.backend.store.view v).1 ∧
      (w.visitStore v).1.backend.store.view = (Ledger.receive w.backend.store.view v).2 ∧
      (w.visitStore v).1.backend.store.IsTidy := by
  unfold Ledger.receive
  cases hcheck : v.check with
  | error cause =>
    rw [visitStore_of_error hcheck]
    exact ⟨rfl, rfl, tidy⟩
  | ok _ =>
    obtain ⟨hbackend, htold⟩ := visitStore_of_ok (w := w) hcheck
    obtain ⟨hreply, hview, htidy⟩ :=
      Backend.serve_ledger tidy ((w.before v).circumstances 0 false) v.ask
    rw [hreply] at htold
    rw [hbackend]
    exact ⟨htold, hview, htidy⟩

/-- A visit that is told of a failure leaves the store, the cache and the journal as they were. -/
theorem backend_of_failed_visit {w : World} {v : StoreVisit} {e : v.ask.call.Failure}
    (h : (w.visitStore v).2 = v.told (.error e)) : (w.visitStore v).1.backend = w.backend := by
  cases hcheck : v.check with
  | error cause =>
    rw [visitStore_of_error hcheck]
    rfl
  | ok _ =>
    obtain ⟨hbackend, htold⟩ := visitStore_of_ok (w := w) hcheck
    rw [hbackend]
    refine Backend.serve_of_not_ok fun value hvalue => ?_
    rw [hvalue] at htold
    cases htold.symm.trans h

/-- Callers are told one after another what a plain map would tell them. -/
theorem attend_ledger {w : World} (tidy : w.backend.store.IsTidy) (visits : List StoreVisit) :
    (w.attend visits).1 = (Ledger.attend w.backend.store.view visits).1 ∧
      (w.attend visits).2.backend.store.view = (Ledger.attend w.backend.store.view visits).2 ∧
      (w.attend visits).2.backend.store.IsTidy := by
  induction visits generalizing w with
  | nil => exact ⟨rfl, rfl, tidy⟩
  | cons v visits ih =>
    obtain ⟨htold, hview, htidy⟩ := visitStore_ledger tidy v
    obtain ⟨hrest, hlast, htidy'⟩ := ih htidy
    rw [hview] at hrest hlast
    refine ⟨?_, hlast, htidy'⟩
    simp only [attend, Ledger.attend, htold, hrest]

/-- A store that starts with nothing answers all calls as a plain map does, and in the end it
represents the map.  A call that is answered by an error leaves everything as it was. -/
theorem store_refines_plain_map (w : World) (visits : List StoreVisit) :
    let start := { w with backend.store := {} }
    (start.attend visits).1 = (Ledger.attend .empty visits).1 ∧
      (start.attend visits).2.backend.store.Represents (Ledger.attend .empty visits).2 ∧
      ∀ (w' : World) (v : StoreVisit) (e : v.ask.call.Failure),
        (w'.visitStore v).2 = v.told (.error e) → (w'.visitStore v).1.backend = w'.backend := by
  intro start
  have tidy : start.backend.store.IsTidy := fun id tags htags => by cases htags
  obtain ⟨hanswers, hview, htidy⟩ := attend_ledger tidy visits
  refine ⟨hanswers, ?_, fun w' v e => backend_of_failed_visit⟩
  have hrepresents := htidy.represents
  rwa [hview] at hrepresents

/-- A visit in the fifth minute of 1970 by a caller who has a signal. -/
def visitInMinute (ask : StoreCall) (given : List Nat := []) : StoreVisit where
  ask
  ctx := { signal := some 0 }
  given
  now := 0
  clock := .minute 5

/-- A record is created twice, loses its only tag and gets another, and is then deleted under a
context that has been cancelled. -/
def tagsOfDraft : List StoreVisit :=
  [visitInMinute (.create { Record.draft 3 with tags := ["a"] }),
    visitInMinute (.create (.draft 3)),
    visitInMinute (.update (.draft 3)),
    visitInMinute (.update { Record.draft 3 with tags := ["b"] }),
    visitInMinute (.delete (.ofNat 5)) [0]]

theorem store_refines_map_in_tagsOfDraft :
    let w : World := { clock := .minute 0 }
    let last := { Record.draft 5 with tags := ["b"], updatedAt := some (.minute 5) }
    (w.attend tagsOfDraft).1.length = 5 ∧ (w.attend tagsOfDraft).2.backend.store.size = 1 ∧
      (w.attend tagsOfDraft).2.backend.store.find (.ofNat 5) = .ok last ∧
      (w.attend tagsOfDraft).2.backend.store.childRows (.ofNat 5) = 1 ∧
      (w.visitStore (visitInMinute (.delete (.ofNat 5)))).1.backend = w.backend := by
  intro w last
  have hstart : { w with backend.store := {} } = w := rfl
  have hmap : (Ledger.attend .empty tagsOfDraft).2 = Table.empty.insert (.ofNat 5) last := rfl
  have hrefines := store_refines_plain_map w tagsOfDraft
  rw [hstart, hmap] at hrefines
  obtain ⟨hanswers, hlast, hfailed⟩ := hrefines
  refine ⟨?_, hlast.size, ?_, ?_, hfailed w _ (.notFound (.ofNat 5)) rfl⟩
  · rw [hanswers]
    rfl
  · rw [hlast.find]
    rfl
  · rw [hlast.childRows]
    rfl

end Simulation.World

end CacheAside
