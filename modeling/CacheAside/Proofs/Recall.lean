import CacheAside.Proofs.Cache
import CacheAside.Proofs.Ledger
import CacheAside.Proofs.Time
import CacheAside.Proofs.Validation

/-!
# What a cache recalls

The cache drops entries that have expired, some when they are looked up and some when it is purged.
None of this can be told from its answers, as long as its clock never goes back: they are what a
look at the past says (`recalled`), the record that was put in last for an identifier and not taken
out since, if it has not expired.

The cache holds nothing but what was put in last, and of that at least what has not expired
(`Cache.Recalls`).  Each visit keeps this up (`World.visitCache_spec`), and from there on it is an
induction over the past.
-/

namespace CacheAside

/-! ## Visits -/

/-- What is asked of a cache. -/
inductive CacheAsk where
  /-- Put a record in for some nanoseconds. -/
  | keep (record : Record) (ttl : Nat)
  | get (id : RecordId)
  | evict (id : RecordId)
  /-- Drop all entries that have expired. -/
  | purge
  | peek (id : RecordId)
  /-- Count the entries that have not expired. -/
  | size
  deriving DecidableEq

/-- The call of the cache's port, if it is one that is made under a context. -/
def CacheAsk.call? : CacheAsk → Option PortCall
  | .keep r _ => some (.writeCache (.keep r))
  | .get id => some (.lookUp id)
  | .evict id => some (.writeCache (.evict id))
  | _ => none

/-- For how many nanoseconds an entry is to live that is put in. -/
def CacheAsk.ttl : CacheAsk → Nat
  | .keep _ ttl => ttl
  | _ => 0

/-- A call of the cache, with what it meets. -/
structure CacheVisit where
  ask : CacheAsk
  /-- The context of the caller. -/
  ctx : Context
  /-- The signals that have been given. -/
  given : List Nat
  /-- The time of timers. -/
  now : Nat
  /-- The time on the clock of the cache. -/
  clock : Timestamp

namespace CacheVisit

/-- Whether the context of the caller is interrupted. -/
def check (v : CacheVisit) : Except Interruption Unit :=
  v.ctx.check (v.given.contains ·) v.now

/-- The visit may put in or take out the entry of an identifier. -/
def isAbout (v : CacheVisit) (id : RecordId) : Bool :=
  match v.ask with
  | .keep r _ => r.id = id
  | .evict key => key = id
  | _ => false

/-- The visit asks for what the cache recalls. -/
def isRead (v : CacheVisit) : Bool :=
  match v.ask with
  | .get _ => true
  | .peek _ => true
  | .size => true
  | _ => false

/-- The visit may put in or take out an entry. -/
def isWrite (v : CacheVisit) : Bool :=
  match v.ask with
  | .keep _ _ => true
  | .evict _ => true
  | _ => false

/-- What the visit has put in for an identifier, `none` if it has taken it out; or else there is no
effect. -/
def effect? (v : CacheVisit) (id : RecordId) : Option (Option CacheEntry) :=
  match v.check, v.ask with
  | .ok (), .keep r ttl =>
    match Cache.expiry v.clock ttl with
    | .ok moment => if r.id = id then some (some ⟨r, moment⟩) else none
    | .error _ => none
  | .ok (), .evict key => if key = id then some none else none
  | _, _ => none

end CacheVisit

/-- The entry that was put in last for an identifier, unless it has been taken out since.  The
latest visit comes first. -/
def lastKept : List CacheVisit → RecordId → Option CacheEntry
  | [], _ => none
  | v :: past, id =>
    match v.effect? id with
    | some kept => kept
    | none => lastKept past id

/-- The record that was put in last and neither taken out nor has expired. -/
def recalled (past : List CacheVisit) (now : Timestamp) (id : RecordId) : Option Record :=
  ((lastKept past id).filter (·.isLive now)).map (·.record)

/-- The clock never goes back.  The latest visit comes first. -/
def InOrder (visits : List CacheVisit) : Prop :=
  visits.Pairwise fun later earlier => ¬ later.clock < earlier.clock

instance (visits : List CacheVisit) : Decidable (InOrder visits) :=
  inferInstanceAs (Decidable (visits.Pairwise _))

/-- So many identifiers have a property. -/
def Counts (n : Nat) (P : RecordId → Prop) : Prop :=
  ∃ ids : List RecordId, ids.Nodup ∧ (∀ id, id ∈ ids ↔ P id) ∧ ids.length = n

theorem Counts.unique {n n' : Nat} {P : RecordId → Prop} (h : Counts n P) (h' : Counts n' P) :
    n = n' := by
  obtain ⟨ids, nodup, mem, rfl⟩ := h
  obtain ⟨ids', nodup', mem', rfl⟩ := h'
  refine List.Perm.length_eq ((List.perm_ext_iff_of_nodup nodup nodup').mpr fun id => ?_)
  rw [mem, mem']

namespace CacheVisit

/-- What a call is told under the context of the caller: that it is interrupted, or the reply. -/
def reply (v : CacheVisit) (call : PortCall) (reply : call.Reply) : Simulation.Finding :=
  match v.check with
  | .error cause => .replied call (.error (call.interrupted cause))
  | .ok () => .replied call reply

/-- The caller is told what the past says.  How many entries were dropped it does not say, nor what
comes of a time to live that does not end in a moment. -/
def IsTold (v : CacheVisit) (past : List CacheVisit)
    (told : Simulation.Poll Simulation.Finding Simulation.Task) : Prop :=
  match v.ask with
  | .keep r ttl => (∃ moment, Cache.expiry v.clock ttl = .ok moment) →
      told = .ready (v.reply (.writeCache (.keep r)) (.ok ()))
  | .get id => told = .ready (v.reply (.lookUp id) (.ok (recalled past v.clock id)))
  | .evict id => told = .ready (v.reply (.writeCache (.evict id)) (.ok ()))
  | .purge => ∃ n, told = .ready (.count n)
  | .peek id => told = .ready (.entry (recalled past v.clock id))
  | .size => ∃ n, told = .ready (.count n) ∧ Counts n fun id => (recalled past v.clock id).isSome

/-! ## What the past says -/

/-- Whoever reads is told the same of two pasts that say the same. -/
theorem IsTold.congr {v : CacheVisit} {past past' : List CacheVisit}
    {told told' : Simulation.Poll Simulation.Finding Simulation.Task} (read : v.isRead = true)
    (h : v.IsTold past told) (h' : v.IsTold past' told')
    (same : ∀ id, (v.ask = .size ∨ v.ask = .get id ∨ v.ask = .peek id) →
      recalled past' v.clock id = recalled past v.clock id) : told' = told := by
  unfold IsTold at h h'
  cases hask : v.ask with
  | keep r ttl => rw [isRead, hask] at read; cases read
  | evict id => rw [isRead, hask] at read; cases read
  | purge => rw [isRead, hask] at read; cases read
  | get id =>
    rw [hask] at h h'
    rw [h, h', same id (.inr (.inl hask))]
  | peek id =>
    rw [hask] at h h'
    rw [h, h', same id (.inr (.inr hask))]
  | size =>
    rw [hask] at h h'
    obtain ⟨n, rfl, hcounts⟩ := h
    obtain ⟨n', rfl, hcounts'⟩ := h'
    have hsame (id : RecordId) := same id (.inl hask)
    simp only [hsame] at hcounts'
    rw [hcounts'.unique hcounts]

theorem effect?_eq_none {v : CacheVisit} {id : RecordId} (h : v.isAbout id = false) :
    v.effect? id = none := by
  unfold isAbout at h
  unfold effect?
  split
  · rename_i r ttl hcheck hask
    rw [hask] at h
    have hother : ¬ r.id = id := of_decide_eq_false h
    split
    · rw [if_neg hother]
    · rfl
  · rename_i key hcheck hask
    rw [hask] at h
    exact if_neg (of_decide_eq_false h)
  · rfl

theorem isWrite_of_isAbout {v : CacheVisit} {id : RecordId} (h : v.isAbout id = true) :
    v.isWrite = true := by
  unfold isAbout at h
  unfold isWrite
  split at h
  · rfl
  · rfl
  · cases h

theorem effect?_of_other {v : CacheVisit} (h : v.isWrite = false) (id : RecordId) :
    v.effect? id = none := by
  refine effect?_eq_none (Bool.eq_false_iff.mpr fun habout => ?_)
  rw [isWrite_of_isAbout habout] at h
  cases h

theorem effect?_of_error {v : CacheVisit} {cause : Interruption} (h : v.check = .error cause)
    (id : RecordId) : v.effect? id = none := by
  simp only [effect?, h]

end CacheVisit

/-- Only visits about an identifier count for what was kept for it. -/
theorem lastKept_filter (past : List CacheVisit) (id : RecordId) :
    lastKept (past.filter (·.isAbout id)) id = lastKept past id := by
  induction past with
  | nil => rfl
  | cons v past ih =>
    cases habout : v.isAbout id with
    | true =>
      rw [List.filter_cons_of_pos (by simpa using habout)]
      simp only [lastKept, ih]
    | false =>
      rw [List.filter_cons_of_neg (by simp [habout])]
      simp only [lastKept, CacheVisit.effect?_eq_none habout, ih]

/-- Two pasts with the same visits about an identifier say the same about it. -/
theorem recall_congr {past past' : List CacheVisit} {id : RecordId}
    (same : past'.filter (·.isAbout id) = past.filter (·.isAbout id)) (now : Timestamp) :
    recalled past' now id = recalled past now id := by
  unfold recalled
  rw [← lastKept_filter past', same, lastKept_filter past]

/-- Two pasts with the same writes have the same visits about every identifier. -/
theorem filter_isAbout_of_isWrite {past past' : List CacheVisit}
    (same : past'.filter (·.isWrite) = past.filter (·.isWrite)) (id : RecordId) :
    past'.filter (·.isAbout id) = past.filter (·.isAbout id) := by
  have hboth (past : List CacheVisit) : (past.filter (·.isWrite)).filter (·.isAbout id) =
      past.filter (·.isAbout id) := by
    rw [List.filter_filter]
    refine List.filter_congr fun v _ => ?_
    cases habout : v.isAbout id with
    | true => rw [CacheVisit.isWrite_of_isAbout habout, Bool.and_true]
    | false => exact Bool.false_and _
  rw [← hboth past', same, hboth past]

/-! ## What the cache holds -/

namespace Cache

variable {c c' : Cache} {past : List CacheVisit} {now : Timestamp} {id : RecordId} {e : CacheEntry}

/-- The cache holds nothing but what was put in last, and at least what of that has not expired. -/
structure Recalls (c : Cache) (past : List CacheVisit) (now : Timestamp) : Prop where
  kept : ∀ id e, c.entries.get? id = some e → lastKept past id = some e
  live : ∀ id e, lastKept past id = some e → now < e.expiresAt → c.entries.get? id = some e

/-- Nothing has happened to the cache, but that entries which have expired may be gone. -/
structure Sweeps (c c' : Cache) (now : Timestamp) : Prop where
  fewer : ∀ id e, c'.entries.get? id = some e → c.entries.get? id = some e
  live : ∀ id e, c.entries.get? id = some e → now < e.expiresAt → c'.entries.get? id = some e

theorem Sweeps.refl (c : Cache) (now : Timestamp) : Sweeps c c now :=
  ⟨fun _ _ h => h, fun _ _ h _ => h⟩

/-- A look-up drops no entry that has not expired. -/
theorem get_sweeps (c : Cache) (now : Timestamp) (id : RecordId) :
    Sweeps c (c.get now id).2 now := by
  refine ⟨fun key e h => entry_of_get h, fun key e h hlive => ?_⟩
  unfold get
  split
  · rename_i e' he'
    split
    · exact h
    · rename_i hdead
      rw [Table.get?_erase, if_neg, h]
      rintro rfl
      cases h.symm.trans he'
      exact hdead (decide_eq_true hlive)
  · exact h

/-- Nor does a purge. -/
theorem purge_sweeps (c : Cache) (now : Timestamp) : Sweeps c (c.purge now).2 now := by
  constructor
  · intro id e h
    rw [purge, Table.get?_filter, Option.filter_eq_some_iff] at h
    exact h.1
  · intro id e h hlive
    rw [purge, Table.get?_filter, Option.filter_eq_some_iff]
    exact ⟨h, decide_eq_true hlive⟩

/-- The record of an entry that counts. -/
theorem peek_eq (c : Cache) (now : Timestamp) (id : RecordId) :
    c.peek now id = ((c.entries.get? id).filter (·.isLive now)).map (·.record) := by
  unfold peek
  split
  · rename_i e he
    rw [he]
    cases hlive : e.isLive now <;> simp [Option.filter, hlive]
  · rename_i he
    rw [he]
    rfl

theorem get_eq (c : Cache) (now : Timestamp) (id : RecordId) :
    (c.get now id).1 = c.peek now id := by
  unfold get peek
  split
  · split <;> rfl
  · rfl

/-- The number of records that can be seen. -/
theorem counts_size (c : Cache) (now : Timestamp) :
    Counts (c.size now) fun id => (c.peek now id).isSome := by
  have hsorted := (c.entries.filter (·.isLive now)).sorted
  refine ⟨(c.entries.filter (·.isLive now)).entries.map (·.1), ?_, fun id => ?_, List.length_map _⟩
  · refine List.pairwise_map.mpr (hsorted.imp fun {a b} hlt heq => ?_)
    rw [heq] at hlt
    exact Ident.lt_irrefl _ hlt
  · show _ ↔ (c.peek now id).isSome = true
    rw [peek_eq, Option.isSome_map, ← Table.get?_filter, Option.isSome_iff_exists, List.mem_map]
    constructor
    · rintro ⟨⟨key, e⟩, hmem, rfl⟩
      exact ⟨e, (Table.mem_entries_iff _ _ _).mp hmem⟩
    · rintro ⟨e, he⟩
      exact ⟨(id, e), (Table.mem_entries_iff _ _ _).mpr he, rfl⟩

namespace Recalls

theorem empty (now : Timestamp) : Recalls {} [] now :=
  ⟨fun _ _ h => (by cases h), fun _ _ h => (by cases h)⟩

/-- What the cache recalls now it still recalls later. -/
theorem later (h : c.Recalls past now) {later : Timestamp} (forward : ¬ later < now) :
    c.Recalls past later :=
  ⟨h.kept, fun id e kept hlive => h.live id e kept (Timestamp.lt_of_not_lt_of_lt forward hlive)⟩

/-- Whatever is gone has expired, so it need not be there. -/
theorem sweep (h : c.Recalls past now) (sweeps : Sweeps c c' now) : c'.Recalls past now :=
  ⟨fun id e he => h.kept id e (sweeps.fewer id e he),
    fun id e he hlive => sweeps.live id e (h.live id e he hlive) hlive⟩

/-- What can be seen is what the past says. -/
theorem peek (h : c.Recalls past now) (id : RecordId) : c.peek now id = recalled past now id := by
  rw [peek_eq, recalled]
  congr 1
  refine Option.ext fun e => ?_
  rw [Option.filter_eq_some_iff, Option.filter_eq_some_iff]
  constructor
  · rintro ⟨he, hlive⟩
    exact ⟨h.kept id e he, hlive⟩
  · rintro ⟨he, hlive⟩
    exact ⟨h.live id e he (of_decide_eq_true hlive), hlive⟩

/-- What is put in is recalled from then on, instead of what was there. -/
theorem keep (h : c.Recalls past now) {v : CacheVisit} {r : Record} {ttl : Nat}
    {moment : Timestamp} (passed : v.check = .ok ()) (asked : v.ask = .keep r ttl)
    (expires : expiry v.clock ttl = .ok moment) :
    Recalls ⟨c.entries.insert r.id ⟨r, moment⟩⟩ (v :: past) now := by
  have heffect (id : RecordId) :
      v.effect? id = if r.id = id then some (some ⟨r, moment⟩) else none := by
    simp only [CacheVisit.effect?, passed, asked, expires]
  constructor
  · intro id e he
    rw [Table.get?_insert] at he
    simp only [lastKept, heffect]
    split at he
    · rename_i hid
      rw [if_pos hid.symm]
      exact he
    · rename_i hid
      rw [if_neg fun heq => hid heq.symm]
      exact h.kept id e he
  · intro id e he hlive
    rw [Table.get?_insert]
    simp only [lastKept, heffect] at he
    split
    · rename_i hid
      rw [if_pos hid.symm] at he
      exact he
    · rename_i hid
      rw [if_neg fun heq => hid heq.symm] at he
      exact h.live id e he hlive

/-- What is taken out is not recalled any more. -/
theorem evict (h : c.Recalls past now) {v : CacheVisit} {key : RecordId}
    (passed : v.check = .ok ()) (asked : v.ask = .evict key) :
    (c.delete key).Recalls (v :: past) now := by
  have heffect (id : RecordId) : v.effect? id = if key = id then some none else none := by
    simp only [CacheVisit.effect?, passed, asked]
  constructor
  · intro id e he
    rw [delete, Table.get?_erase] at he
    simp only [lastKept, heffect]
    split at he
    · cases he
    · rename_i hid
      rw [if_neg fun heq => hid heq.symm]
      exact h.kept id e he
  · intro id e he hlive
    rw [delete, Table.get?_erase]
    simp only [lastKept, heffect] at he
    split
    · rename_i hid
      rw [if_pos hid.symm] at he
      cases he
    · rename_i hid
      rw [if_neg fun heq => hid heq.symm] at he
      exact h.live id e he hlive

/-- A visit without effect adds nothing to what the past says. -/
theorem idle (h : c.Recalls past now) {v : CacheVisit} (none : ∀ id, v.effect? id = none) :
    c.Recalls (v :: past) now := by
  have hsame (id : RecordId) : lastKept (v :: past) id = lastKept past id := by
    simp only [lastKept, none]
  exact ⟨fun id e he => (hsame id).trans (h.kept id e he),
    fun id e he hlive => h.live id e ((hsame id).symm.trans he) hlive⟩

end Recalls

end Cache

/-! ## One visit after another -/

namespace Simulation.World

/-- The world as a visit to the cache finds it. -/
def meeting (w : World) (v : CacheVisit) : World :=
  { w with given := v.given, now := v.now, clock := v.clock }

/-- What the cache tells the caller, and what becomes of the world. -/
def visitCache (w : World) (v : CacheVisit) : World × Poll Finding Task :=
  match v.ask with
  | .keep r ttl => (w.meeting v).callDirectly v.ctx ttl false (.writeCache (.keep r))
  | .get id => (w.meeting v).callDirectly v.ctx 0 false (.lookUp id)
  | .evict id => (w.meeting v).callDirectly v.ctx 0 false (.writeCache (.evict id))
  | .purge => (w.meeting v).start v.ctx .purge
  | .peek id => (w.meeting v).start v.ctx (.peek id)
  | .size => (w.meeting v, .ready (.count (w.backend.cache.size v.clock)))

/-- The world after some visits, the latest of which comes first. -/
def afterVisits (w : World) : List CacheVisit → World
  | [] => w
  | v :: past => ((w.afterVisits past).visitCache v).1

variable {w : World} {v : CacheVisit} {past : List CacheVisit} {now : Timestamp}

/-- A call of the cache's port goes there directly. -/
theorem visitCache_of_call {call : PortCall} (asked : v.ask.call? = some call) :
    w.visitCache v = (w.meeting v).callDirectly v.ctx v.ask.ttl false call := by
  unfold visitCache
  cases hask : v.ask with
  | keep r ttl =>
    cases hask ▸ asked
    rfl
  | get id =>
    cases hask ▸ asked
    rfl
  | evict id =>
    cases hask ▸ asked
    rfl
  | purge => cases hask ▸ asked
  | peek id => cases hask ▸ asked
  | size => cases hask ▸ asked

/-- A call under an interrupted context is told so, and has no effect. -/
theorem visitCache_of_error {cause : Interruption} (h : v.check = .error cause) {call : PortCall}
    (asked : v.ask.call? = some call) :
    (w.visitCache v).2 = .ready (.replied call (.error (call.interrupted cause))) ∧
      (w.visitCache v).1.backend = w.backend := by
  have hcheck : (w.meeting v).check v.ctx = .error cause := h
  rw [visitCache_of_call asked, callDirectly_of_error hcheck]
  exact ⟨rfl, rfl⟩

/-- What the cache's port replies to a visit, if the context is not interrupted. -/
def served (w : World) (v : CacheVisit) (call : PortCall) : Served call :=
  w.backend.serve ((w.meeting v).circumstances v.ask.ttl false) call

/-- What a call of the cache's port makes of what the cache recalls, and what the caller is told. -/
theorem visit_call (call : PortCall) (h : w.backend.cache.Recalls past v.clock)
    (asked : v.ask.call? = some call)
    (recalls : v.check = .ok () → (w.served v call).backend.cache.Recalls (v :: past) v.clock) :
    (w.visitCache v).1.backend.cache.Recalls (v :: past) v.clock ∧
      ∀ reply, (w.served v call).reply = some reply →
        (w.visitCache v).2 = .ready (v.reply call reply) := by
  cases hcheck : v.check with
  | error cause =>
    obtain ⟨htold, hbackend⟩ := visitCache_of_error (w := w) hcheck asked
    refine ⟨?_, fun reply _ => ?_⟩
    · rw [hbackend]
      exact h.idle (CacheVisit.effect?_of_error hcheck)
    · simp only [htold, CacheVisit.reply, hcheck]
  | ok _ =>
    have hpassed : (w.meeting v).check v.ctx = .ok () := hcheck
    obtain ⟨hbackend, htold⟩ := callDirectly_of_ok hpassed v.ask.ttl false call
    rw [visitCache_of_call asked]
    refine ⟨?_, fun reply hreply => ?_⟩
    · rw [hbackend]
      exact recalls hcheck
    · have hserved : (w.served v call).reply = some reply := hreply
      rw [htold]
      simp only [CacheVisit.reply, hcheck]
      exact congrArg (Option.elim · _ _) hserved

/-- A record that is put in is recalled, if it can be told when it expires. -/
theorem served_keep (h : w.backend.cache.Recalls past v.clock) {r : Record} {ttl : Nat}
    (asked : v.ask = .keep r ttl) (passed : v.check = .ok ()) :
    (w.served v (.writeCache (.keep r))).backend.cache.Recalls (v :: past) v.clock := by
  obtain ⟨c, hc⟩ : ∃ c, c = (w.meeting v).circumstances v.ask.ttl false := ⟨_, rfl⟩
  have hexpires : Cache.expiry c.now c.ttl = Cache.expiry v.clock ttl := by
    rw [hc, asked]
    rfl
  rw [served, ← hc]
  cases hexpiry : Cache.expiry v.clock ttl with
  | ok moment =>
    rw [Backend.serve_keep_of_expiry (hexpires.trans hexpiry)]
    exact h.keep passed asked hexpiry
  | error fault =>
    have hsame : (w.backend.serve c (.writeCache (.keep r))).backend = w.backend := by
      refine Backend.serve_of_not_ok fun value hvalue => ?_
      obtain ⟨moment, hmoment⟩ := Backend.serve_keep_eq_ok.mp hvalue
      cases (hexpires.trans hexpiry).symm.trans hmoment
    rw [hsame]
    refine h.idle fun id => ?_
    simp only [CacheVisit.effect?, passed, asked, hexpiry]

/-- What a visit to the cache makes of what it recalls, and what the caller is told. -/
theorem visitCache_spec (h : w.backend.cache.Recalls past now) (forward : ¬ v.clock < now) :
    (w.visitCache v).1.backend.cache.Recalls (v :: past) v.clock ∧
      v.IsTold past (w.visitCache v).2 := by
  have hlater := h.later forward
  have hidle (other : v.isWrite = false) {c : Cache} (recalls : c.Recalls past v.clock) :
      c.Recalls (v :: past) v.clock :=
    recalls.idle fun id => CacheVisit.effect?_of_other other id
  unfold CacheVisit.IsTold
  cases hask : v.ask with
  | keep r ttl =>
    obtain ⟨hrecalls, htold⟩ := visit_call (.writeCache (.keep r)) hlater
      (by rw [hask, CacheAsk.call?]) (served_keep hlater hask)
    refine ⟨hrecalls, fun expires => htold _ (Backend.serve_keep_eq_ok.mpr ?_)⟩
    rw [hask]
    exact expires
  | get id =>
    have hother : v.isWrite = false := by rw [CacheVisit.isWrite, hask]
    have hswept := hlater.sweep (Cache.get_sweeps w.backend.cache v.clock id)
    obtain ⟨hrecalls, htold⟩ := visit_call (.lookUp id) hlater
      (by rw [hask, CacheAsk.call?]) fun _ => hidle hother hswept
    refine ⟨hrecalls, htold _ ?_⟩
    rw [← hlater.peek, ← Cache.get_eq]
    rfl
  | evict id =>
    obtain ⟨hrecalls, htold⟩ := visit_call (.writeCache (.evict id)) hlater
      (by rw [hask, CacheAsk.call?]) fun passed => hlater.evict passed hask
    exact ⟨hrecalls, htold _ rfl⟩
  | purge =>
    have hother : v.isWrite = false := by rw [CacheVisit.isWrite, hask]
    have hswept := hlater.sweep (Cache.purge_sweeps w.backend.cache v.clock)
    simp only [visitCache, hask]
    exact ⟨hidle hother hswept, _, rfl⟩
  | peek id =>
    have hother : v.isWrite = false := by rw [CacheVisit.isWrite, hask]
    simp only [visitCache, hask]
    refine ⟨hidle hother hlater, ?_⟩
    rw [← hlater.peek]
    rfl
  | size =>
    have hother : v.isWrite = false := by rw [CacheVisit.isWrite, hask]
    simp only [visitCache, hask]
    refine ⟨hidle hother hlater, _, rfl, ?_⟩
    have hcounts := w.backend.cache.counts_size v.clock
    simpa only [hlater.peek] using hcounts

/-- After any visits the cache recalls what the past says, as long as its clock has not gone
back. -/
theorem recalls_afterVisits (empty : w.backend.cache = {}) (forward : InOrder past)
    (latest : ∀ u ∈ past, ¬ now < u.clock) :
    (w.afterVisits past).backend.cache.Recalls past now := by
  induction past generalizing now with
  | nil =>
    rw [afterVisits, empty]
    exact .empty now
  | cons v past ih =>
    obtain ⟨hfirst, hrest⟩ := List.pairwise_cons.mp forward
    have hbefore : (w.afterVisits past).backend.cache.Recalls past v.clock := ih hrest hfirst
    have hvisited := visitCache_spec hbefore v.clock.lt_irrefl
    exact hvisited.1.later (latest v (.head _))

theorem isTold_afterVisits (empty : w.backend.cache = {}) (forward : InOrder (v :: past)) :
    v.IsTold past ((w.afterVisits past).visitCache v).2 := by
  obtain ⟨hfirst, hrest⟩ := List.pairwise_cons.mp forward
  exact (visitCache_spec (recalls_afterVisits empty hrest hfirst) v.clock.lt_irrefl).2

/-- Look-ups and purges drop nothing but what has expired. -/
theorem sweeps_of_visit (w : World) {v : CacheVisit}
    (asked : v.ask = .purge ∨ ∃ id, v.ask = .get id) :
    w.backend.cache.Sweeps (w.visitCache v).1.backend.cache v.clock := by
  rcases asked with hask | ⟨id, hask⟩
  · simp only [visitCache, hask]
    exact w.backend.cache.purge_sweeps v.clock
  · have hcall : v.ask.call? = some (.lookUp id) := by rw [hask, CacheAsk.call?]
    cases hcheck : v.check with
    | error cause =>
      rw [(visitCache_of_error hcheck hcall).2]
      exact .refl _ _
    | ok _ =>
      have hpassed : (w.meeting v).check v.ctx = .ok () := hcheck
      rw [visitCache_of_call hcall, (callDirectly_of_ok hpassed _ _ _).1]
      exact w.backend.cache.get_sweeps v.clock id

/-- A cache that starts with nothing, and whose clock never goes back, answers what the past says:
with the record that was put in last for the identifier and not taken out since, unless it has
expired.  No answer can tell which look-ups and purges there were, or what was done about other
identifiers.  Look-ups and purges drop nothing that has not expired, and a call under an interrupted
context has no effect. -/
theorem cache_recalls_past (w : World) (empty : w.backend.cache = {}) {past : List CacheVisit}
    {v : CacheVisit} (forward : InOrder (v :: past)) :
    v.IsTold past ((w.afterVisits past).visitCache v).2 ∧
      (∀ past', InOrder (v :: past') → past'.filter (·.isWrite) = past.filter (·.isWrite) →
        v.isRead = true →
        ((w.afterVisits past').visitCache v).2 = ((w.afterVisits past).visitCache v).2) ∧
      (∀ past' id, InOrder (v :: past') → past'.filter (·.isAbout id) = past.filter (·.isAbout id) →
        v.ask = .get id ∨ v.ask = .peek id →
        ((w.afterVisits past').visitCache v).2 = ((w.afterVisits past).visitCache v).2) ∧
      (∀ (w : World) (u : CacheVisit), (u.ask = .purge ∨ ∃ id, u.ask = .get id) →
        w.backend.cache.Sweeps (w.visitCache u).1.backend.cache u.clock) ∧
      ∀ (w : World) (u : CacheVisit) (cause : Interruption) (call : PortCall),
        u.check = .error cause → u.ask.call? = some call →
        (w.visitCache u).2 = .ready (.replied call (.error (call.interrupted cause))) ∧
          (w.visitCache u).1.backend = w.backend := by
  have htold := isTold_afterVisits empty forward
  refine ⟨htold, fun past' forward' same read => ?_, fun past' id forward' same asked => ?_,
    fun w u asked => w.sweeps_of_visit asked,
    fun w u cause call interrupted asked => visitCache_of_error interrupted asked⟩
  · refine htold.congr read (isTold_afterVisits empty forward') fun id _ => ?_
    exact recall_congr (filter_isAbout_of_isWrite same id) v.clock
  · have hread : v.isRead = true := by
      rcases asked with hask | hask <;> rw [CacheVisit.isRead, hask]
    refine htold.congr hread (isTold_afterVisits empty forward') fun key hkey => ?_
    -- the visit asks for this identifier and no other
    have hid : key = id := by
      rcases asked with hask | hask <;> rw [hask] at hkey <;> simpa [eq_comm] using hkey
    rw [hid]
    exact recall_congr same v.clock

/-- A visit to the cache in a minute of 1970 by a caller who has a signal. -/
def cacheInMinute (n : Nat) (ask : CacheAsk) (given : List Nat := []) : CacheVisit where
  ask
  ctx := { signal := some 0 }
  given
  now := 0
  clock := .minute n

/-- A record with the identifier of a number. -/
def numbered (n : Nat) (label : String := "old") : Record :=
  { Record.draft 0 with id := .ofNat n, label }

/-- Nanoseconds in some minutes. -/
def minutes (n : Nat) : Nat :=
  60 * n * nanosPerSecond

/-- The latest visit comes first: one record is put in anew for a shorter time, one expires in the
minute in which it is looked up, and one at once; taking the first one out is cancelled. -/
def livesOfEntries : List CacheVisit :=
  [cacheInMinute 2 .purge,
    cacheInMinute 2 (.evict (.ofNat 3)) [0],
    cacheInMinute 2 (.keep (numbered 7) 0),
    cacheInMinute 2 (.keep (numbered 3 "new") (minutes 1)),
    cacheInMinute 2 (.get (.ofNat 5)),
    cacheInMinute 1 (.keep (numbered 5) (minutes 1)),
    cacheInMinute 1 (.keep (numbered 3) (minutes 8))]

/-- The world at the beginning of 1970, with nothing in it. -/
def atMidnight : World where
  clock := .minute 0

theorem cache_recalls_livesOfEntries :
    let get (n : Nat) : CacheVisit := cacheInMinute n (.get (.ofNat 3))
    let w := atMidnight.afterVisits livesOfEntries
    atMidnight.backend.cache = {} ∧ InOrder (get 2 :: livesOfEntries) ∧
      InOrder (get 3 :: livesOfEntries) ∧
      (w.visitCache (get 2)).2 =
        .ready (.replied (.lookUp (.ofNat 3)) (.ok (some (numbered 3 "new")))) ∧
      (w.visitCache (get 3)).2 = .ready (.replied (.lookUp (.ofNat 3)) (.ok none)) ∧
      ∃ n, (w.visitCache (cacheInMinute 2 .size)).2 = .ready (.count n) ∧
        Counts n fun id => (recalled livesOfEntries (.minute 2) id).isSome := by
  intro get w
  have hsecond : InOrder (get 2 :: livesOfEntries) := by decide
  have hthird : InOrder (get 3 :: livesOfEntries) := by decide
  have hcount : InOrder (cacheInMinute 2 .size :: livesOfEntries) := by decide
  refine ⟨rfl, hsecond, hthird, ?_, ?_, ?_⟩
  · exact (cache_recalls_past atMidnight rfl hsecond).1
  · exact (cache_recalls_past atMidnight rfl hthird).1
  · exact (cache_recalls_past atMidnight rfl hcount).1

/-- One entry is left that counts. -/
example : (atMidnight.afterVisits livesOfEntries).backend.cache.size (.minute 2) = 1 := rfl

end Simulation.World

end CacheAside
