import CacheAside.Proofs.Interleaving.Visit
import CacheAside.Simulation.Background
import CacheAside.Simulation.Call

/-!
# Interleavings

A scene is a world together with the requests under way in it.  A request goes through its stages
in strides, each of which asks at most one port, so that the effect of a call and its reply can
fall into one stride.  An act is one stride of one request, one turn of one refresh, or something
that happens around them: a request starts or is left by its caller, time passes, a clock is moved,
faults are handed out, a signal is given.  Nothing says which act comes next, so the lists of acts
are the interleavings, and a run is any number of acts (`Scene.Reaches`).

`Scene.step_act` lists what an act can do.
-/

namespace CacheAside.Simulation

/-- One of the two that are told of a change. -/
inductive Side where
  | cache
  | bus
  deriving DecidableEq, Repr

namespace World

/-- Tells the cache of a change that is being announced, or looks whether it has replied. -/
def tellCache (w : World) (ctx : Context) (spans : List Span) (change : DomainEvent)
    (cache : Branch (.writeCache change.cacheWrite)) (events : Branch (.publish change)) :
    World × Option Point :=
  match w.pollBranch ctx spans (.writeCache change.cacheWrite) change.cacheNotes cache with
  | (w, some cache) => (w, some (.announcing change true cache events))
  | (w, none) => (w, none)

/-- Tells the event bus of a change that is being announced, or looks whether it has replied. -/
def tellBus (w : World) (ctx : Context) (spans : List Span) (change : DomainEvent)
    (cache : Branch (.writeCache change.cacheWrite)) (events : Branch (.publish change)) :
    World × Option Point :=
  match w.pollBranch ctx spans (.publish change) (fun _ => []) events with
  | (w, some events) => (w, some (.announcing change false cache events))
  | (w, none) => (w, none)

/-- What happens when a request at some point is looked at, up to the next time that it asks a port.
Of a change under announcement only one side is looked at.  Nothing is left of a request that breaks
down. -/
def stride (w : World) (ctx : Context) (spans : List Span) (side : Side) :
    Point → World × Option Point
  | .announcing change _ (.replied written) (.replied published) =>
    (w.noteAll ctx spans (change.conclude written published).1,
      some (.finished (change.conclude written published).2))
  | .announcing change _ cache events =>
    match side with
    | .cache => w.tellCache ctx spans change cache events
    | .bus => w.tellBus ctx spans change cache events
  | p =>
    match w.move ctx spans p with
    | (w, .ready point) => (w, some point)
    | (w, .pending point) => (w, some point)
    | (w, .broken) => (w, none)

/-- The change that the store makes when a request at some point is looked at. -/
def change? (w : World) (ctx : Context) : Point → Option DomainEvent
  | .asking ask guarded =>
    if w.acts ctx guarded then (w.servedNow ask.call).reply.bind ask.call.change? else none
  | _ => none

/-- At most the time, the clock, the faults that are to come and the signals that were given have
changed between the two worlds. -/
structure Elapsed (w w' : World) : Prop where
  service : w'.service = w.service
  backend : w'.backend = w.backend
  tracker : w'.tracker = w.tracker
  refreshes : w'.refreshes = w.refreshes
  now : w.now ≤ w'.now
  given : ∀ signal ∈ w.given, signal ∈ w'.given

theorem Elapsed.refl (w : World) : Elapsed w w :=
  ⟨rfl, rfl, rfl, rfl, Nat.le_refl _, fun _ h => h⟩

/-- The refreshes that have started between two worlds. -/
def tickets (w w' : World) : List Ticket :=
  List.range' w.tracker.next (w'.tracker.next - w.tracker.next)

end World

/-- The refreshes that a request at some point waits for. -/
def Point.tickets : Point → List Ticket
  | .settling _ tickets => tickets
  | _ => []

/-- The change that a request at some point has made and is busy with. -/
def Point.change? : Point → Option DomainEvent
  | .settling change _ => some change
  | .announcing change _ _ _ => some change
  | _ => none

/-- The cache has carried out what it was told. -/
def Branch.isTold {write : CacheWrite} : Branch (.writeCache write) → Bool
  | .replied (.ok ()) => true
  | _ => false

/-- Whether the request has come to its end. -/
def Point.isFinished : Point → Bool
  | .finished _ => true
  | _ => false

/-- A request under way, with a number of its own. -/
structure Thread where
  key : Nat
  request : Request
  call : Call

namespace Thread

abbrev point (t : Thread) : Point := t.call.point

/-- The same request at another point. -/
def goTo (t : Thread) (point : Point) : Thread :=
  { t with call := { t.call with point } }

end Thread

structure Scene where
  world : World
  threads : List Thread := []
  /-- All requests so far; they are numbered in this order. -/
  asked : List Request := []
  /-- All changes that the store has made so far. -/
  changes : List DomainEvent := []
  /-- The refreshes that someone waited for whose caller has left. -/
  forsaken : List Ticket := []
  /-- Which request has started which refresh. -/
  spawned : List (Ticket × Nat) := []

inductive Act where
  /-- A caller asks something. -/
  | start (ctx : Context) (request : Request)
  /-- A request makes a stride. -/
  | look (key : Nat) (side : Side)
  /-- The caller of a request takes the outcome, or gives up waiting for it. -/
  | leave (key : Nat)
  /-- A refresh has a turn. -/
  | turn (ticket : Ticket)
  /-- Time passes until `now`. -/
  | pass (now : Nat)
  /-- The clock that stamps records and entries is moved. -/
  | setClock (time : Timestamp)
  /-- The next calls of the ports meet these faults. -/
  | setFaults (faults : List (Port × Fault))
  | give (signal : Nat)

namespace Scene

/-- Nothing is under way yet. -/
structure IsFresh (s : Scene) : Prop where
  threads : s.threads = []
  asked : s.asked = []
  changes : s.changes = []
  forsaken : s.forsaken = []
  spawned : s.spawned = []
  refreshes : s.world.refreshes = []
  slots : s.world.tracker.slots = .empty

/-- The scene with a request in place of the one of the same number. -/
def put (threads : List Thread) (t : Thread) : List Thread :=
  threads.map fun u => if u.key = t.key then t else u

/-- What becomes of a scene by an act.  One that is not possible changes nothing. -/
def act (s : Scene) : Act → Scene
  | .start ctx request =>
    let (world, call) := s.world.openCall ctx request
    { s with
      world
      threads := s.threads ++ [⟨s.asked.length, request, call⟩]
      asked := s.asked ++ [request] }
  | .look key side =>
    match s.threads.find? (·.key = key) with
    | none => s
    | some t =>
      let changes := s.changes ++ (s.world.change? t.call.ctx t.point).toList
      match s.world.stride t.call.ctx t.call.spans side t.point with
      | (world, some point) =>
        { s with
          world, changes
          threads := put s.threads (t.goTo point)
          spawned := s.spawned ++ (s.world.tickets world).map (·, key) }
      | (world, none) => { s with world, changes, threads := s.threads.filter (·.key ≠ key) }
  | .leave key =>
    match s.threads.find? (·.key = key) with
    | none => s
    | some t =>
      { s with
        threads := s.threads.filter (·.key ≠ key)
        forsaken := s.forsaken ++ t.point.tickets }
  | .turn ticket =>
    match s.world.refreshes.find? (·.ticket = ticket) with
    | none => s
    | some r => { s with world := (s.world.turn r).1 }
  | .pass now => { s with world := { s.world with now := max s.world.now now } }
  | .setClock clock => { s with world := { s.world with clock } }
  | .setFaults faults => { s with world := { s.world with faults } }
  | .give signal => { s with world := { s.world with given := signal :: s.world.given } }

/-- The scene after some acts. -/
def perform (s : Scene) (acts : List Act) : Scene :=
  acts.foldl act s

/-- The scenes that can be reached by acts of which each is allowed. -/
inductive Reaches (allowed : Scene → Scene → Prop) (s₀ : Scene) : Scene → Prop where
  | refl : Reaches allowed s₀ s₀
  | act {s : Scene} (a : Act) (run : Reaches allowed s₀ s) (h : allowed s (s.act a)) :
      Reaches allowed s₀ (s.act a)

/-- Any interleaving at all. -/
abbrev Runs : Scene → Scene → Prop :=
  Reaches fun _ _ => True

/-- Each of the acts is allowed when its turn comes. -/
def Allows (allowed : Scene → Scene → Prop) (s : Scene) : List Act → Prop
  | [] => True
  | a :: acts => allowed s (s.act a) ∧ Allows allowed (s.act a) acts

instance decidableAllows {allowed : Scene → Scene → Prop} [∀ s s', Decidable (allowed s s')] :
    (s : Scene) → (acts : List Act) → Decidable (s.Allows allowed acts)
  | _, [] => .isTrue trivial
  | s, a :: acts =>
    have : Decidable ((s.act a).Allows allowed acts) := decidableAllows (s.act a) acts
    inferInstanceAs (Decidable (_ ∧ _))

theorem reaches_perform {allowed : Scene → Scene → Prop} {s₀ : Scene} {acts : List Act}
    (h : s₀.Allows allowed acts) : Reaches allowed s₀ (s₀.perform acts) := by
  -- the acts are taken from the front, but a run grows at its end: so from any scene on the way
  suffices hrun : ∀ s, Reaches allowed s₀ s → s.Allows allowed acts →
      Reaches allowed s₀ (s.perform acts) from hrun s₀ .refl h
  clear h
  induction acts with
  | nil => exact fun s run _ => run
  | cons a acts ih => exact fun s run h => ih (s.act a) (.act a run h.1) h.2

theorem runs_perform (s : Scene) (acts : List Act) : s.Runs (s.perform acts) := by
  refine reaches_perform ?_
  induction acts generalizing s with
  | nil => trivial
  | cons a acts ih => exact ⟨trivial, ih (s.act a)⟩

/-- What holds at first and is kept by every act holds in the end. -/
theorem Reaches.induct {allowed : Scene → Scene → Prop} {s₀ s : Scene} {P : Scene → Prop}
    (run : Reaches allowed s₀ s) (init : P s₀)
    (keep : ∀ s a, P s → allowed s (s.act a) → P (s.act a)) : P s := by
  induction run with
  | refl => exact init
  | act a run h ih => exact keep _ a ih h

theorem Reaches.trans {allowed : Scene → Scene → Prop} {s₁ s₂ s₃ : Scene}
    (run : Reaches allowed s₁ s₂) (next : Reaches allowed s₂ s₃) : Reaches allowed s₁ s₃ := by
  induction next with
  | refl => exact run
  | act a _ h ih => exact .act a ih h

/-! ## What an act can do -/

theorem mem_put {threads : List Thread} {t u : Thread} (h : u ∈ put threads t) :
    u = t ∨ (u ∈ threads ∧ u.key ≠ t.key) := by
  obtain ⟨v, hv, hu⟩ := List.mem_map.mp h
  split at hu
  · exact .inl hu.symm
  · rename_i hkey
    subst hu
    exact .inr ⟨hv, hkey⟩

theorem mem_put_of_ne {threads : List Thread} {t u : Thread} (h : u ∈ threads)
    (hkey : u.key ≠ t.key) : u ∈ put threads t :=
  List.mem_map.mpr ⟨u, h, if_neg hkey⟩

theorem mem_put_self {threads : List Thread} {t u : Thread} (h : u ∈ threads)
    (hkey : u.key = t.key) : t ∈ put threads t :=
  List.mem_map.mpr ⟨u, h, if_pos hkey⟩

/-- What an act can make of a scene. -/
inductive Step (s : Scene) : Scene → Prop where
  | start (ctx : Context) (request : Request) :
      Step s { s with
        world := (s.world.openCall ctx request).1
        threads := s.threads ++ [⟨s.asked.length, request, (s.world.openCall ctx request).2⟩]
        asked := s.asked ++ [request] }
  | stride {t : Thread} {world : World} {point : Point} (side : Side) (mem : t ∈ s.threads)
      (eq : s.world.stride t.call.ctx t.call.spans side t.point = (world, some point)) :
      Step s { s with
        world
        threads := put s.threads (t.goTo point)
        changes := s.changes ++ (s.world.change? t.call.ctx t.point).toList
        spawned := s.spawned ++ (s.world.tickets world).map (·, t.key) }
  | breakDown {t : Thread} {world : World} (side : Side) (mem : t ∈ s.threads)
      (eq : s.world.stride t.call.ctx t.call.spans side t.point = (world, none)) :
      Step s { s with
        world
        threads := s.threads.filter (·.key ≠ t.key)
        changes := s.changes ++ (s.world.change? t.call.ctx t.point).toList }
  | leave {t : Thread} (mem : t ∈ s.threads) :
      Step s { s with
        threads := s.threads.filter (·.key ≠ t.key)
        forsaken := s.forsaken ++ t.point.tickets }
  | turn {r : Refresh} (mem : r ∈ s.world.refreshes) :
      Step s { s with world := (s.world.turn r).1 }
  | elapse {world : World} (elapsed : World.Elapsed s.world world) : Step s { s with world }

theorem step_act (s : Scene) (a : Act) : Step s (s.act a) := by
  cases a with
  | start ctx request => exact .start ctx request
  | look key side =>
    simp only [act]
    split
    · exact .elapse (World.Elapsed.refl s.world)
    · rename_i t hfind
      have hkey : t.key = key := by simpa using List.find?_some hfind
      subst hkey
      split
      · exact .stride side (List.mem_of_find?_eq_some hfind) (by assumption)
      · exact .breakDown side (List.mem_of_find?_eq_some hfind) (by assumption)
  | leave key =>
    simp only [act]
    split
    · exact .elapse (World.Elapsed.refl s.world)
    · rename_i t hfind
      have hkey : t.key = key := by simpa using List.find?_some hfind
      subst hkey
      exact .leave (List.mem_of_find?_eq_some hfind)
  | turn ticket =>
    simp only [act]
    split
    · exact .elapse (World.Elapsed.refl s.world)
    · exact .turn (List.mem_of_find?_eq_some (by assumption))
  | pass now => exact .elapse ⟨rfl, rfl, rfl, rfl, Nat.le_max_left _ _, fun _ h => h⟩
  | setClock clock => exact .elapse ⟨rfl, rfl, rfl, rfl, Nat.le_refl _, fun _ h => h⟩
  | setFaults faults => exact .elapse ⟨rfl, rfl, rfl, rfl, Nat.le_refl _, fun _ h => h⟩
  | give signal =>
    exact .elapse ⟨rfl, rfl, rfl, rfl, Nat.le_refl _, fun _ => List.mem_cons_of_mem _⟩

/-! ## Numbers -/

/-- Every request under way bears a number of its own. -/
structure Numbered (s : Scene) : Prop where
  asked : ∀ t ∈ s.threads, s.asked[t.key]? = some t.request
  distinct : (s.threads.map (·.key)).Nodup

theorem map_key_put (threads : List Thread) (t : Thread) :
    (put threads t).map (·.key) = threads.map (·.key) := by
  rw [put, List.map_map]
  refine List.map_congr_left fun u _ => ?_
  simp only [Function.comp_apply]
  split
  · rename_i hkey
    exact hkey.symm
  · rfl

/-- Two requests under way are the same or related as all of them are. -/
theorem eq_or_of_pairwise {threads : List Thread} {R : Thread → Thread → Prop}
    (h : threads.Pairwise R) {t u : Thread} (ht : t ∈ threads) (hu : u ∈ threads) :
    t = u ∨ R t u ∨ R u t :=
  List.Pairwise.forall_of_forall_of_flip (R := fun t u => t = u ∨ R t u ∨ R u t)
    (fun _ _ => .inl rfl) (h.imp fun hR => .inr (.inl hR)) (h.imp fun hR => .inr (.inr hR)) ht hu

namespace Numbered

variable {s s' : Scene} {t u : Thread}

theorem eq_of_key (h : s.Numbered) (ht : t ∈ s.threads) (hu : u ∈ s.threads)
    (hkey : t.key = u.key) : t = u := by
  rcases eq_or_of_pairwise (List.pairwise_map.mp h.distinct) ht hu with heq | hne | hne
  · exact heq
  · exact absurd hkey hne
  · exact absurd hkey.symm hne

theorem find_of_mem (h : s.Numbered) (mem : t ∈ s.threads) :
    s.threads.find? (·.key = t.key) = some t := by
  cases hfind : s.threads.find? (·.key = t.key) with
  | none => simpa using List.find?_eq_none.mp hfind t mem
  | some u =>
    have hkey : u.key = t.key := by simpa using List.find?_some hfind
    rw [h.eq_of_key (List.mem_of_find?_eq_some hfind) mem hkey]

/-- Whatever some request does is done by this one or by another. -/
theorem mine_or_other (h : s.Numbered) (mem : t ∈ s.threads) {P : Thread → Prop}
    (some : ∃ u ∈ s.threads, P u) : P t ∨ ∃ u ∈ s.threads, u.key ≠ t.key ∧ P u := by
  obtain ⟨u, hu, hP⟩ := some
  by_cases hkey : u.key = t.key
  · obtain rfl := h.eq_of_key hu mem hkey
    exact .inl hP
  · exact .inr ⟨u, hu, hkey, hP⟩

/-- A request that starts bears the number of requests so far. -/
theorem start (h : s.Numbered) (ctx : Context) (request : Request) :
    Numbered { s with
      world := (s.world.openCall ctx request).1
      threads := s.threads ++ [⟨s.asked.length, request, (s.world.openCall ctx request).2⟩]
      asked := s.asked ++ [request] } := by
  refine ⟨fun t ht => ?_, ?_⟩
  · rcases List.mem_append.mp ht with ht | ht
    · have hasked := h.asked t ht
      obtain ⟨hlt, -⟩ := List.getElem?_eq_some_iff.mp hasked
      rwa [List.getElem?_append_left hlt]
    · obtain rfl := List.mem_singleton.mp ht
      exact List.getElem?_concat_length
  · rw [List.map_append, List.nodup_append]
    refine ⟨h.distinct, List.pairwise_singleton _ _, fun key hkey key' hkey' => ?_⟩
    -- all requests before it bear lower numbers
    obtain ⟨t, ht, rfl⟩ := List.mem_map.mp hkey
    obtain rfl := List.mem_singleton.mp hkey'
    obtain ⟨hlt, -⟩ := List.getElem?_eq_some_iff.mp (h.asked t ht)
    exact Nat.ne_of_lt hlt

/-- A request keeps its number when it goes to another point. -/
theorem goTo (h : s.Numbered) (mem : t ∈ s.threads) {world : World} {point : Point}
    {changes : List DomainEvent} {spawned : List (Ticket × Nat)} :
    Numbered { s with
      world, threads := put s.threads (t.goTo point), changes, spawned } := by
  refine ⟨fun u hu => ?_, (map_key_put ..).symm ▸ h.distinct⟩
  rcases mem_put hu with rfl | ⟨hu, -⟩
  · exact h.asked t mem
  · exact h.asked u hu

theorem without (h : s.Numbered) (key : Nat) {world : World} {changes : List DomainEvent}
    {forsaken : List Ticket} :
    Numbered { s with
      world, threads := s.threads.filter (·.key ≠ key), changes, forsaken } :=
  ⟨fun t ht => h.asked t (List.mem_filter.mp ht).1,
    h.distinct.sublist (List.filter_sublist.map _)⟩

theorem step (h : s.Numbered) (step : Step s s') : s'.Numbered := by
  cases step with
  | start ctx request => exact h.start ctx request
  | stride side mem eq => exact h.goTo mem
  | breakDown side mem eq => exact h.without _
  | leave mem => exact h.without _
  | turn mem => exact ⟨h.asked, h.distinct⟩
  | elapse calm => exact ⟨h.asked, h.distinct⟩

end Numbered

theorem Reaches.numbered {allowed : Scene → Scene → Prop} {s₀ s : Scene} (fresh : s₀.IsFresh)
    (run : Reaches allowed s₀ s) : s.Numbered :=
  run.induct ⟨by simp [fresh.threads], by simp [fresh.threads]⟩
    fun s a h _ => h.step (s.step_act a)

/-! ## A small scene -/

/-- The first moment of 1970. -/
def firstMoment : Timestamp :=
  .minute 0

def oldRecord : Record :=
  .draft 0

def newRecord : Record :=
  { oldRecord with label := "new", updatedAt := some firstMoment }

/-- An update that makes the new record of the old one. -/
def relabeling : Merger :=
  SparsePatch.merger { id := oldRecord.id, label := .present newRecord.label }

/-- One record is in the store, and nothing has been asked yet. -/
def withOldRecord : Scene where
  world := {
    clock := firstMoment
    backend := {
      store := {
        rows := .insert .empty oldRecord.id
          ⟨oldRecord.label, oldRecord.value, oldRecord.weight, firstMoment, none⟩ } } }

theorem isFresh_withOldRecord : withOldRecord.IsFresh :=
  ⟨rfl, rfl, rfl, rfl, rfl, rfl, rfl⟩

end Scene

end CacheAside.Simulation
