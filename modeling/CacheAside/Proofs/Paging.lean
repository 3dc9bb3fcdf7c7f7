import CacheAside.Json.Basic
import CacheAside.Proofs.Transparency
import Mathlib.Algebra.Order.Floor.Div

/-!
# Going through the records page by page

Pages that follow each other cut the list of records into pieces of one length, the last of which
may be shorter.  So whoever goes on until a page is empty has seen every record from the start of
the first page on, once and in order (`Service.listing_visits_every_record_once`).

The offset of a page is a word of 64 bits.  On the way to the first empty page no sum exceeds such a
word, as long as a word can count the records (`Store.Paged.words`).  Whoever goes on from there
will come to sums that no word holds, and of these nothing is said (`Store.Paged.ended`).
-/

namespace CacheAside

/-! ## Pages that follow each other -/

namespace Page

@[simp] theorem limit_iterate_next (p : Page) (k : Nat) : (next^[k] p).limit = p.limit := by
  induction k generalizing p with
  | zero => rfl
  | succ k ih => exact ih p.next

@[simp] theorem offset_iterate_next (p : Page) (k : Nat) :
    (next^[k] p).offset = p.offset + k * p.limit := by
  induction k generalizing p with
  | zero => simp
  | succ k ih =>
    rw [Function.iterate_succ_apply, ih]
    simp only [next, Nat.succ_mul]
    omega

end Page

namespace Store

variable {s : Store} {p : Page}

/-! ## The records of a page -/

theorem length_records (s : Store) : s.records.length = s.size :=
  List.length_map _

/-- The records are in the order of their identifiers, and no identifier has two. -/
theorem sorted_records (s : Store) : s.records.Pairwise fun r r' => r.id < r'.id :=
  List.pairwise_map.mpr s.rows.sorted

/-- The records are those that are found. -/
theorem mem_records {r : Record} : r ∈ s.records ↔ s.find r.id = .ok r := by
  rw [find_eq_ok, records, List.mem_map]
  constructor
  · rintro ⟨⟨id, row⟩, hmem, rfl⟩
    exact ⟨row, (s.rows.mem_entries_iff id row).mp hmem, rfl⟩
  · rintro ⟨row, hrow, hjoin⟩
    exact ⟨(r.id, row), (s.rows.mem_entries_iff r.id row).mpr hrow, hjoin⟩

theorem length_findAll (s : Store) (p : Page) :
    (s.findAll p).length = min p.limit (s.size - p.offset) := by
  rw [findAll, List.length_take, List.length_drop, length_records]

theorem findAll_eq_nil : s.findAll p = [] ↔ s.size ≤ p.offset := by
  have hpos := p.limit_pos
  rw [← List.length_eq_zero_iff, length_findAll]
  omega

/-- An offset that is too large for a counter may be replaced by the largest one that it can hold,
as long as it can count the records. -/
theorem findAll_min_offset {most : Nat} (countable : s.size ≤ most) (p : Page) :
    s.findAll { p with offset := min p.offset most } = s.findAll p := by
  rcases Nat.le_total p.offset most with hle | hle
  · rw [Nat.min_eq_left hle]
  · rw [findAll_eq_nil.mpr (countable.trans hle), findAll_eq_nil]
    exact Nat.le_min.mpr ⟨countable.trans hle, countable⟩

/-! ## The walk -/

/-- A page and the pages after it, up to the first empty one. -/
def walk (s : Store) (p : Page) : List (List Record) :=
  if s.size ≤ p.offset then [] else s.findAll p :: s.walk p.next
termination_by s.size - p.offset
decreasing_by
  have hpos := p.limit_pos
  simp only [Page.next]
  omega

theorem walk_of_le (h : s.size ≤ p.offset) : s.walk p = [] := by
  rw [walk, if_pos h]

theorem walk_of_lt (h : p.offset < s.size) : s.walk p = s.findAll p :: s.walk p.next := by
  rw [walk, if_neg (Nat.not_le.mpr h)]

theorem flatten_walk (s : Store) (p : Page) : (s.walk p).flatten = s.records.drop p.offset := by
  induction p using walk.induct s with
  | case1 p hend => rw [walk_of_le hend, List.drop_of_length_le (s.length_records ▸ hend)]; rfl
  | case2 p hmore ih =>
    calc (s.walk p).flatten
        = s.findAll p ++ s.records.drop p.next.offset := by
          rw [walk_of_lt (Nat.not_le.mp hmore), List.flatten_cons, ih]
      _ = (s.records.drop p.offset).take p.limit ++ (s.records.drop p.offset).drop p.limit := by
          rw [List.drop_drop]
          rfl
      _ = s.records.drop p.offset := List.take_append_drop ..

/-- A page is part of the walk exactly if it starts among the records. -/
theorem getElem?_walk (s : Store) (p : Page) (k : Nat) :
    (s.walk p)[k]? =
      if s.size ≤ p.offset + k * p.limit then none else some (s.findAll (Page.next^[k] p)) := by
  induction p using walk.induct s generalizing k with
  | case1 p hend => rw [walk_of_le hend, if_pos (Nat.le_add_right_of_le hend)]; rfl
  | case2 p hmore ih =>
    rw [walk_of_lt (Nat.not_le.mp hmore)]
    cases k with
    | zero => simpa using hmore
    | succ k =>
      have hoffset : p.next.offset + k * p.next.limit = p.offset + (k + 1) * p.limit := by
        simp only [Page.next, Nat.succ_mul]
        omega
      rw [List.getElem?_cons_succ, ih, hoffset]
      rfl

/-- So many pages are part of the walk as start among the records. -/
theorem lt_length_walk {k : Nat} : k < (s.walk p).length ↔ p.offset + k * p.limit < s.size := by
  rw [← Nat.not_le, ← List.getElem?_eq_none_iff, getElem?_walk]
  simp

/-- A page up to the first empty one is the first of all, or the page before it has records, so that
it starts less than a page after the last of them. -/
theorem offset_of_le_length_walk {k : Nat} (h : k ≤ (s.walk p).length) :
    (Page.next^[k] p).offset = p.offset ∨ (Page.next^[k] p).offset < s.size + p.limit := by
  rw [Page.offset_iterate_next]
  cases k with
  | zero => exact .inl (by simp)
  | succ k =>
    have hbefore := lt_length_walk.mp h
    rw [Nat.succ_mul]
    omega

theorem length_walk_le (s : Store) (p : Page) : (s.walk p).length ≤ s.size ⌈/⌉ p.limit := by
  refine Nat.le_of_not_lt fun hmore => ?_
  have hstart := lt_length_walk.mp hmore
  have hpos : 0 < p.limit := p.limit_pos
  have hreach : s.size ≤ s.size ⌈/⌉ p.limit * p.limit := by
    rw [Nat.mul_comm]
    exact le_smul_ceilDiv hpos
  omega

/-- Lists of records that are the pages from one page on, up to the first empty one. -/
structure Paged (s : Store) (p : Page) (pages : List (List Record)) : Prop where
  /-- Nothing is left out or comes twice. -/
  flatten : pages.flatten = s.records.drop p.offset
  page : ∀ k (h : k < pages.length), pages[k] = s.findAll (Page.next^[k] p) ∧ pages[k] ≠ []
  /-- All but the last are as long as may be. -/
  full : ∀ k (h : k + 1 < pages.length), pages[k].length = p.limit
  /-- After the last there is nothing more, on any page whose offset is a word. -/
  ended : ∀ k, pages.length ≤ k → ((Page.next^[k] p).offset : Int) < Json.wordLimit →
    s.findAll (Page.next^[k] p) = []
  few : pages.length ≤ s.size ⌈/⌉ p.limit
  /-- The offsets on the way are no larger than the first one, or than it takes to pass the
  records. -/
  near : ∀ k, k ≤ pages.length → (Page.next^[k] p).offset ≤ max p.offset (s.size + p.limit)
  /-- So these are words, up to the first empty page, if the first one is and a word can count the
  records. -/
  words : (p.offset : Int) < Json.wordLimit → (s.size + p.limit : Int) ≤ Json.wordLimit →
    ∀ k, k ≤ pages.length → ((Page.next^[k] p).offset : Int) < Json.wordLimit

theorem paged_walk (s : Store) (p : Page) : s.Paged p (s.walk p) := by
  have hpage (k : Nat) (h : k < (s.walk p).length) :
      (s.walk p)[k] = s.findAll (Page.next^[k] p) := by
    refine Option.some.inj ?_
    rw [← List.getElem?_eq_getElem h, getElem?_walk, if_neg (Nat.not_le.mpr (lt_length_walk.mp h))]
  refine ⟨s.flatten_walk p, fun k h => ⟨hpage k h, fun hnil => ?_⟩, fun k h => ?_, fun k h _ => ?_,
    s.length_walk_le p, fun k h => ?_, fun first countable k h => ?_⟩
  · rw [hpage, findAll_eq_nil, Page.offset_iterate_next] at hnil
    exact Nat.not_le.mpr (lt_length_walk.mp h) hnil
  · have hnext := lt_length_walk.mp h
    rw [hpage k (Nat.lt_of_succ_lt h), length_findAll, Page.limit_iterate_next,
      Page.offset_iterate_next]
    rw [Nat.succ_mul] at hnext
    omega
  · rw [findAll_eq_nil, Page.offset_iterate_next]
    exact Nat.le_of_not_lt fun hlt => Nat.not_lt.mpr h (lt_length_walk.mpr hlt)
  · have hoffset := offset_of_le_length_walk h
    omega
  · have hoffset := offset_of_le_length_walk h
    omega

end Store

/-! ## The walk of a caller -/

namespace Service

/-- Lists one page after another, and ends with the first answer that is not a page with records on
it, or after so many calls.  Before each call others may have been at the ports. -/
def listOn {σ : Type} (s : Service) (ports : Ports σ) (others : Page → σ → σ) :
    Nat → σ → Page → List (Option Outcome) × σ
  | 0, state, _ => ([], state)
  | calls + 1, state, p =>
    let run := s.run ports (others p state) (.list p)
    match run.outcome with
    | some (.ok (.records (r :: rest))) =>
      let (outcomes, state) := s.listOn ports others calls run.state p.next
      (some (.ok (.records (r :: rest))) :: outcomes, state)
    | outcome => ([outcome], run.state)

variable {s : Service} {c : Conditions} {b : Backend} {p : Page}

/-- A list is the page of the store, and changes nothing. -/
theorem run_list (answered : c.refuses (.findAll p) = none) :
    (s.run c.ports b (.list p)).outcome = some (.ok (.records (b.store.findAll p))) ∧
      (s.run c.ports b (.list p)).state = b := by
  have hports : c.ports b (.findAll p) = (some (.ok (b.store.findAll p)), b) :=
    Conditions.ports_of_not_refused answered
  rw [run, begin, follow_asking (q := .listing p) hports]
  simp [resume, Run.after]

/-- The calls of a caller end with the first empty page if they are enough to get there. -/
theorem listOn_eq {others : Page → Backend → Backend}
    (answered : ∀ p, c.refuses (.findAll p) = none)
    (untouched : ∀ p b, (others p b).store = b.store) {calls : Nat} (b : Backend) (p : Page)
    (enough : (b.store.walk p).length < calls) :
    (s.listOn c.ports others calls b p).1 =
        (b.store.walk p ++ [[]]).map (fun page => some (.ok (.records page))) ∧
      (s.listOn c.ports others calls b p).2.store = b.store := by
  induction calls generalizing b p with
  | zero => exact absurd enough (Nat.not_lt_zero _)
  | succ calls ih =>
    obtain ⟨houtcome, hstate⟩ := run_list (s := s) (b := others p b) (answered p)
    rw [untouched] at houtcome
    rw [listOn]
    rcases Nat.lt_or_ge p.offset b.store.size with hmore | hend
    · rw [Store.walk_of_lt hmore, List.length_cons] at enough
      cases hpage : b.store.findAll p with
      | nil => exact absurd (Store.findAll_eq_nil.mp hpage) (Nat.not_le.mpr hmore)
      | cons r rest =>
        rw [hpage] at houtcome
        obtain ⟨houtcomes, hstore⟩ := ih (others p b) p.next
          (by rw [untouched]; exact Nat.lt_of_succ_lt_succ enough)
        rw [untouched] at houtcomes hstore
        simp only [houtcome, hstate, houtcomes, hstore, Store.walk_of_lt hmore, hpage,
          List.cons_append, List.map_cons, and_self]
    · rw [Store.findAll_eq_nil.mpr hend] at houtcome
      simp only [houtcome, hstate, Store.walk_of_le hend, List.nil_append, List.map_cons,
        List.map_nil, untouched, and_self]

/-- The records of a store are in the order of their identifiers.  The pages from one page on, up to
the first empty one, hold those that are left after the offset, each once and in order; all but the
last are as long as may be, and there is nothing on any later page, as far as the offsets are words.
Up to the first empty page they are, if a word can count the records.  Whoever lists page after page
gets these, and is at the end after no more calls than it takes to count the records by the page,
and one.  An offset that no counter of the records can hold makes no difference. -/
theorem listing_visits_every_record_once (s : Service) (c : Conditions) (b : Backend) (p : Page)
    (others : Page → Backend → Backend) (answered : ∀ p, c.refuses (.findAll p) = none)
    (untouched : ∀ p b, (others p b).store = b.store) :
    (b.store.records.Pairwise (fun r r' => r.id < r'.id) ∧
      (∀ r, r ∈ b.store.records ↔ b.store.find r.id = .ok r) ∧
      b.store.records.length = b.store.size) ∧
    b.store.Paged p (b.store.walk p) ∧
    (∀ calls, b.store.size ⌈/⌉ p.limit + 1 ≤ calls →
      (s.listOn c.ports others calls b p).1 =
          (b.store.walk p ++ [[]]).map (fun page => some (.ok (.records page))) ∧
        (s.listOn c.ports others calls b p).2.store = b.store) ∧
    ∀ most, b.store.size ≤ most → ∀ p : Page,
      b.store.findAll { p with offset := min p.offset most } = b.store.findAll p :=
  ⟨⟨b.store.sorted_records, fun _ => Store.mem_records, b.store.length_records⟩,
    b.store.paged_walk p,
    fun _ enough => listOn_eq answered untouched b p
      (Nat.lt_of_lt_of_le (Nat.lt_succ_of_le (b.store.length_walk_le p)) enough),
    fun _ countable p => Store.findAll_min_offset countable p⟩

/-- A store with three records. -/
def shelf : Backend where
  store := (((({} : Store).put (.ofNat 2) row ["red"]).2.put (.ofNat 7) row []).2.put
    (.ofNat 5) row []).2
where
  row : Row := ⟨"old", 0, .ofRank false 0, .minute 3, none⟩

/-- Two records for a page. -/
def pair (offset : Nat) : Page :=
  ⟨offset, 2, by decide, by decide⟩

/-- Conditions in which only the cache does not work. -/
def uncached : Conditions where
  circumstances _ := ⟨.minute 4, .ofNat 0, 60 * nanosPerSecond, false⟩
  refuses
    | .lookUp _ => some (.backend "lost")
    | .writeCache _ => some (.backend "lost")
    | _ => none

/-- The records of the shelf are on two pages, though a caller empties the cache meanwhile. -/
theorem shelf_is_listed_in_two_pages :
    (∀ p, uncached.refuses (.findAll p) = none) ∧
    (({} : Service).listOn uncached.ports (fun _ b => { b with cache := {} }) 3 shelf (pair 0)).1 =
      [some (.ok (.records (shelf.store.records.take 2))),
        some (.ok (.records (shelf.store.records.drop 2))), some (.ok (.records []))] := by
  obtain ⟨-, -, hlisted, -⟩ := listing_visits_every_record_once {} uncached shelf (pair 0)
    (fun _ b => { b with cache := {} }) (fun _ => rfl) (fun _ _ => rfl)
  obtain ⟨houtcomes, -⟩ := hlisted 3 (by decide)
  refine ⟨fun _ => rfl, houtcomes.trans ?_⟩
  rw [Store.walk_of_lt (by decide), Store.walk_of_lt (by decide), Store.walk_of_le (by decide)]
  rfl

end Service

end CacheAside
