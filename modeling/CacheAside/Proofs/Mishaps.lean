import CacheAside.Service.Stage

/-!
# What becomes of a failed call

Each failed call of a port has one of two fates: the caller gets an error for it, or the failure is
swallowed, which is to be noted once (`Mishap.fate`).  After each reply the service does what the
fate of the reply asks for (`Service.resume_fate`), but it notes the failures of a deletion's
announcement only when both sides have replied (`DomainEvent.conclude_fate`).
-/

namespace CacheAside

/-- A call of a port that has failed, and the operation for which it was made. -/
structure Mishap where
  op : Operation
  call : PortCall
  failure : call.Failure

namespace Mishap

/-- What the caller gets for the failed call, or what is noted of it. -/
def fate : Mishap → ServiceError ⊕ Failure
  | ⟨op, .findAll _, e⟩ => .inl (.ofStore op e)
  | ⟨op, .find _, e⟩ => .inl (.ofStore op e)
  | ⟨op, .insert _, e⟩ => .inl (.ofStore op e)
  | ⟨op, .replace _, e⟩ => .inl (.ofStore op e)
  | ⟨op, .remove _, e⟩ => .inl (.ofStore op e)
  | ⟨_, .lookUp _, .interrupted cause⟩ => .inl (.cancelled cause)
  | ⟨op, .lookUp id, .backend message⟩ => .inr (.cache op .get id (.backend message))
  | ⟨op, .writeCache (.keep r), e⟩ => .inr (.cache op .set r.id e)
  | ⟨op, .writeCache (.evict id), e⟩ => .inr (.cache op .delete id e)
  | ⟨op, .publish (.created r), e⟩ => .inl (.ofPublish op r.id e)
  | ⟨op, .publish (.updated r), e⟩ => .inl (.ofPublish op r.id e)
  | ⟨op, .publish (.deleted id), e⟩ => .inr (.event op id e)

/-- The mishap of a reply, if it is one. -/
def ofReply (op : Operation) {call : PortCall} : call.Reply → List Mishap
  | .ok _ => []
  | .error e => [⟨op, call, e⟩]

/-- The errors that callers get for some failed calls. -/
def returned (mishaps : List Mishap) : List ServiceError :=
  mishaps.filterMap (·.fate.getLeft?)

/-- What is noted of some failed calls. -/
def swallowed (mishaps : List Mishap) : List Failure :=
  mishaps.filterMap (·.fate.getRight?)

@[simp] theorem returned_nil : returned [] = [] := rfl

@[simp] theorem swallowed_nil : swallowed [] = [] := rfl

@[simp] theorem returned_append (l l' : List Mishap) :
    returned (l ++ l') = returned l ++ returned l' :=
  List.filterMap_append

@[simp] theorem swallowed_append (l l' : List Mishap) :
    swallowed (l ++ l') = swallowed l ++ swallowed l' :=
  List.filterMap_append

theorem mem_returned {mishaps : List Mishap} {e : ServiceError} :
    e ∈ returned mishaps ↔ ∃ m ∈ mishaps, m.fate = .inl e := by
  simp [returned, Sum.getLeft?_eq_some_iff]

/-- No failure is both returned and swallowed, and none is neither. -/
theorem length_returned_add_swallowed (mishaps : List Mishap) :
    (returned mishaps).length + (swallowed mishaps).length = mishaps.length := by
  induction mishaps with
  | nil => rfl
  | cons m mishaps ih =>
    have hm : (returned [m]).length + (swallowed [m]).length = 1 := by
      cases hfate : m.fate <;> simp [returned, swallowed, hfate]
    rw [← List.singleton_append, returned_append, swallowed_append]
    simp only [List.length_append, List.length_singleton]
    omega

end Mishap

/-- The failure of a note. -/
def Note.failure? : Note → Option Failure
  | .swallowed failure => some failure
  | _ => none

/-- The errors of an outcome that stand for failed calls; a refusal by the rules is none. -/
def Outcome.blame : Outcome → List ServiceError
  | .ok _ => []
  | .error (.validation _) => []
  | .error e => [e]

/-- The errors that a stage has decided upon. -/
def Stage.blame : Stage → List ServiceError
  | .finished outcome => outcome.blame
  | _ => []

/-- The operation that a question is asked for. -/
def Ask.operation : Ask → Operation
  | .listing _ => .list
  | .lookingUp _ => .get
  | .fetching _ => .get
  | .refilling _ => .get
  | .inserting _ => .create
  | .loading _ _ => .update
  | .replacing _ => .update
  | .removing _ => .delete

/-- The request at the stage is for the operation. -/
def Stage.IsFor (op : Operation) : Stage → Prop
  | .asking ask => ask.operation = op
  | .settling change => change.operation = op
  | .announcing change => change.operation = op
  | .finished _ => True

@[simp] theorem blame_ofStore (op : Operation) (e : StoreError) :
    Outcome.blame (.error (.ofStore op e)) = [.ofStore op e] := by
  cases e <;> rfl

@[simp] theorem blame_ofPublish (op : Operation) (id : RecordId) (e : EventError) :
    Outcome.blame (.error (.ofPublish op id e)) = [.ofPublish op id e] := by
  cases e <;> rfl

namespace Service

/-- What the rules refuse is no failure of a port. -/
theorem blame_accept (s : Service) (r : Record) {next : Stage} (h : next.blame = []) :
    (s.accept r next).blame = [] := by
  unfold accept
  split
  · exact h
  · rfl

theorem blame_merged (s : Service) (id : RecordId) (merger : Merger) (stored : Record) :
    (s.merged id merger stored).blame = [] := by
  unfold merged
  split
  · rfl
  · split
    · exact s.blame_accept _ rfl
    · rfl

theorem blame_begin (s : Service) (request : Request) : (s.begin request).blame = [] := by
  cases request with
  | create candidate => exact s.blame_accept candidate rfl
  | update id merger =>
    simp only [begin]
    split <;> rfl
  | list page => rfl
  | get id => rfl
  | delete id => rfl

theorem isFor_accept (s : Service) (r : Record) {next : Stage} {op : Operation}
    (h : next.IsFor op) : (s.accept r next).IsFor op := by
  unfold accept
  split
  · exact h
  · trivial

theorem isFor_merged (s : Service) (id : RecordId) (merger : Merger) (stored : Record) :
    (s.merged id merger stored).IsFor .update := by
  unfold merged
  split
  · trivial
  · split
    · exact s.isFor_accept _ rfl
    · trivial

theorem isFor_begin (s : Service) (request : Request) :
    (s.begin request).IsFor request.operation := by
  cases request with
  | create candidate => exact s.isFor_accept candidate rfl
  | update id merger =>
    simp only [begin]
    split
    · rfl
    · trivial
  | list page => rfl
  | get id => rfl
  | delete id => rfl

/-- A reply does not take a request to another operation. -/
theorem isFor_resume (s : Service) (ask : Ask) (reply : ask.call.Reply) :
    (s.resume ask reply).2.IsFor ask.operation := by
  cases ask with
  | lookingUp id =>
    match reply with
    | .ok (some r) => trivial
    | .ok none => rfl
    | .error (.interrupted cause) => trivial
    | .error (.backend message) => rfl
  | fetching id =>
    cases reply with
    | ok r =>
      simp only [resume, refill]
      split
      · rfl
      · trivial
    | error e => trivial
  | loading id merger =>
    cases reply with
    | ok r => exact s.isFor_merged id merger r
    | error e => trivial
  | removing id =>
    match reply with
    | .ok () => rfl
    | .error e => trivial
  | listing page => cases reply <;> trivial
  | refilling r => trivial
  | inserting candidate =>
    cases reply with
    | ok r => rfl
    | error e => trivial
  | replacing merged =>
    cases reply with
    | ok r => rfl
    | error e => trivial

/-- A fill of the cache on behalf of a read notes its failure. -/
theorem failures_refillNotes (r : Record) (reply : (PortCall.writeCache (.keep r)).Reply) :
    (refillNotes r reply).filterMap Note.failure? =
      Mishap.swallowed (Mishap.ofReply .get reply) := by
  cases reply <;> rfl

/-- After a reply the service notes what is to be swallowed, and decides upon what is to be
returned. -/
theorem resume_fate (s : Service) (ask : Ask) (reply : ask.call.Reply) :
    (s.resume ask reply).1.filterMap Note.failure? =
        Mishap.swallowed (Mishap.ofReply ask.operation reply) ∧
      (s.resume ask reply).2.blame = Mishap.returned (Mishap.ofReply ask.operation reply) := by
  cases ask with
  | lookingUp id =>
    match reply with
    | .ok (some r) => exact ⟨rfl, rfl⟩
    | .ok none => exact ⟨rfl, rfl⟩
    | .error (.interrupted cause) => exact ⟨rfl, rfl⟩
    | .error (.backend message) => exact ⟨rfl, rfl⟩
  | fetching id =>
    cases reply with
    | ok r =>
      simp only [resume, refill]
      split <;> exact ⟨rfl, rfl⟩
    | error e => exact ⟨rfl, blame_ofStore .get e⟩
  | loading id merger =>
    cases reply with
    | ok r => exact ⟨rfl, s.blame_merged id merger r⟩
    | error e => exact ⟨rfl, blame_ofStore .update e⟩
  | removing id =>
    match reply with
    | .ok () => exact ⟨rfl, rfl⟩
    | .error e => exact ⟨rfl, blame_ofStore .delete e⟩
  | listing page =>
    cases reply with
    | ok records => exact ⟨rfl, rfl⟩
    | error e => exact ⟨rfl, blame_ofStore .list e⟩
  | refilling r =>
    refine ⟨failures_refillNotes r reply, ?_⟩
    cases reply <;> rfl
  | inserting candidate =>
    cases reply with
    | ok r => exact ⟨rfl, rfl⟩
    | error e => exact ⟨rfl, blame_ofStore .create e⟩
  | replacing merged =>
    cases reply with
    | ok r => exact ⟨rfl, rfl⟩
    | error e => exact ⟨rfl, blame_ofStore .update e⟩

end Service

namespace DomainEvent

variable (change : DomainEvent)

/-- What is noted of failed calls only at the end of an announcement: whatever is swallowed of a
deletion. -/
def withheld (mishaps : List Mishap) : List Failure :=
  match change with
  | .deleted _ => Mishap.swallowed mishaps
  | _ => []

@[simp] theorem withheld_nil : change.withheld [] = [] := by
  cases change <;> rfl

/-- Of the cache's failure nothing is returned, and what is not withheld is noted at once. -/
theorem cacheNotes_fate (written : (PortCall.writeCache change.cacheWrite).Reply) :
    Mishap.swallowed (Mishap.ofReply change.operation written) =
        (change.cacheNotes written).filterMap Note.failure? ++
          change.withheld (Mishap.ofReply change.operation written) ∧
      Mishap.returned (Mishap.ofReply change.operation written) = [] := by
  cases change <;> cases written <;> exact ⟨rfl, rfl⟩

/-- Of the event bus's failure nothing is noted at once. -/
theorem publish_fate (published : (PortCall.publish change).Reply) :
    Mishap.swallowed (Mishap.ofReply change.operation published) =
      change.withheld (Mishap.ofReply change.operation published) := by
  cases change <;> cases published <;> rfl

/-- At the end of an announcement all that was withheld is noted, and what is to be returned is the
outcome. -/
theorem conclude_fate (written : (PortCall.writeCache change.cacheWrite).Reply)
    (published : (PortCall.publish change).Reply) :
    (change.conclude written published).1.filterMap Note.failure? =
        change.withheld (Mishap.ofReply change.operation written ++
          Mishap.ofReply change.operation published) ∧
      (change.conclude written published).2.blame =
        Mishap.returned (Mishap.ofReply change.operation written ++
          Mishap.ofReply change.operation published) := by
  cases change with
  | created r =>
    cases published with
    | ok value => cases written <;> exact ⟨rfl, rfl⟩
    | error e =>
      have hblame := blame_ofPublish .create r.id e
      cases written <;> exact ⟨rfl, hblame⟩
  | updated r =>
    cases published with
    | ok value => cases written <;> exact ⟨rfl, rfl⟩
    | error e =>
      have hblame := blame_ofPublish .update r.id e
      cases written <;> exact ⟨rfl, hblame⟩
  | deleted id => cases written <;> cases published <;> exact ⟨rfl, rfl⟩

end DomainEvent

end CacheAside
