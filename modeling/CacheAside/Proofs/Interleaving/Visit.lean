import CacheAside.Proofs.Backend
import CacheAside.Simulation.Guard

/-!
# What one look at a call does

A call of a port is looked at again and again until it replies.  At most one of these looks lets it
take effect (`World.acts`); from then on its reply is decided, though the caller may have to wait
for it.  `World.visit_spec` says of every look which of the two it is, and that nothing but the
ports changes: neither the service nor the refreshes in flight.
-/

namespace CacheAside.Simulation

/-- Whether a call with the fault takes effect at all. -/
def Fault.acts (f : Fault) : Bool :=
  f.error.isNone || f.after

/-- Under such a fault a call replies in the moment of its effect, and one that fails has no
effect. -/
def Fault.isPrompt (f : Fault) : Bool :=
  !f.after && f.delayAfter == 0

/-- The reply to the caller, when the port has given one. -/
def Fault.cover (f : Fault) {call : PortCall} (reply : call.Reply) : call.Reply :=
  match f.error, reply with
  | some e, .ok _ => .error (failWith e call)
  | _, reply => reply

variable {call : PortCall}

@[simp] theorem Fault.cover_error (f : Fault) (e : call.Failure) :
    f.cover (.error e : call.Reply) = .error e := by
  unfold cover
  split <;> simp_all

theorem Fault.delayAfter_of_isPrompt {f : Fault} (h : f.isPrompt = true) : f.delayAfter = 0 := by
  simp only [isPrompt, Bool.and_eq_true, beq_iff_eq] at h
  exact h.2

/-- A prompt fault that lets the call take effect covers nothing. -/
theorem Fault.cover_of_isPrompt {f : Fault} (hprompt : f.isPrompt = true) (hacts : f.acts = true)
    (reply : call.Reply) : f.cover reply = reply := by
  cases herror : f.error with
  | none => simp [cover, herror]
  | some e => simp_all [isPrompt, acts]

/-- The reply of a call in flight, if it has been decided. -/
def Flight.decided? : Flight call → Option call.Reply
  | .before _ _ => none
  | .after reply _ => some reply

/-- The reply of a call under a context, if it has been started and its reply has been decided. -/
def decided? (g : Option (Guarded call)) : Option call.Reply :=
  g.bind (·.flight.decided?)

/-- The reply that has come or been decided. -/
def Poll.decided? : Poll call.Reply (Guarded call) → Option call.Reply
  | .ready reply => some reply
  | .pending g => g.flight.decided?
  | .broken => none

/-- The call waits, and its fault lets it reply in the moment of its effect. -/
def Guarded.IsPrompt (g : Guarded call) : Prop :=
  ∃ fault timer, g.flight = .before fault timer ∧ fault.isPrompt = true

namespace World

/-- The two worlds have the same service and stand at the same moment. -/
structure Coeval (w w' : World) : Prop where
  service : w'.service = w.service
  now : w'.now = w.now
  given : w'.given = w.given

/-- The same refreshes are in flight in both worlds, with the same books on them. -/
structure Alike (w w' : World) : Prop extends Coeval w w' where
  tracker : w'.tracker = w.tracker
  refreshes : w'.refreshes = w.refreshes

/-- The two worlds are alike, and so are the ports. -/
structure Untouched (w w' : World) : Prop extends Alike w w' where
  backend : w'.backend = w.backend

theorem Coeval.trans {w₁ w₂ w₃ : World} (h : Coeval w₁ w₂) (h' : Coeval w₂ w₃) : Coeval w₁ w₃ :=
  ⟨h'.service.trans h.service, h'.now.trans h.now, h'.given.trans h.given⟩

theorem Alike.refl (w : World) : Alike w w := ⟨⟨rfl, rfl, rfl⟩, rfl, rfl⟩

theorem Alike.trans {w₁ w₂ w₃ : World} (h : Alike w₁ w₂) (h' : Alike w₂ w₃) : Alike w₁ w₃ :=
  ⟨h.toCoeval.trans h'.toCoeval, h'.tracker.trans h.tracker, h'.refreshes.trans h.refreshes⟩

theorem Untouched.refl (w : World) : Untouched w w := ⟨Alike.refl w, rfl⟩

theorem Untouched.trans {w₁ w₂ w₃ : World} (h : Untouched w₁ w₂) (h' : Untouched w₂ w₃) :
    Untouched w₁ w₃ :=
  ⟨h.toAlike.trans h'.toAlike, h'.backend.trans h.backend⟩

/-- The fault of a call: the one it was started with, or else the one it would be started with. -/
def faultOf (w : World) : Option (Guarded call) → Fault
  | none => if w.isWatched call then (w.takeFault call.port).1 else {}
  | some ⟨_, .before fault _⟩ => fault
  | some ⟨_, .after _ _⟩ => {}

/-- Whether a call that is looked at now has waited long enough for its effect. -/
def isDue (w : World) : Option (Guarded call) → Bool
  | none => !(w.faultOf (none : Option (Guarded call))).hang &&
      (w.faultOf (none : Option (Guarded call))).delay == 0
  | some ⟨_, .before _ (some timer)⟩ => timer.due ≤ w.now
  | some _ => false

/-- Whether a look at a call under a context lets it take effect. -/
def acts (w : World) (ctx : Context) (g : Option (Guarded call)) : Bool :=
  (w.check ctx).toBool && w.isDue g && (w.faultOf g).acts

/-- What comes of the call at the ports if it takes effect now. -/
def servedNow (w : World) (call : PortCall) : Served call :=
  w.backend.serve (w.circumstances (w.service.config.cacheTtl * nanosPerSecond) w.silent) call

/-- What one look at a call makes of it. -/
inductive Visited (w : World) (ctx : Context) (g : Option (Guarded call)) (w' : World) :
    Poll call.Reply (Guarded call) → Prop where
  /-- It goes on waiting. -/
  | waits {g' : Guarded call} {timer : Option Timer} (calm : Untouched w w')
      (still : w.acts ctx g = false) (before : g'.flight = .before (w.faultOf g) timer)
      (same : ∀ g₀ ∈ g, g' = g₀) : Visited w ctx g w' (.pending g')
  /-- It fails without any effect now. -/
  | fails {poll : Poll call.Reply (Guarded call)} {e : call.Failure} (calm : Untouched w w')
      (still : w.acts ctx g = false) (failed : poll.decided? = some (.error e))
      (ready : (w.faultOf g).delayAfter = 0 → poll = .ready (.error e)) : Visited w ctx g w' poll
  /-- Its reply was decided before, and is waited for. -/
  | awaits {deadline : Option Timer} {reply : call.Reply} {timer : Timer} (calm : Untouched w w')
      (still : w.acts ctx g = false) (known : g = some ⟨deadline, .after reply timer⟩) :
      Visited w ctx g w' (.pending ⟨deadline, .after reply timer⟩)
  /-- Its reply was decided before, and comes now. -/
  | replies {deadline : Option Timer} {reply : call.Reply} {timer : Timer} (calm : Untouched w w')
      (still : w.acts ctx g = false) (known : g = some ⟨deadline, .after reply timer⟩)
      (passed : w.check ctx = .ok ()) (due : timer.due ≤ w.now) : Visited w ctx g w' (.ready reply)
  /-- It takes effect. -/
  | answers {poll : Poll call.Reply (Guarded call)} {reply : call.Reply} (alike : Alike w w')
      (acted : w.acts ctx g = true) (fresh : decided? g = none)
      (backend : w'.backend = (w.servedNow call).backend)
      (served : (w.servedNow call).reply = some reply)
      (decided : poll.decided? = some ((w.faultOf g).cover reply))
      (ready : (w.faultOf g).delayAfter = 0 → poll = .ready ((w.faultOf g).cover reply)) :
      Visited w ctx g w' poll
  /-- It breaks down. -/
  | breaks (calm : Untouched w w') (acted : w.acts ctx g = true)
      (served : (w.servedNow call).reply = none) : Visited w ctx g w' .broken

/-! ## Nothing but the ports -/

theorem setDeadline_untouched (w : World) (ctx : Context) :
    Untouched w (w.setDeadline ctx).2 := by
  unfold setDeadline
  split <;> exact ⟨⟨⟨rfl, rfl, rfl⟩, rfl, rfl⟩, rfl⟩

theorem launch_untouched (w : World) (owner : Owner) (port : Port) :
    Untouched w (w.launch owner port) :=
  ⟨⟨⟨rfl, rfl, rfl⟩, rfl, rfl⟩, rfl⟩

theorem takeFault_untouched (w : World) (port : Port) :
    Untouched w (w.takeFault port).2 := by
  unfold takeFault
  split <;> exact ⟨⟨⟨rfl, rfl, rfl⟩, rfl, rfl⟩, rfl⟩

theorem takeFault_fst (w : World) (port : Port) :
    (w.takeFault port).1 = ((w.faults.find? (·.1 = port)).map (·.2)).getD {} := by
  unfold takeFault
  split
  · rename_i fault heq
    simp [heq]
  · rename_i heq
    simp [heq]

theorem takeFault_snd (w : World) (port : Port) :
    (w.takeFault port).2.check = w.check ∧ (w.takeFault port).2.now = w.now ∧
      (w.takeFault port).2.servedNow = w.servedNow := by
  unfold takeFault
  split <;> exact ⟨rfl, rfl, rfl⟩

theorem serve_alike (w : World) (spans : List Span) (ttl : Nat) (silent : Bool)
    (call : PortCall) : Alike w (w.serve spans ttl silent call).2 := by
  unfold serve
  dsimp only
  split <;> exact ⟨⟨rfl, rfl, rfl⟩, rfl, rfl⟩

@[simp] theorem serveService_fst (w : World) (spans : List Span) (call : PortCall) :
    (w.serveService spans call).1 = (w.servedNow call).reply := rfl

@[simp] theorem serveService_backend (w : World) (spans : List Span) (call : PortCall) :
    (w.serveService spans call).2.backend = (w.servedNow call).backend := by
  unfold serveService serve
  dsimp only
  split <;> rfl

/-! ## The effect -/

theorem reply_spec (w : World) (owner : Owner) (fault : Fault) (reply : call.Reply)
    (deadline : Option Timer) :
    Untouched w (w.reply owner fault reply).1 ∧
      (keepDeadline deadline (w.reply owner fault reply).2).decided? = some reply ∧
      (fault.delayAfter = 0 →
        keepDeadline deadline (w.reply owner fault reply).2 = .ready reply) := by
  unfold World.reply
  split
  · exact ⟨⟨⟨⟨rfl, rfl, rfl⟩, rfl, rfl⟩, rfl⟩, rfl, fun _ => rfl⟩
  · rename_i hdelay
    exact ⟨⟨⟨⟨rfl, rfl, rfl⟩, rfl, rfl⟩, rfl⟩, rfl, fun h => absurd h hdelay⟩

/-- A call that has no effect fails. -/
theorem act_of_not_acts (w : World) (owner : Owner) (spans : List Span) (call : PortCall)
    {fault : Fault} (h : fault.acts = false) :
    ∃ e : call.Failure, w.act owner spans call fault = w.reply owner fault (.error e) := by
  unfold act
  split
  · exact ⟨_, rfl⟩
  · rename_i hno
    cases he : fault.error <;> cases ha : fault.after <;> simp_all [Fault.acts]

/-- A call that has an effect replies as the ports do, unless its fault covers the reply. -/
theorem act_of_acts (w : World) (owner : Owner) (spans : List Span) (call : PortCall)
    {fault : Fault} (h : fault.acts = true) :
    w.act owner spans call fault = match w.serveService spans call with
      | (none, w) => (w, .broken)
      | (some reply, w) => w.reply owner fault (fault.cover reply) := by
  unfold act
  split
  · rename_i e herror hafter
    simp [Fault.acts, herror, hafter] at h
  · split
    · rename_i w' heq
      rw [heq]
    · rename_i e w' heq
      simp only [heq, Fault.cover_error]
    · rename_i value w' heq
      simp only [heq, Fault.cover]
      cases fault.error <;> rfl

/-- What the moment of a call's effect makes of it.  Since `w`, where the look began, only the
books on faults, timers and calls may have changed. -/
theorem act_spec {w w₁ : World} (owner : Owner) {ctx : Context} (spans : List Span)
    {g : Option (Guarded call)} (deadline : Option Timer) (calm₁ : Untouched w w₁)
    (same : w₁.servedNow call = w.servedNow call) (hcheck : w.check ctx = .ok ())
    (hdue : w.isDue g = true) (hfresh : decided? g = none) :
    Visited w ctx g (w₁.act owner spans call (w.faultOf g)).1
      (keepDeadline deadline (w₁.act owner spans call (w.faultOf g)).2) := by
  cases hacts : (w.faultOf g).acts with
  | false =>
    obtain ⟨e, he⟩ := w₁.act_of_not_acts owner spans call hacts
    obtain ⟨calm, decided, ready⟩ :=
      w₁.reply_spec owner (w.faultOf g) (.error e : call.Reply) deadline
    rw [he]
    exact .fails (calm₁.trans calm) (by simp [acts, hacts]) decided ready
  | true =>
    have acted : w.acts ctx g = true := by simp [acts, hcheck, hdue, hacts, Except.toBool]
    have alike : Alike w₁ (w₁.serveService spans call).2 := serve_alike ..
    have backend := w₁.serveService_backend spans call
    have served := w₁.serveService_fst spans call
    rw [same] at backend served
    rw [w₁.act_of_acts owner spans call hacts]
    split
    · rename_i w' heq
      rw [heq] at served backend alike
      -- a call that gives no reply has left the ports as they were
      have hsame : (w.servedNow call).backend = w.backend :=
        Backend.serve_of_not_ok fun value hok => by
          rw [show (w.servedNow call).reply = _ from hok] at served
          cases served
      exact .breaks ⟨calm₁.toAlike.trans alike, backend.trans hsame⟩ acted served.symm
    · rename_i reply w' heq
      rw [heq] at served backend alike
      obtain ⟨calm, decided, ready⟩ :=
        w'.reply_spec owner (w.faultOf g) ((w.faultOf g).cover reply) deadline
      exact .answers (calm₁.toAlike.trans (alike.trans calm.toAlike)) acted hfresh
        (calm.backend.trans backend) served.symm decided ready

/-! ## A look at a call -/

/-- The world at the start of a call's work: its fault is taken, and the call is counted. -/
theorem depart_spec {w w₁ : World} (owner : Owner) {ctx : Context} (spans : List Span)
    (deadline : Option Timer) (calm₁ : Untouched w w₁)
    (hfault : w₁.faultOf (none : Option (Guarded call)) = w.faultOf (none : Option (Guarded call)))
    (same : w₁.servedNow call = w.servedNow call) (hcheck : w.check ctx = .ok ()) :
    Visited w ctx (none : Option (Guarded call)) (w₁.depart owner spans call).1
      (keepDeadline deadline (w₁.depart owner spans call).2) := by
  have hdue : w.isDue (none : Option (Guarded call)) =
      (!(w.faultOf (none : Option (Guarded call))).hang &&
        (w.faultOf (none : Option (Guarded call))).delay == 0) := rfl
  unfold depart
  split
  · rename_i hwatched
    have htaken : ((w₁.launch owner call.port).takeFault call.port).1 =
        w.faultOf (none : Option (Guarded call)) := by
      rw [← hfault]
      simp only [faultOf, hwatched, if_true, takeFault_fst]
      rfl
    have calm₂ : Untouched w ((w₁.launch owner call.port).takeFault call.port).2 :=
      calm₁.trans ((launch_untouched ..).trans (takeFault_untouched ..))
    have same₂ : ((w₁.launch owner call.port).takeFault call.port).2.servedNow call =
        w.servedNow call := by
      rw [(takeFault_snd ..).2.2]
      exact same
    simp only [htaken]
    split
    · rename_i hhang
      exact .waits calm₂ (by simp [acts, hdue, hhang]) rfl (by simp)
    · split
      · rename_i hhang hdelay
        exact act_spec owner spans deadline calm₂ same₂ hcheck
          (by rw [hdue]; simp [hhang, hdelay]) rfl
      · rename_i hhang hdelay
        exact .waits (calm₂.trans ⟨⟨⟨rfl, rfl, rfl⟩, rfl, rfl⟩, rfl⟩)
          (by simp [acts, hdue, hdelay]) rfl (by simp)
  · -- a publication into the void: no fault can be given to it
    rename_i hwatched
    have hplain : ({} : Fault) = w.faultOf (none : Option (Guarded call)) := by
      rw [← hfault]
      simp [faultOf, hwatched]
    rw [hplain]
    refine act_spec owner spans deadline calm₁ same hcheck ?_ rfl
    rw [hdue, ← hplain]
    rfl

/-- What a look at a call does. -/
theorem visit_spec (w : World) (owner : Owner) (ctx : Context) (spans : List Span)
    (g : Option (Guarded call)) :
    Visited w ctx g (w.visit owner ctx spans g).1 (w.visit owner ctx spans g).2 := by
  cases g with
  | none =>
    simp only [visit, enter]
    split
    · rename_i cause hcheck
      exact .fails (Untouched.refl w) (by simp [acts, hcheck, Except.toBool]) rfl fun _ => rfl
    · rename_i hcheck
      -- the timer of the deadline comes first; neither the fault nor the ports depend on it
      have hset : (w.setDeadline ctx).2.faultOf (none : Option (Guarded call)) =
          w.faultOf (none : Option (Guarded call)) ∧
          (w.setDeadline ctx).2.servedNow call = w.servedNow call := by
        simp only [faultOf, takeFault_fst, setDeadline]
        split <;> exact ⟨rfl, rfl⟩
      exact depart_spec owner spans _ (setDeadline_untouched w ctx) hset.1 hset.2 hcheck
  | some g =>
    obtain ⟨deadline, flight⟩ := g
    simp only [visit, revisit]
    split
    · rename_i cause hcheck
      exact .fails ⟨⟨⟨rfl, rfl, rfl⟩, rfl, rfl⟩, rfl⟩ (by simp [acts, hcheck, Except.toBool]) rfl
        fun _ => rfl
    · rename_i hcheck
      cases flight with
      | before fault timer =>
        cases timer with
        | none =>
          exact .waits (Untouched.refl w) (by simp [acts, isDue]) rfl (by simp)
        | some timer =>
          simp only [follow]
          split
          · rename_i hdue
            exact act_spec owner spans deadline (Untouched.refl w) rfl hcheck
              (by simpa [isDue] using hdue) rfl
          · rename_i hdue
            exact .waits (Untouched.refl w) (by simp [acts, isDue, hdue]) rfl (by simp)
      | after reply timer =>
        simp only [follow]
        split
        · rename_i hdue
          exact .replies ⟨⟨⟨rfl, rfl, rfl⟩, rfl, rfl⟩, rfl⟩ (by simp [acts, isDue]) rfl hcheck hdue
        · exact .awaits (Untouched.refl w) (by simp [acts, isDue]) rfl

theorem visited {w w' : World} {owner : Owner} {ctx : Context} {spans : List Span}
    {g : Option (Guarded call)} {poll : Poll call.Reply (Guarded call)}
    (visit : w.visit owner ctx spans g = (w', poll)) : Visited w ctx g w' poll := by
  have hspec := w.visit_spec owner ctx spans g
  rwa [visit] at hspec

/-- A call that breaks down has no effect, and the port gives no reply. -/
theorem broken_spec {w w' : World} {owner : Owner} {ctx : Context} {spans : List Span}
    {g : Option (Guarded call)} (visit : w.visit owner ctx spans g = (w', .broken)) :
    Untouched w w' ∧ (w.servedNow call).reply = none := by
  cases visited visit with
  | fails calm still failed => cases failed
  | answers alike acted fresh backend served decided => cases decided
  | breaks calm acted served => exact ⟨calm, served⟩

theorem untouched_of_broken {w w' : World} {owner : Owner} {ctx : Context} {spans : List Span}
    {g : Option (Guarded call)} (visit : w.visit owner ctx spans g = (w', .broken)) :
    Untouched w w' :=
  (broken_spec visit).1

theorem eq_keep_of_broken {w w' : World} {owner : Owner} {ctx : Context} {spans : List Span}
    {g : Option (Guarded call)} (visit : w.visit owner ctx spans g = (w', .broken)) :
    ∃ r, call = .writeCache (.keep r) :=
  Backend.eq_keep_of_broken (broken_spec visit).2

/-! ## Prompt replies -/

/-- Every fault that waits for a call is prompt. -/
def IsPrompt (w : World) : Prop :=
  ∀ f ∈ w.faults, f.2.isPrompt = true

/-- Every fault that waits for a call of the port is prompt. -/
def IsPromptAt (w : World) (port : Port) : Prop :=
  ∀ f ∈ w.faults, f.1 = port → f.2.isPrompt = true

theorem IsPrompt.port {w : World} (h : w.IsPrompt) {port : Port} : w.IsPromptAt port :=
  fun f hf _ => h f hf

theorem isPrompt_faultOf {w : World} {g : Option (Guarded call)}
    (hw : w.IsPromptAt call.port) (hg : ∀ g₀ ∈ g, g₀.IsPrompt) :
    (w.faultOf g).isPrompt = true := by
  cases g with
  | none =>
    simp only [faultOf, takeFault_fst]
    split
    · cases hfind : w.faults.find? (·.1 = call.port) with
      | none => rfl
      | some f =>
        exact hw f (List.mem_of_find?_eq_some hfind) (by simpa using List.find?_some hfind)
    · rfl
  | some g =>
    obtain ⟨fault, timer, hflight, hprompt⟩ := hg g rfl
    obtain ⟨deadline, flight⟩ := g
    subst hflight
    exact hprompt

/-- What one look makes of a call when the faults that wait for it are prompt: the reply comes in
the moment of the effect. -/
inductive VisitedPromptly (w w' : World) : Poll call.Reply (Guarded call) → Prop where
  | waits {g' : Guarded call} (calm : Untouched w w') (prompt : g'.IsPrompt) :
      VisitedPromptly w w' (.pending g')
  | fails {e : call.Failure} (calm : Untouched w w') : VisitedPromptly w w' (.ready (.error e))
  | answers {reply : call.Reply} (alike : Alike w w')
      (backend : w'.backend = (w.servedNow call).backend)
      (served : (w.servedNow call).reply = some reply) : VisitedPromptly w w' (.ready reply)
  | breaks (calm : Untouched w w') (served : (w.servedNow call).reply = none) :
      VisitedPromptly w w' .broken

theorem visited_promptly {w w' : World} {owner : Owner} {ctx : Context} {spans : List Span}
    {g : Option (Guarded call)} {poll : Poll call.Reply (Guarded call)}
    (hw : w.IsPromptAt call.port) (hg : ∀ g₀ ∈ g, g₀.IsPrompt)
    (visit : w.visit owner ctx spans g = (w', poll)) : VisitedPromptly w w' poll := by
  have hfault := isPrompt_faultOf hw hg
  have hdelay := Fault.delayAfter_of_isPrompt hfault
  have hacts (h : w.acts ctx g = true) : (w.faultOf g).acts = true := by
    simp only [acts, Bool.and_eq_true] at h
    exact h.2
  cases visited visit with
  | waits calm still before => exact .waits calm ⟨_, _, before, hfault⟩
  | fails calm still failed ready => exact ready hdelay ▸ .fails calm
  -- the reply of a prompt call is never decided before it comes
  | awaits calm still known =>
    obtain ⟨fault, timer, hflight, -⟩ := hg _ known
    cases hflight
  | replies calm still known =>
    obtain ⟨fault, timer, hflight, -⟩ := hg _ known
    cases hflight
  | answers alike acted fresh backend served decided ready =>
    rw [ready hdelay, Fault.cover_of_isPrompt hfault (hacts acted)]
    exact .answers alike backend served
  | breaks calm acted served => exact .breaks calm served

end World

end CacheAside.Simulation
