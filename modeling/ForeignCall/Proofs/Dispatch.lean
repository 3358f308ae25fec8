import ForeignCall.Program
import ForeignCall.Proofs.Cache
import ForeignCall.Proofs.Delivery

namespace ForeignCall

namespace State

variable {ω σ : Type}

section Prepare

@[simp]
theorem dispatcher_notify (s : State ω σ) (sink : Option (Sink σ)) (wanted : Bool)
    (event : Event) : (s.notify sink wanted event).dispatcher = s.dispatcher := by
  unfold notify
  split <;> rfl

@[simp]
theorem world_notify (s : State ω σ) (sink : Option (Sink σ)) (wanted : Bool) (event : Event) :
    (s.notify sink wanted event).world = s.world := by
  unfold notify
  split <;> rfl

def announce (s : State ω σ) (request : Request σ) (shape : Shape) (outcome : Outcome)
    (dispatcher : Dispatcher) : State ω σ :=
  ({ s with dispatcher }.notify request.sink (s.mask request.sink).lookup
      (.lookup shape outcome)).notify request.sink (s.mask request.sink).call
    (.enter request.callee request.claimed)

@[simp]
theorem dispatcher_announce (s : State ω σ) (request : Request σ) (shape : Shape)
    (outcome : Outcome) (dispatcher : Dispatcher) :
    (s.announce request shape outcome dispatcher).dispatcher = dispatcher := by
  simp [announce]

@[simp]
theorem world_announce (s : State ω σ) (request : Request σ) (shape : Shape) (outcome : Outcome)
    (dispatcher : Dispatcher) :
    (s.announce request shape outcome dispatcher).world = s.world := by
  simp [announce]

variable {s : State ω σ} {request : Request σ} {plan : Plan} {frame : Frame}

theorem prepare_of_defect {e : Signature.Defect}
    (h : request.claimed.plan s.dispatcher.limits = .error e) :
    s.prepare request = (.error (.signature e), s) := by
  simp only [prepare, h]

theorem prepare_of_mismatch {e : Frame.Mismatch}
    (hplan : request.claimed.plan s.dispatcher.limits = .ok plan)
    (h : Frame.ofArgs plan.layout request.args = .error e) :
    s.prepare request = (.error (.argument e), s) := by
  simp only [prepare, hplan, h]

theorem prepare_of_frame (hplan : request.claimed.plan s.dispatcher.limits = .ok plan)
    (hframe : Frame.ofArgs plan.layout request.args = .ok frame) :
    s.prepare request =
      match s.dispatcher.lookup plan.shape with
      | (.error e, dispatcher) => (.error (.build e), { s with dispatcher })
      | (.ok (t, outcome), dispatcher) =>
          (.ok ⟨frame, t, (s.mask request.sink).call⟩,
            s.announce request plan.shape outcome dispatcher) := by
  simp only [prepare, hplan, hframe, EventMask.covers_lookupOnly, EventMask.covers_callOnly]
  rfl

inductive Prepares (s : State ω σ) (request : Request σ) :
    Except Rejection Prepared × State ω σ → Prop where
  | defective {e : Signature.Defect}
      (defect : request.claimed.plan s.dispatcher.limits = .error e) :
      Prepares s request (.error (.signature e), s)
  | mismatched {plan : Plan} {e : Frame.Mismatch}
      (planned : request.claimed.plan s.dispatcher.limits = .ok plan)
      (mismatch : Frame.ofArgs plan.layout request.args = .error e) :
      Prepares s request (.error (.argument e), s)
  | unbuilt {plan : Plan} {frame : Frame} {e : BuildError}
      (planned : request.claimed.plan s.dispatcher.limits = .ok plan)
      (framed : Frame.ofArgs plan.layout request.args = .ok frame)
      (fails : (s.dispatcher.lookup plan.shape).1 = .error e) :
      Prepares s request
        (.error (.build e), { s with dispatcher := (s.dispatcher.lookup plan.shape).2 })
  | ready {plan : Plan} {frame : Frame} {t : Trampoline} {outcome : Outcome}
      (planned : request.claimed.plan s.dispatcher.limits = .ok plan)
      (framed : Frame.ofArgs plan.layout request.args = .ok frame)
      (found : (s.dispatcher.lookup plan.shape).1 = .ok (t, outcome)) :
      Prepares s request (.ok ⟨frame, t, (s.mask request.sink).call⟩,
        s.announce request plan.shape outcome (s.dispatcher.lookup plan.shape).2)

theorem prepares (s : State ω σ) (request : Request σ) :
    Prepares s request (s.prepare request) := by
  cases hplan : request.claimed.plan s.dispatcher.limits with
  | error e =>
      rw [prepare_of_defect hplan]
      exact .defective hplan
  | ok plan =>
      cases hframe : Frame.ofArgs plan.layout request.args with
      | error e =>
          rw [prepare_of_mismatch hplan hframe]
          exact .mismatched hplan hframe
      | ok frame =>
          have hunbuilt (e : BuildError) :=
            @Prepares.unbuilt _ _ s request plan frame e hplan hframe
          have hready (t : Trampoline) (outcome : Outcome) :=
            @Prepares.ready _ _ s request plan frame t outcome hplan hframe
          rw [prepare_of_frame hplan hframe]
          generalize s.dispatcher.lookup plan.shape = looked at hunbuilt hready ⊢
          obtain ⟨e | ⟨t, outcome⟩, d⟩ := looked
          · exact hunbuilt e rfl
          · exact hready t outcome rfl

theorem state_dispatchWith (perform : List Value → State ω σ → UInt64 × State ω σ)
    (signature : Signature) (request : Request σ) (s : State ω σ) :
    (s.dispatchWith perform signature request).2 = (s.prepare request).2 ∨
      ∃ received wanted, (s.dispatchWith perform signature request).2 =
        (perform received (s.prepare request).2).2.notify request.sink wanted
          (.exit request.callee request.claimed) := by
  rw [dispatchWith]
  generalize s.prepare request = prepared
  obtain ⟨e | call, s⟩ := prepared
  · exact .inl rfl
  · cases hreceived : call.trampoline.deliver signature call.frame with
    | error e =>
        left
        simp only [hreceived]
    | ok received =>
        right
        refine ⟨received, call.observed, ?_⟩
        simp only [hreceived]

end Prepare

section Simulation

inductive Agree : Except BuildError (Trampoline × Outcome) →
    Except BuildError (Trampoline × Outcome) → Prop where
  | error (e : BuildError) : Agree (.error e) (.error e)
  | ok {t u : Trampoline} (outcome outcome' : Outcome) (deliver_eq : t.deliver = u.deliver)
      (collect_eq : t.collect = u.collect) : Agree (.ok (t, outcome)) (.ok (u, outcome'))

theorem Agree.refl (result : Except BuildError (Trampoline × Outcome)) : Agree result result := by
  rcases result with e | ⟨t, outcome⟩
  · exact .error e
  · exact .ok outcome outcome rfl rfl

structure Simulation (R : Dispatcher → Dispatcher → Prop) : Prop where
  limits_eq : ∀ d d', R d d' → d.limits = d'.limits
  lookup : ∀ d d' shape, R d d' → R (d.lookup shape).2 (d'.lookup shape).2
  agree : ∀ d d' shape, R d d' → Agree (d.lookup shape).1 (d'.lookup shape).1

structure Alike (R : Dispatcher → Dispatcher → Prop) (s s' : State ω σ) : Prop where
  world_eq : s.world = s'.world
  related : R s.dispatcher s'.dispatcher

variable {R : Dispatcher → Dispatcher → Prop} {s s' : State ω σ}

theorem prepare_alike (hR : Simulation R) {request request' : Request σ}
    (hclaimed : request.claimed = request'.claimed) (hargs : request.args = request'.args)
    (h : Alike R s s') :
    Alike R (s.prepare request).2 (s'.prepare request').2 ∧
      ((∃ e, (s.prepare request).1 = .error e ∧ (s'.prepare request').1 = .error e) ∨
        ∃ call call', (s.prepare request).1 = .ok call ∧ (s'.prepare request').1 = .ok call' ∧
          call.frame = call'.frame ∧ call.trampoline.deliver = call'.trampoline.deliver ∧
          call.trampoline.collect = call'.trampoline.collect) := by
  have hlimits := hR.limits_eq _ _ h.related
  cases hplan : request.claimed.plan s.dispatcher.limits with
  | error e =>
      have hplan' := hplan
      rw [hclaimed, hlimits] at hplan'
      rw [prepare_of_defect hplan, prepare_of_defect hplan']
      exact ⟨h, .inl ⟨_, rfl, rfl⟩⟩
  | ok plan =>
      have hplan' := hplan
      rw [hclaimed, hlimits] at hplan'
      cases hframe : Frame.ofArgs plan.layout request.args with
      | error e =>
          have hframe' := hframe
          rw [hargs] at hframe'
          rw [prepare_of_mismatch hplan hframe, prepare_of_mismatch hplan' hframe']
          exact ⟨h, .inl ⟨_, rfl, rfl⟩⟩
      | ok frame =>
          have hframe' := hframe
          rw [hargs] at hframe'
          rw [prepare_of_frame hplan hframe, prepare_of_frame hplan' hframe']
          have hrelated := hR.lookup _ _ plan.shape h.related
          have hagree := hR.agree _ _ plan.shape h.related
          generalize s.dispatcher.lookup plan.shape = looked at hrelated hagree ⊢
          generalize s'.dispatcher.lookup plan.shape = looked' at hrelated hagree ⊢
          obtain ⟨result, d⟩ := looked
          obtain ⟨result', d'⟩ := looked'
          cases hagree with
          | error e => exact ⟨⟨h.world_eq, hrelated⟩, .inl ⟨_, rfl, rfl⟩⟩
          | ok outcome outcome' hdeliver hcollect =>
              refine ⟨⟨?_, ?_⟩, .inr ⟨_, _, rfl, rfl, rfl, hdeliver, hcollect⟩⟩
              · rw [world_announce, world_announce, h.world_eq]
              · rw [dispatcher_announce, dispatcher_announce]
                exact hrelated

theorem dispatchWith_alike (hR : Simulation R)
    {perform : List Value → State ω σ → UInt64 × State ω σ}
    (hperform : ∀ received (s s' : State ω σ), Alike R s s' →
      (perform received s).1 = (perform received s').1 ∧
        Alike R (perform received s).2 (perform received s').2)
    (signature : Signature) {request request' : Request σ}
    (hclaimed : request.claimed = request'.claimed) (hargs : request.args = request'.args)
    (h : Alike R s s') :
    (s.dispatchWith perform signature request).1 = (s'.dispatchWith perform signature request').1 ∧
      Alike R (s.dispatchWith perform signature request).2
        (s'.dispatchWith perform signature request').2 := by
  obtain ⟨halike, hresults⟩ := prepare_alike hR hclaimed hargs h
  rw [dispatchWith, dispatchWith]
  generalize s.prepare request = prepared at halike hresults ⊢
  generalize s'.prepare request' = prepared' at halike hresults ⊢
  obtain ⟨result, s⟩ := prepared
  obtain ⟨result', s'⟩ := prepared'
  rcases hresults with ⟨e, ⟨⟩, ⟨⟩⟩ | ⟨call, call', ⟨⟩, ⟨⟩, hframe, hdeliver, hcollect⟩
  · exact ⟨rfl, halike⟩
  · simp only [← hdeliver, ← hframe, ← hcollect, ← hclaimed]
    cases hreceived : call.trampoline.deliver signature call.frame with
    | error e => exact ⟨rfl, halike⟩
    | ok received =>
        obtain ⟨hword, hafter⟩ := hperform received s s' halike
        refine ⟨?_, ⟨?_, ?_⟩⟩
        · simp only [hword]
        · simp only [world_notify, hafter.world_eq]
        · simp only [dispatcher_notify]
          exact hafter.related

theorem run_alike (hR : Simulation R) (program : Program ω σ) (h : Alike R s s') :
    (program.run s).1 = (program.run s').1 ∧ Alike R (program.run s).2 (program.run s').2 := by
  induction program generalizing s s' with
  | finish word => exact ⟨rfl, h⟩
  | act effect next ih =>
      rw [Program.run, Program.run, h.world_eq]
      exact ih _ ⟨rfl, h.related⟩
  | call request signature body next ihBody ihNext =>
      obtain ⟨hresult, hafter⟩ := dispatchWith_alike hR (fun received _ _ h => ihBody received h)
        signature (rfl : request.claimed = request.claimed) rfl h
      rw [Program.run, Program.run]
      simp only [hresult]
      exact ihNext _ hafter

end Simulation

section Operation

inductive Operation (ω σ : Type) where
  | warm (sig : Signature)
  | trampolineOf (sig : Signature)
  | dispatch (callee : Callee ω σ) (claimed : Signature) (args : List Value)
  | dispatchObserved (callee : Callee ω σ) (claimed : Signature) (args : List Value)
      (sink : Option (Sink σ))
  | lookup (shape : Shape)
  | find (shape : Shape)

def operate (s : State ω σ) : Operation ω σ → State ω σ
  | .warm sig => { s with dispatcher := (s.dispatcher.warm sig).2 }
  | .trampolineOf sig => { s with dispatcher := (s.dispatcher.trampolineOf sig).2 }
  | .dispatch callee claimed args => (s.dispatch callee claimed args).2
  | .dispatchObserved callee claimed args sink => (s.dispatchObserved callee claimed args sink).2
  | .lookup shape => { s with dispatcher := (s.dispatcher.lookup shape).2 }
  | .find _ => s

def after (s : State ω σ) (operations : List (Operation ω σ)) : State ω σ :=
  operations.foldl operate s

end Operation

section Kept

-- A property that lookups of the shapes asked for keep, those of accepted signatures among them.
structure Kept (asked : Shape → Prop) (P : Dispatcher → Prop) : Prop where
  planned : ∀ d sig plan, P d → Signature.plan sig d.limits = .ok plan → asked plan.shape
  lookup : ∀ d shape, P d → asked shape → P (d.lookup shape).2

variable {asked : Shape → Prop} {P : Dispatcher → Prop} {s : State ω σ}

namespace Kept

theorem resolve (hP : Kept asked P) {d : Dispatcher} (h : P d) (sig : Signature) :
    P (d.resolve sig).2 := by
  rw [Dispatcher.resolve]
  split
  · exact h
  · next hplan => exact hP.lookup d _ h (hP.planned d sig _ h hplan)

theorem prepare (hP : Kept asked P) (h : P s.dispatcher) (request : Request σ) :
    P (s.prepare request).2.dispatcher := by
  have hprepares := prepares s request
  generalize s.prepare request = prepared at hprepares ⊢
  cases hprepares with
  | defective _ | mismatched _ _ => exact h
  | unbuilt planned _ _ => exact hP.lookup _ _ h (hP.planned _ _ _ h planned)
  | ready planned _ _ =>
      rw [dispatcher_announce]
      exact hP.lookup _ _ h (hP.planned _ _ _ h planned)

theorem dispatchWith (hP : Kept asked P) (h : P s.dispatcher)
    {perform : List Value → State ω σ → UInt64 × State ω σ}
    (hperform : ∀ received s, P s.dispatcher → P (perform received s).2.dispatcher)
    (signature : Signature) (request : Request σ) :
    P (s.dispatchWith perform signature request).2.dispatcher := by
  have hprepare := hP.prepare h request
  rcases s.state_dispatchWith perform signature request with hstate | ⟨received, wanted, hstate⟩
  · rw [hstate]
    exact hprepare
  · rw [hstate, dispatcher_notify]
    exact hperform received _ hprepare

theorem run (hP : Kept asked P) (program : Program ω σ) (h : P s.dispatcher) :
    P (program.run s).2.dispatcher := by
  induction program generalizing s with
  | finish word => exact h
  | act effect next ih => exact ih _ h
  | call request signature body next ihBody ihNext =>
      exact ihNext _ (hP.dispatchWith h (fun received _ => ihBody received) signature request)

theorem dispatchObserved (hP : Kept asked P) (h : P s.dispatcher) (callee : Callee ω σ)
    (claimed : Signature) (args : List Value) (sink : Option (Sink σ)) :
    P (s.dispatchObserved callee claimed args sink).2.dispatcher :=
  hP.dispatchWith h (fun received _ => hP.run (callee.body received)) callee.signature _

theorem operate (hP : Kept asked P) (h : P s.dispatcher) {operation : Operation ω σ}
    (hdirect : ∀ shape, operation = .lookup shape → asked shape) :
    P (s.operate operation).dispatcher := by
  cases operation with
  | warm sig | trampolineOf sig => exact hP.resolve h sig
  | dispatch callee claimed args => exact hP.dispatchObserved h callee claimed args none
  | dispatchObserved callee claimed args sink =>
      exact hP.dispatchObserved h callee claimed args sink
  | lookup shape => exact hP.lookup _ shape h (hdirect shape rfl)
  | find shape => exact h

theorem after (hP : Kept asked P) (h : P s.dispatcher) {operations : List (Operation ω σ)}
    (hdirect : ∀ shape, .lookup shape ∈ operations → asked shape) :
    P (s.after operations).dispatcher := by
  induction operations generalizing s with
  | nil => exact h
  | cons operation operations ih =>
      refine ih (hP.operate h ?_) fun shape hmem => hdirect shape (List.mem_cons_of_mem _ hmem)
      rintro shape rfl
      exact hdirect shape List.mem_cons_self

end Kept

end Kept

end State

end ForeignCall
