import ForeignCall.Proofs.Dispatch
import ForeignCall.Proofs.Validation

namespace ForeignCall

namespace Signature

def shape (sig : Signature) : Shape :=
  (sig.planOf (some .host)).shape

theorem frameWords_le_arity (sig : Signature) : sig.shape.frameWords ≤ sig.arity := by
  have hints : sig.shape.ints ≤ sig.classes.length := by
    rw [shape, ints_planOf, ints_layout]
    exact List.countP_le_length
  have hfloats : sig.shape.floats ≤ sig.classes.length := by
    rw [shape, floats_planOf, floats_layout]
    exact List.countP_le_length
  rw [← length_classes]
  exact Nat.max_le.2 ⟨hints, hfloats⟩

end Signature

namespace Dispatcher

structure Made (limits : Limits) (generator : Generator) (d : Dispatcher) : Prop where
  limits_eq : d.limits = limits
  generator_eq : d.cache.generator = generator
  sound : d.cache.Sound

def outcome (d : Dispatcher) (shape : Shape) : Outcome :=
  if (d.cache.find? shape).isSome then .hit else .built

def Fails (d : Dispatcher) (shape : Shape) (e : BuildError) : Prop :=
  d.cache.find? shape = none ∧
    Trampoline.build d.cache.generator d.cache.attempts shape = .error e

variable {limits : Limits} {generator : Generator} {d : Dispatcher} {shape : Shape}

theorem made_new (limits : Limits) (generator : Generator) :
    (new limits generator).Made limits generator :=
  ⟨rfl, rfl, Cache.sound_empty generator⟩

theorem Made.lookup (h : d.Made limits generator) (shape : Shape) :
    (d.lookup shape).2.Made limits generator where
  limits_eq := h.limits_eq
  generator_eq := by
    refine Eq.trans ?_ h.generator_eq
    change (d.cache.lookup shape).2.generator = d.cache.generator
    have hlooked := d.cache.looked shape
    generalize d.cache.lookup shape = looked at hlooked ⊢
    cases hlooked with
    | hit _ => rfl
    | built _ _ hattempted | failed _ _ hattempted => exact hattempted.generator_eq
  sound := h.sound.lookup shape

theorem lookup_eq_error_iff {e : BuildError} :
    (d.lookup shape).1 = .error e ↔ d.Fails shape e := by
  change (d.cache.lookup shape).1 = .error e ↔ _
  have hlooked := d.cache.looked shape
  generalize d.cache.lookup shape = looked at hlooked ⊢
  rw [Fails]
  cases hlooked with
  | hit found => rw [found]; simp
  | built absent build _ => rw [build]; simp
  | failed absent build _ => rw [absent, build]; simp

theorem Made.lookup_eq_ok (h : d.Made limits generator) {t : Trampoline} {outcome : Outcome}
    (hlookup : (d.lookup shape).1 = .ok (t, outcome)) :
    t.For shape ∧ outcome = d.outcome shape ∧ (d.lookup shape).2.cache.find? shape = some t := by
  change (d.cache.lookup shape).1 = .ok (t, outcome) at hlookup
  change _ ∧ _ ∧ (d.cache.lookup shape).2.find? shape = some t
  have hlooked := d.cache.looked shape
  generalize d.cache.lookup shape = looked at hlooked hlookup ⊢
  rw [Dispatcher.outcome]
  cases hlooked with
  | hit found =>
      cases hlookup
      exact ⟨h.sound.made _ _ found, by rw [found]; rfl, found⟩
  | built absent build attempted =>
      cases hlookup
      exact ⟨Trampoline.for_of_build build, by rw [absent]; rfl, attempted.find?_self⟩
  | failed _ _ _ => cases hlookup

theorem Made.lookup_ok (h : d.Made limits generator)
    (hbuild : ∀ attempt, ∃ t, Trampoline.build generator attempt shape = .ok t) :
    ∃ t, (d.lookup shape).1 = .ok (t, d.outcome shape) ∧ t.For shape := by
  cases hlookup : (d.lookup shape).1 with
  | error e =>
      obtain ⟨-, hfails⟩ := lookup_eq_error_iff.1 hlookup
      obtain ⟨t, ht⟩ := hbuild d.cache.attempts
      rw [h.generator_eq, ht] at hfails
      cases hfails
  | ok found =>
      obtain ⟨t, outcome⟩ := found
      obtain ⟨ht, rfl, -⟩ := h.lookup_eq_ok hlookup
      exact ⟨t, rfl, ht⟩

end Dispatcher

theorem Trampoline.For.deliver_of_fits {t : Trampoline} {shape : Shape} {frame : Frame}
    (ht : t.For shape) (h : shape.Fits frame) (callee : Signature) :
    t.deliver callee frame = .ok (callee.receive .host (t.pass .host frame)) := by
  rw [← ht.shape_eq] at h
  rw [deliver, if_neg (not_not_intro h.1), if_neg (not_not_intro h.2)]

namespace Request

variable {σ : Type}

def opening (request : Request σ) (mask : EventMask) (outcome : Outcome) : List Event :=
  (if mask.lookup then [.lookup request.claimed.shape outcome] else []) ++
    if mask.call then [.enter request.callee request.claimed] else []

def closing (request : Request σ) (mask : EventMask) : List Event :=
  if mask.call then [.exit request.callee request.claimed] else []

def play (request : Request σ) (events : List Event) (sinks : σ) : σ :=
  match request.sink with
  | some sink => events.foldl (fun sinks event => sink.receive event sinks) sinks
  | none => sinks

theorem play_append (request : Request σ) (xs ys : List Event) (sinks : σ) :
    request.play (xs ++ ys) sinks = request.play ys (request.play xs sinks) := by
  unfold play
  cases request.sink with
  | none => rfl
  | some sink => exact List.foldl_append

end Request

namespace State

variable {ω σ : Type}

section Events

def enter (s : State ω σ) (request : Request σ) : State ω σ :=
  ⟨(s.dispatcher.lookup request.claimed.shape).2, s.world,
    request.play (request.opening (s.mask request.sink)
      (s.dispatcher.outcome request.claimed.shape)) s.sinks⟩

def leave (s : State ω σ) (request : Request σ) (mask : EventMask) : State ω σ :=
  { s with sinks := request.play (request.closing mask) s.sinks }

theorem notify_eq (s : State ω σ) (request : Request σ) (wanted : Bool) (event : Event) :
    s.notify request.sink wanted event =
      { s with sinks := request.play (if wanted then [event] else []) s.sinks } := by
  unfold notify Request.play
  cases request.sink <;> cases wanted <;> rfl

theorem announce_eq (s : State ω σ) (request : Request σ) :
    s.announce request request.claimed.shape (s.dispatcher.outcome request.claimed.shape)
      (s.dispatcher.lookup request.claimed.shape).2 = s.enter request := by
  rw [announce, notify_eq, notify_eq, enter, Request.opening, Request.play_append]

end Events

section Dispatch

variable {s : State ω σ} {request : Request σ}

theorem prepare_of_rejects {e : Rejection}
    (h : request.claimed.Rejects s.dispatcher.limits request.args e) :
    s.prepare request = (.error e, s) := by
  cases h with
  | tooMany beyond => exact prepare_of_defect (Signature.planFor_of_lt beyond (some .host))
  | mismatched within mismatched =>
      exact prepare_of_mismatch (Signature.planFor_of_le within (some .host))
        (Signature.ofArgs_eq_error_iff.2 mismatched)

theorem prepare_of_accepts (h : request.claimed.Accepts s.dispatcher.limits request.args) :
    s.prepare request =
      match s.dispatcher.lookup request.claimed.shape with
      | (.error e, dispatcher) => (.error (.build e), { s with dispatcher })
      | (.ok (t, outcome), dispatcher) =>
          (.ok ⟨request.claimed.frameOf request.args, t, (s.mask request.sink).call⟩,
            s.announce request request.claimed.shape outcome dispatcher) :=
  prepare_of_frame (Signature.planFor_of_le h.1 (some .host)) (Signature.ofArgs_of_types h.2)

def entrance? (s : State ω σ) (signature : Signature) (request : Request σ) :
    Option (List Value × State ω σ) :=
  match s.prepare request with
  | (.ok call, called) =>
      match call.trampoline.deliver signature call.frame with
      | .ok received => some (received, called)
      | .error _ => none
  | (.error _, _) => none

inductive Ended (s : State ω σ) (perform : List Value → State ω σ → UInt64 × State ω σ)
    (signature : Signature) (request : Request σ) : Except Rejection Value × State ω σ → Prop where
  | rejected {e : Rejection}
      (rejects : request.claimed.Rejects s.dispatcher.limits request.args e)
      (barred : s.entrance? signature request = none) :
      Ended s perform signature request (.error e, s)
  | unbuilt {e : BuildError}
      (accepts : request.claimed.Accepts s.dispatcher.limits request.args)
      (fails : s.dispatcher.Fails request.claimed.shape e)
      (barred : s.entrance? signature request = none) :
      Ended s perform signature request (.error (.build e),
        { s with dispatcher := (s.dispatcher.lookup request.claimed.shape).2 })
  | returned {t : Trampoline} {received : List Value} {word : UInt64} {after : State ω σ}
      (accepts : request.claimed.Accepts s.dispatcher.limits request.args)
      (found : (s.dispatcher.lookup request.claimed.shape).1 =
        .ok (t, s.dispatcher.outcome request.claimed.shape))
      (delivered : t.deliver signature (request.claimed.frameOf request.args) = .ok received)
      (entered : s.entrance? signature request = some (received, s.enter request))
      (ran : perform received (s.enter request) = (word, after)) :
      Ended s perform signature request
        (.ok (Value.ofWord request.claimed.ret (t.collect signature word)),
          after.leave request (s.mask request.sink))

theorem prepare_of_found {t : Trampoline}
    (h : request.claimed.Accepts s.dispatcher.limits request.args)
    (hlookup : (s.dispatcher.lookup request.claimed.shape).1 =
      .ok (t, s.dispatcher.outcome request.claimed.shape)) :
    s.prepare request =
      (.ok ⟨request.claimed.frameOf request.args, t, (s.mask request.sink).call⟩,
        s.enter request) := by
  rw [prepare_of_accepts h, ← announce_eq]
  generalize s.dispatcher.lookup request.claimed.shape = looked at hlookup ⊢
  obtain ⟨_, d⟩ := looked
  obtain rfl := hlookup
  rfl

variable (perform : List Value → State ω σ → UInt64 × State ω σ) (signature : Signature)
  (request)

theorem dispatchWith_of_rejects {e : Rejection}
    (h : request.claimed.Rejects s.dispatcher.limits request.args e) :
    s.dispatchWith perform signature request = (.error e, s) ∧
      s.entrance? signature request = none := by
  simp only [dispatchWith, entrance?, prepare_of_rejects h, and_self]

theorem dispatchWith_of_fails {e : BuildError}
    (h : request.claimed.Accepts s.dispatcher.limits request.args)
    (hfails : s.dispatcher.Fails request.claimed.shape e) :
    s.dispatchWith perform signature request = (.error (.build e),
        { s with dispatcher := (s.dispatcher.lookup request.claimed.shape).2 }) ∧
      s.entrance? signature request = none := by
  have hlookup := Dispatcher.lookup_eq_error_iff.2 hfails
  simp only [dispatchWith, entrance?, prepare_of_accepts h]
  generalize s.dispatcher.lookup request.claimed.shape = looked at hlookup ⊢
  obtain ⟨_, d⟩ := looked
  obtain rfl := hlookup
  exact ⟨rfl, rfl⟩

theorem dispatchWith_of_found {t : Trampoline} {received : List Value}
    (h : request.claimed.Accepts s.dispatcher.limits request.args)
    (hlookup : (s.dispatcher.lookup request.claimed.shape).1 =
      .ok (t, s.dispatcher.outcome request.claimed.shape))
    (hdeliver : t.deliver signature (request.claimed.frameOf request.args) = .ok received) :
    s.dispatchWith perform signature request =
        (.ok (Value.ofWord request.claimed.ret
            (t.collect signature (perform received (s.enter request)).1)),
          (perform received (s.enter request)).2.leave request (s.mask request.sink)) ∧
      s.entrance? signature request = some (received, s.enter request) := by
  constructor
  · simp only [dispatchWith, prepare_of_found h hlookup, hdeliver, notify_eq]
    rfl
  · simp only [entrance?, prepare_of_found h hlookup, hdeliver]

theorem ended {limits : Limits} {generator : Generator}
    (hs : s.dispatcher.Made limits generator) :
    s.Ended perform signature request (s.dispatchWith perform signature request) := by
  rcases request.claimed.accepts_or_rejects s.dispatcher.limits request.args with
    accepts | ⟨e, rejects⟩
  · cases hlookup : (s.dispatcher.lookup request.claimed.shape).1 with
    | error e =>
        have hfails := Dispatcher.lookup_eq_error_iff.1 hlookup
        obtain ⟨hdispatch, hbarred⟩ := dispatchWith_of_fails request perform signature accepts hfails
        rw [hdispatch]
        exact .unbuilt accepts hfails hbarred
    | ok found =>
        obtain ⟨t, outcome⟩ := found
        obtain ⟨ht, rfl, -⟩ := hs.lookup_eq_ok hlookup
        have hdeliver :=
          ht.deliver_of_fits (Signature.fits_frameOf accepts.2 (some .host)) signature
        obtain ⟨hdispatch, hentered⟩ :=
          dispatchWith_of_found request perform signature accepts hlookup hdeliver
        rw [hdispatch]
        exact .returned accepts hlookup hdeliver hentered rfl
  · obtain ⟨hdispatch, hbarred⟩ := dispatchWith_of_rejects request perform signature rejects
    rw [hdispatch]
    exact .rejected rejects hbarred

theorem dispatchWith_of_honest {limits : Limits} {generator : Generator}
    (hs : s.dispatcher.Made limits generator)
    (h : request.claimed.Accepts s.dispatcher.limits request.args)
    (hbuild : ∀ attempt, ∃ t, Trampoline.build generator attempt request.claimed.shape = .ok t) :
    s.dispatchWith perform request.claimed request =
        (.ok (Value.ofWord request.claimed.ret (perform request.args (s.enter request)).1),
          (perform request.args (s.enter request)).2.leave request (s.mask request.sink)) ∧
      s.entrance? request.claimed request = some (request.args, s.enter request) := by
  obtain ⟨t, hlookup, ht⟩ := hs.lookup_ok hbuild
  have hcall := dispatchWith_of_found request perform request.claimed h hlookup
    (Trampoline.deliver_frameOf ht h.2)
  rwa [Trampoline.ofWord_collect ht] at hcall

end Dispatch

section Reachable

variable {limits : Limits} {generator : Generator}

def start (limits : Limits) (generator : Generator) (world : ω) (sinks : σ) : State ω σ :=
  ⟨.new limits generator, world, sinks⟩

theorem kept_made (limits : Limits) (generator : Generator) :
    Kept (fun _ => True) (Dispatcher.Made limits generator) where
  planned := fun _ _ _ _ _ => True.intro
  lookup := fun _ shape h _ => h.lookup shape

theorem made_after (limits : Limits) (generator : Generator) (world : ω) (sinks : σ)
    (operations : List (Operation ω σ)) :
    ((start limits generator world sinks).after operations).dispatcher.Made limits generator :=
  (kept_made limits generator).after (Dispatcher.made_new limits generator)
    fun _ _ => True.intro

end Reachable

section Checked

variable {limits : Limits} {generator : Generator}

structure Checked (limits : Limits) (s : State ω σ) (sig : Signature) (args : List Value)
    (result : Except Rejection Value × State ω σ) : Prop where
  rejected : ∀ e, sig.Rejects limits args e → result = (.error e, s)
  only : ∀ e, result.1 = .error e → sig.Rejects limits args e ∨
    ∃ b, e = .build b ∧ sig.Accepts limits args ∧ s.dispatcher.Fails sig.shape b
  returns : sig.Accepts limits args → (∀ b, ¬s.dispatcher.Fails sig.shape b) →
    ∃ v, result.1 = .ok v

theorem checked_dispatchWith {s : State ω σ} (hs : s.dispatcher.Made limits generator)
    (perform : List Value → State ω σ → UInt64 × State ω σ) (signature : Signature)
    (request : Request σ) :
    Checked limits s request.claimed request.args (s.dispatchWith perform signature request) := by
  have hended := ended request perform signature hs
  have hlimits := hs.limits_eq
  generalize s.dispatchWith perform signature request = result at hended ⊢
  subst hlimits
  cases hended with
  | rejected rejects _ =>
      refine ⟨?_, ?_, ?_⟩
      · intro e h
        rw [rejects.unique h]
      · rintro e ⟨⟩
        exact .inl rejects
      · intro accepts
        exact absurd rejects accepts.not_rejects
  | unbuilt accepts fails _ =>
      refine ⟨?_, ?_, ?_⟩
      · intro e h
        exact absurd h accepts.not_rejects
      · rintro e ⟨⟩
        exact .inr ⟨_, rfl, accepts, fails⟩
      · intro _ h
        exact absurd fails (h _)
  | returned accepts _ _ _ _ =>
      refine ⟨?_, ?_, ?_⟩
      · intro e h
        exact absurd h accepts.not_rejects
      · rintro e ⟨⟩
      · intro _ _
        exact ⟨_, rfl⟩

end Checked

end State

namespace Dispatcher

variable {limits : Limits} {generator : Generator} {d : Dispatcher}

structure Resolved {α : Type} (limits : Limits) (d : Dispatcher) (sig : Signature)
    (result : Except Rejection α × Dispatcher) : Prop where
  rejected : limits.maxArity < sig.arity →
    result = (.error (.signature (.tooManyArguments sig.arity limits.maxArity)), d)
  only : ∀ e, result.1 = .error e → limits.maxArity < sig.arity ∨
    ∃ b, e = .build b ∧ d.Fails sig.shape b
  returns : sig.arity ≤ limits.maxArity → (∀ b, ¬d.Fails sig.shape b) → ∃ a, result.1 = .ok a

theorem resolve_of_lt {sig : Signature} (h : d.limits.maxArity < sig.arity) :
    d.resolve sig =
      (.error (.signature (.tooManyArguments sig.arity d.limits.maxArity)), d) := by
  rw [resolve, Signature.plan, Signature.planFor_of_lt h]

theorem resolve_of_le {sig : Signature} (h : sig.arity ≤ d.limits.maxArity) :
    d.resolve sig = ((d.lookup sig.shape).1.mapError .build, (d.lookup sig.shape).2) := by
  rw [resolve, Signature.plan, Signature.planFor_of_le h]
  rfl

theorem Made.resolved {α : Type} (hd : d.Made limits generator) (sig : Signature)
    (answer : Trampoline × Outcome → α) :
    d.Resolved limits sig ((d.resolve sig).1.map answer, (d.resolve sig).2) := by
  have hlimits := hd.limits_eq
  subst hlimits
  rcases Nat.lt_or_ge d.limits.maxArity sig.arity with beyond | within
  · rw [resolve_of_lt beyond]
    refine ⟨fun _ => rfl, fun _ _ => .inl beyond, fun within => ?_⟩
    exact absurd beyond (Nat.not_lt.2 within)
  · rw [resolve_of_le within]
    refine ⟨fun beyond => absurd beyond (Nat.not_lt.2 within), ?_, ?_⟩
    · intro e h
      cases hlookup : (d.lookup sig.shape).1 with
      | error b =>
          rw [hlookup] at h
          cases h
          exact .inr ⟨b, rfl, lookup_eq_error_iff.1 hlookup⟩
      | ok found =>
          rw [hlookup] at h
          cases h
    · intro _ h
      cases hlookup : (d.lookup sig.shape).1 with
      | error b => exact absurd (lookup_eq_error_iff.1 hlookup) (h b)
      | ok found => exact ⟨_, rfl⟩

end Dispatcher

namespace State

variable {ω σ : Type}

theorem rejected_exactly (limits : Limits) (generator : Generator) (world : ω) (sinks : σ)
    (operations : List (Operation ω σ)) (callee : Callee ω σ) (sig : Signature)
    (args : List Value) (sink : Option (Sink σ)) :
    let s := (start limits generator world sinks).after operations
    Checked limits s sig args (s.dispatchObserved callee sig args sink) ∧
      Checked limits s sig args (s.dispatch callee sig args) ∧
      (∀ e sink, sig.Rejects limits args e →
        s.entrance? callee.signature ⟨callee.address, sig, args, sink⟩ = none) ∧
      s.dispatcher.Resolved limits sig (s.dispatcher.warm sig) ∧
      s.dispatcher.Resolved limits sig (s.dispatcher.trampolineOf sig) := by
  intro s
  have hs : s.dispatcher.Made limits generator :=
    made_after limits generator world sinks operations
  have hcall : ∀ sink, Checked limits s sig args (s.dispatchObserved callee sig args sink) :=
    fun sink => checked_dispatchWith hs _ callee.signature ⟨callee.address, sig, args, sink⟩
  refine ⟨hcall sink, hcall none, ?_, hs.resolved sig (·.2), hs.resolved sig (·.1)⟩
  intro e sink rejects
  rw [← hs.limits_eq] at rejects
  let perform (received : List Value) (s : State ω σ) := (callee.body received).run s
  exact (dispatchWith_of_rejects ⟨callee.address, sig, args, sink⟩ perform callee.signature
    rejects).2

end State

end ForeignCall
