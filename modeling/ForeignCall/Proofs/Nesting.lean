import ForeignCall.Proofs.Calls
import ForeignCall.Proofs.Transparency

namespace ForeignCall

variable {ω σ : Type} {limits : Limits} {generator : Generator}

structure Meaning (ω σ : Type) where
  word : UInt64
  world : ω
  calls : Calls σ

def Program.meaning (limits : Limits) : Program ω σ → ω → Meaning ω σ
  | .finish word, world => ⟨word, world, .none⟩
  | .act effect next, world => (next (effect world)).meaning limits (effect world)
  | .call request signature body next, world =>
      match request.claimed.rejection? limits request.args with
      | some e =>
          let rest := (next (.error e)).meaning limits world
          ⟨rest.word, rest.world, .call request signature (.error e) .none rest.calls⟩
      | none =>
          let inner := (body request.args).meaning limits world
          let result := .ok (Value.ofWord request.claimed.ret inner.word)
          let rest := (next result).meaning limits inner.world
          ⟨rest.word, rest.world, .call request signature result inner.calls rest.calls⟩

def Calls.Honest (limits : Limits) : Calls σ → Prop
  | .none => True
  | .call request signature _ inner later =>
      (request.claimed.Accepts limits request.args → request.claimed = signature) ∧
        inner.Honest limits ∧ later.Honest limits

def Calls.lookups (limits : Limits) : Calls σ → List Shape
  | .none => []
  | .call request _ _ inner later =>
      (if request.claimed.Accepts limits request.args then [request.claimed.shape] else []) ++
        (inner.lookups limits ++ later.lookups limits)

namespace Dispatcher

def lookupAll (d : Dispatcher) (shapes : List Shape) : Dispatcher :=
  shapes.foldl (fun d shape => (d.lookup shape).2) d

theorem lookupAll_append (d : Dispatcher) (xs ys : List Shape) :
    d.lookupAll (xs ++ ys) = (d.lookupAll xs).lookupAll ys :=
  List.foldl_append

theorem Made.lookupAll {d : Dispatcher} (h : d.Made limits generator) (shapes : List Shape) :
    (d.lookupAll shapes).Made limits generator := by
  induction shapes generalizing d with
  | nil => exact h
  | cons shape shapes ih => exact ih (h.lookup shape)

end Dispatcher

section Path

def Under (path : List Nat) (position : Nat) (here : List Nat) : Prop :=
  ∃ k, position ≤ k ∧ path ++ [k] <+: here

variable {path here there : List Nat} {position : Nat}

theorem under_self : Under path position (path ++ [position]) :=
  ⟨position, Nat.le_refl _, List.prefix_refl _⟩

theorem Under.trans (h : Under path position here) (hthere : here <+: there) :
    Under path position there := by
  obtain ⟨k, hk, hbelow⟩ := h
  exact ⟨k, hk, hbelow.trans hthere⟩

theorem Under.mono {earlier : Nat} (h : Under path position here) (hle : earlier ≤ position) :
    Under path earlier here := by
  obtain ⟨k, hk, hbelow⟩ := h
  exact ⟨k, Nat.le_trans hle hk, hbelow⟩

theorem Under.prefix_path (h : Under path position here) : path <+: here := by
  obtain ⟨k, -, hbelow⟩ := h
  exact (List.prefix_append path [k]).trans hbelow

theorem Under.not_above (h : Under path position here) : ¬here <+: path := by
  obtain ⟨k, -, hbelow⟩ := h
  intro hback
  have hlen := (hbelow.trans hback).length_le
  rw [List.length_append, List.length_singleton] at hlen
  omega

theorem Under.not_later (h : path ++ [position] <+: here) :
    ¬Under path (position + 1) here := by
  rintro ⟨k, hk, hbelow⟩
  have hlen : (path ++ [position]).length = (path ++ [k]).length := by
    rw [List.length_append, List.length_append, List.length_singleton, List.length_singleton]
  have heq := (List.prefix_of_prefix_length_le h hbelow (Nat.le_of_eq hlen)).eq_of_length hlen
  rw [List.append_cancel_left_eq] at heq
  injection heq with hposition
  omega

end Path

section Log

-- An event that a sink is told of a call. The path leads down to the call: its position among the
-- calls that its caller makes, after the path of the call that the caller itself runs in.
structure Occurrence (σ : Type) where
  path : List Nat
  sink : Sink σ
  event : Event

def hear (log : List (Occurrence σ)) (sinks : σ) : σ :=
  log.foldl (fun sinks o => o.sink.receive o.event sinks) sinks

theorem hear_append (xs ys : List (Occurrence σ)) (sinks : σ) :
    hear (xs ++ ys) sinks = hear ys (hear xs sinks) :=
  List.foldl_append

namespace Request

def mask (request : Request σ) (sinks : σ) : EventMask :=
  match request.sink with
  | some sink => sink.mask sinks
  | none => .none

def occurrences (request : Request σ) (path : List Nat) (events : List Event) :
    List (Occurrence σ) :=
  match request.sink with
  | some sink => events.map fun event => ⟨path, sink, event⟩
  | none => []

theorem hear_occurrences (request : Request σ) (path : List Nat) (events : List Event) (sinks : σ) :
    hear (request.occurrences path events) sinks = request.play events sinks := by
  unfold hear occurrences play
  cases request.sink with
  | none => rfl
  | some sink => exact List.foldl_map

theorem path_of_mem_occurrences {request : Request σ} {path : List Nat} {events : List Event}
    {o : Occurrence σ} (h : o ∈ request.occurrences path events) : o.path = path := by
  unfold occurrences at h
  split at h
  · obtain ⟨event, -, rfl⟩ := List.mem_map.1 h
    rfl
  · cases h

end Request

def Request.told (request : Request σ) (here : List Nat) (outcome : Outcome)
    (within : σ → List (Occurrence σ)) (sinks : σ) : List (Occurrence σ) :=
  let opening := request.occurrences here (request.opening (request.mask sinks) outcome)
  let closing := request.occurrences here (request.closing (request.mask sinks))
  opening ++ (within (hear opening sinks) ++ closing)

theorem Request.hear_told (request : Request σ) (here : List Nat) (outcome : Outcome)
    (within : σ → List (Occurrence σ)) (sinks : σ) :
    let opened := request.play (request.opening (request.mask sinks) outcome) sinks
    hear (request.told here outcome within sinks) sinks =
      request.play (request.closing (request.mask sinks)) (hear (within opened) opened) := by
  simp only [told, hear_append, hear_occurrences]

def Calls.log (limits : Limits) :
    Calls σ → List Nat → Nat → Dispatcher → σ → List (Occurrence σ)
  | .none, _, _, _, _ => []
  | .call request _ _ inner later, path, position, d, sinks =>
      if request.claimed.Accepts limits request.args then
        let here := path ++ [position]
        let looked := (d.lookup request.claimed.shape).2
        let told := request.told here (d.outcome request.claimed.shape)
          (inner.log limits here 0 looked) sinks
        told ++ later.log limits path (position + 1) (looked.lookupAll (inner.lookups limits))
          (hear told sinks)
      else
        later.log limits path (position + 1) d sinks

end Log

section Nodes

inductive Calls.Node (limits : Limits) :
    Calls σ → List Nat → Nat → List Nat → Request σ → Prop where
  | self {request : Request σ} {signature : Signature} {result : Except Rejection Value}
      {inner later : Calls σ} {path : List Nat} {position : Nat}
      (accepts : request.claimed.Accepts limits request.args) :
      Node limits (.call request signature result inner later) path position
        (path ++ [position]) request
  | inner {outer request : Request σ} {signature : Signature} {result : Except Rejection Value}
      {inner later : Calls σ} {path here : List Nat} {position : Nat}
      (accepts : outer.claimed.Accepts limits outer.args)
      (node : Node limits inner (path ++ [position]) 0 here request) :
      Node limits (.call outer signature result inner later) path position here request
  | later {earlier request : Request σ} {signature : Signature} {result : Except Rejection Value}
      {inner later : Calls σ} {path here : List Nat} {position : Nat}
      (node : Node limits later path (position + 1) here request) :
      Node limits (.call earlier signature result inner later) path position here request

def Occurrence.Inside (o : Occurrence σ) (here : List Nat) : Prop :=
  Under here 0 o.path

def Request.Encloses (request : Request σ) (here : List Nat) (log : List (Occurrence σ))
    (sinks : σ) : Prop :=
  ∃ before within after outcome,
    let mask := request.mask (hear before sinks)
    log = before ++ (request.occurrences here (request.opening mask outcome) ++
      (within ++ request.occurrences here (request.closing mask)) ++ after) ∧
    (∀ o ∈ within, o.Inside here) ∧ (∀ o ∈ before, ¬o.Inside here) ∧
    ∀ o ∈ after, ¬o.Inside here

section Append

variable {request : Request σ} {here : List Nat} {log : List (Occurrence σ)} {sinks : σ}

theorem Request.Encloses.append_left {xs : List (Occurrence σ)}
    (h : request.Encloses here log (hear xs sinks)) (hxs : ∀ o ∈ xs, ¬o.Inside here) :
    request.Encloses here (xs ++ log) sinks := by
  obtain ⟨before, within, after, outcome, rfl, hwithin, hbefore, hafter⟩ := h
  refine ⟨xs ++ before, within, after, outcome, ?_, hwithin, ?_, hafter⟩
  · simp only [hear_append, List.append_assoc]
  · exact List.forall_mem_append.2 ⟨hxs, hbefore⟩

theorem Request.Encloses.append_right {ys : List (Occurrence σ)}
    (h : request.Encloses here log sinks) (hys : ∀ o ∈ ys, ¬o.Inside here) :
    request.Encloses here (log ++ ys) sinks := by
  obtain ⟨before, within, after, outcome, rfl, hwithin, hbefore, hafter⟩ := h
  refine ⟨before, within, after ++ ys, outcome, ?_, hwithin, hbefore, ?_⟩
  · simp only [List.append_assoc]
  · exact List.forall_mem_append.2 ⟨hafter, hys⟩

end Append

theorem Request.prefix_of_mem_told {request : Request σ} {here : List Nat} {outcome : Outcome}
    {within : σ → List (Occurrence σ)} {sinks : σ}
    (hwithin : ∀ sinks, ∀ o ∈ within sinks, o.Inside here) {o : Occurrence σ}
    (h : o ∈ request.told here outcome within sinks) : here <+: o.path := by
  rw [told, List.mem_append, List.mem_append] at h
  rcases h with hopening | hinside | hclosing
  · exact path_of_mem_occurrences hopening ▸ List.prefix_refl _
  · exact (hwithin _ _ hinside).prefix_path
  · exact path_of_mem_occurrences hclosing ▸ List.prefix_refl _

namespace Calls

theorem under_of_mem_log {calls : Calls σ} {path : List Nat} {position : Nat} {d : Dispatcher}
    {sinks : σ} {o : Occurrence σ} (h : o ∈ calls.log limits path position d sinks) :
    Under path position o.path := by
  induction calls generalizing path position d sinks o with
  | none => cases h
  | call request signature result inner later ihInner ihLater =>
      rw [log] at h
      split at h
      · rcases List.mem_append.1 h with htold | hlater
        · exact under_self.trans (Request.prefix_of_mem_told (fun _ _ => ihInner) htold)
        · exact (ihLater hlater).mono (Nat.le_succ _)
      · exact (ihLater h).mono (Nat.le_succ _)

theorem Node.under {calls : Calls σ} {path here : List Nat} {position : Nat} {request : Request σ}
    (h : calls.Node limits path position here request) : Under path position here := by
  induction h with
  | self accepts => exact under_self
  | inner accepts node ih => exact under_self.trans ih.prefix_path
  | later node ih => exact ih.mono (Nat.le_succ _)

theorem Node.encloses {calls : Calls σ} {path here : List Nat} {position : Nat}
    {request : Request σ} (h : calls.Node limits path position here request) (d : Dispatcher)
    (sinks : σ) : request.Encloses here (calls.log limits path position d sinks) sinks := by
  induction h generalizing d sinks with
  | @self request _ _ _ _ path position accepts =>
      rw [log, if_pos accepts]
      refine ⟨[], _, _, _, rfl, fun o ho => under_of_mem_log ho, ?_, ?_⟩
      · rintro o ⟨⟩
      · intro o hlater hinside
        exact Under.not_later hinside.prefix_path (under_of_mem_log hlater)
  | @inner outer request _ _ _ _ path here position accepts node ih =>
      rw [log, if_pos accepts]
      simp only [Request.told, List.append_assoc]
      -- The ends of the outer call have a path that is too short to be inside the inner one.
      have hends {events : List Event} : ∀ o ∈ outer.occurrences (path ++ [position]) events,
          ¬o.Inside here := by
        intro o ho hinside
        rw [Occurrence.Inside, Request.path_of_mem_occurrences ho] at hinside
        exact node.under.not_above hinside.prefix_path
      refine .append_left ((ih _ _).append_right (List.forall_mem_append.2 ⟨hends, ?_⟩)) hends
      intro o hlater hinside
      exact Under.not_later (node.under.prefix_path.trans hinside.prefix_path)
        (under_of_mem_log hlater)
  | @later earlier request _ _ _ _ path here position node ih =>
      rw [log]
      split
      · refine (ih _ _).append_left ?_
        intro o htold hinside
        have hbelow := Request.prefix_of_mem_told (fun _ _ => under_of_mem_log) htold
        exact Under.not_later hbelow (node.under.trans hinside.prefix_path)
      · exact ih d sinks

end Calls

end Nodes

theorem Generator.builds_reliable (h : limits.maxArity * 8 ≤ 2147483647) (calls : Calls σ) :
    reliable.Builds (calls.lookups limits) := by
  induction calls with
  | none =>
      rintro shape ⟨⟩
  | call request signature result inner later ihInner ihLater =>
      refine builds_append.2 ⟨?_, builds_append.2 ⟨ihInner, ihLater⟩⟩
      intro shape hshape attempt
      split at hshape
      · next accepts =>
          obtain rfl := List.mem_singleton.1 hshape
          exact Dispatcher.build_reliable_within h accepts.1 attempt
      · cases hshape

namespace State

variable {s : State ω σ}

theorem run_eq_meaning {program : Program ω σ} (hs : s.dispatcher.Made limits generator)
    (hhonest : (program.meaning limits s.world).calls.Honest limits)
    (hbuilds : generator.Builds ((program.meaning limits s.world).calls.lookups limits))
    (path : List Nat) (position : Nat) :
    program.trace s = (program.meaning limits s.world).calls ∧
      program.run s = ((program.meaning limits s.world).word,
        ⟨s.dispatcher.lookupAll ((program.meaning limits s.world).calls.lookups limits),
          (program.meaning limits s.world).world,
          hear ((program.meaning limits s.world).calls.log limits path position s.dispatcher
            s.sinks) s.sinks⟩) := by
  induction program generalizing s path position with
  | finish word => exact ⟨rfl, rfl⟩
  | act effect next ih =>
      exact ih _ (s := { s with world := effect s.world }) hs hhonest hbuilds path position
  | call request signature body next ihBody ihNext =>
      let perform (received : List Value) (s : State ω σ) := (body received).run s
      rw [Program.trace, Program.run]
      cases hrejection : request.claimed.rejection? limits request.args with
      | some e =>
          have rejects := Signature.rejection?_eq_some_iff.1 hrejection
          have hnot : ¬request.claimed.Accepts limits request.args :=
            fun accepts => accepts.not_rejects rejects
          rw [← hs.limits_eq] at rejects
          obtain ⟨hdispatch, hbarred⟩ := dispatchWith_of_rejects request perform signature rejects
          simp only [Program.meaning, hrejection, Calls.lookups, Calls.log, if_neg hnot,
            List.nil_append, perform, hdispatch, hbarred] at hbuilds ⊢
          simp only [Program.meaning, hrejection, Calls.Honest] at hhonest
          obtain ⟨htrace, hrun⟩ := ihNext _ hs hhonest.2.2 hbuilds path (position + 1)
          exact ⟨congrArg _ htrace, hrun⟩
      | none =>
          have accepts := Signature.rejection?_eq_none_iff.1 hrejection
          simp only [Program.meaning, hrejection, Calls.Honest, Calls.lookups, if_pos accepts,
            Generator.builds_append] at hhonest hbuilds ⊢
          obtain ⟨hcall, hbody, hnext⟩ := hhonest
          obtain rfl := hcall accepts
          obtain ⟨hshape, hinner, hlater⟩ := hbuilds
          have haccepts := accepts
          rw [← hs.limits_eq] at haccepts
          obtain ⟨hdispatch, hentered⟩ := dispatchWith_of_honest request perform hs haccepts
            (hshape _ (List.mem_singleton_self _))
          let here := path ++ [position]
          let shape := request.claimed.shape
          let inner := (body request.args).meaning limits s.world
          let after : State ω σ :=
            ⟨(s.enter request).dispatcher.lookupAll (inner.calls.lookups limits), inner.world,
              hear (request.told here (s.dispatcher.outcome shape)
                (inner.calls.log limits here 0 (s.enter request).dispatcher) s.sinks) s.sinks⟩
          obtain ⟨hinnerTrace, hinnerRun⟩ := ihBody _ (made_enter hs request) hbody hinner here 0
          have hword : ((body request.args).run (s.enter request)).1 = inner.word :=
            congrArg Prod.fst hinnerRun
          have hafter : ((body request.args).run (s.enter request)).2.leave request
              (s.mask request.sink) = after := by
            simp only [hinnerRun, leave, after, Request.hear_told]
            rfl
          have hmade : after.dispatcher.Made limits generator :=
            (made_enter hs request).lookupAll _
          obtain ⟨hlaterTrace, hlaterRun⟩ :=
            ihNext (.ok (Value.ofWord request.claimed.ret inner.word)) (s := after) hmade
              hnext hlater path (position + 1)
          simp only [perform, hafter, hword] at hdispatch
          simp only [hdispatch, hentered, Calls.log, if_pos accepts, Dispatcher.lookupAll_append,
            hear_append]
          exact ⟨congr (congrArg _ hinnerTrace) hlaterTrace, hlaterRun⟩

theorem nested_in_preorder (limits : Limits) (generator : Generator) (world : ω) (sinks : σ)
    (operations : List (Operation ω σ)) (program : Program ω σ) :
    let s := (start limits generator world sinks).after operations
    let meaning := program.meaning limits s.world
    let log := meaning.calls.log limits [] 0 s.dispatcher s.sinks
    meaning.calls.Honest limits → generator.Builds (meaning.calls.lookups limits) →
      program.trace s = meaning.calls ∧
      program.run s = (meaning.word,
        ⟨s.dispatcher.lookupAll (meaning.calls.lookups limits), meaning.world, hear log s.sinks⟩) ∧
      ∀ here request, meaning.calls.Node limits [] 0 here request →
        request.Encloses here log s.sinks := by
  intro s meaning log hhonest hbuilds
  have hs : s.dispatcher.Made limits generator :=
    made_after limits generator world sinks operations
  obtain ⟨htrace, hrun⟩ := run_eq_meaning hs hhonest hbuilds [] 0
  exact ⟨htrace, hrun, fun here request node => node.encloses s.dispatcher s.sinks⟩

theorem nested_in_preorder_shared :
    let sig : Signature := ⟨[.u64], .u64, by decide⟩
    let other : Signature := ⟨[.f32, .u8], .void, by decide⟩
    let request (claimed : Signature) (args : List Value) : Request (List Event) :=
      ⟨⟨16, by decide⟩, claimed, args, some (.recorder .callOnly)⟩
    let program : Program Unit (List Event) :=
      .call (request sig [.u64 1]) sig (fun _ =>
        .call (request sig [.u64 2]) sig (fun _ => .finish 5) fun _ =>
        .call (request sig []) sig (fun _ => .finish 5) fun _ =>
        .call (request other [.f32 0, .u8 1]) other (fun _ => .finish 5) fun _ =>
        .finish 7) fun _ => .finish 0
    let s : State Unit (List Event) := (start .standard .reliable () []).after []
    (program.trace s).results = [.ok (.u64 7), .ok (.u64 5), .error (.argument (.arity 1 0)),
        .ok .unit] ∧
      (program.run s).2.dispatcher.cache.builds = 2 ∧
      (program.run s).2.dispatcher.cache.hits = 1 ∧
      (program.run s).2.sinks = [.enter ⟨16, by decide⟩ sig, .enter ⟨16, by decide⟩ sig,
        .exit ⟨16, by decide⟩ sig, .enter ⟨16, by decide⟩ other, .exit ⟨16, by decide⟩ other,
        .exit ⟨16, by decide⟩ sig] := by
  intro sig other request program s
  have hhonest : (program.meaning .standard s.world).calls.Honest .standard :=
    ⟨fun _ => rfl, ⟨fun _ => rfl, trivial, fun _ => rfl, trivial, fun _ => rfl, trivial, trivial⟩,
      trivial⟩
  have hbuilds : Generator.reliable.Builds
      ((program.meaning .standard s.world).calls.lookups .standard) :=
    Generator.builds_reliable (by decide) _
  obtain ⟨htrace, hrun, -⟩ :=
    nested_in_preorder .standard .reliable () [] [] program hhonest hbuilds
  rw [htrace, hrun]
  exact ⟨by decide, by decide, by decide, by decide⟩

end State

end ForeignCall
