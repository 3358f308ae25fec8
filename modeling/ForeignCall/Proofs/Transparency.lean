import ForeignCall.Proofs.Outcome

namespace ForeignCall

def Generator.Builds (generator : Generator) (shapes : List Shape) : Prop :=
  ∀ shape ∈ shapes, ∀ attempt, ∃ t, Trampoline.build generator attempt shape = .ok t

theorem Generator.builds_append {generator : Generator} {xs ys : List Shape} :
    generator.Builds (xs ++ ys) ↔ generator.Builds xs ∧ generator.Builds ys :=
  List.forall_mem_append

namespace Dispatcher

theorem build_reliable {shape : Shape} (attempt : Nat) (h : shape.frameWords * 8 ≤ 2147483647) :
    ∃ t, Trampoline.build .reliable attempt shape = .ok t := by
  rw [Trampoline.build, if_neg (Nat.not_lt.2 h)]
  exact ⟨_, rfl⟩

theorem build_reliable_of_lt {shape : Shape} (attempt : Nat)
    (h : 2147483647 < shape.frameWords * 8) :
    Trampoline.build .reliable attempt shape = .error (.frameTooLarge shape.frameWords) := by
  rw [Trampoline.build, if_pos h]

theorem build_reliable_within {limits : Limits} {sig : Signature}
    (h : limits.maxArity * 8 ≤ 2147483647) (hsig : sig.arity ≤ limits.maxArity) (attempt : Nat) :
    ∃ t, Trampoline.build .reliable attempt sig.shape = .ok t := by
  have hwords := Nat.le_trans sig.frameWords_le_arity hsig
  exact build_reliable attempt (by omega)

variable {limits : Limits} {d : Dispatcher} {shape : Shape}

theorem Made.lookup_error (h : d.Made limits .reliable)
    (hframe : 2147483647 < shape.frameWords * 8) :
    (d.lookup shape).1 = .error (.frameTooLarge shape.frameWords) := by
  refine lookup_eq_error_iff.2 ⟨?_, ?_⟩
  · cases hfound : d.cache.find? shape with
    | none => rfl
    | some t =>
        have hrange := (h.sound.made _ _ hfound).inRange
        omega
  · rw [h.generator_eq]
    exact build_reliable_of_lt d.cache.attempts hframe

theorem simulation_made (limits : Limits) :
    State.Simulation fun d d' => d.Made limits .reliable ∧ d'.Made limits .reliable where
  limits_eq := fun _ _ h => h.1.limits_eq.trans h.2.limits_eq.symm
  lookup := fun _ _ shape h => ⟨h.1.lookup shape, h.2.lookup shape⟩
  agree := by
    rintro d d' shape ⟨h, h'⟩
    rcases Nat.lt_or_ge 2147483647 (shape.frameWords * 8) with hlt | hge
    · rw [h.lookup_error hlt, h'.lookup_error hlt]
      exact .error _
    · obtain ⟨t, hlookup, ht⟩ := h.lookup_ok fun attempt => build_reliable attempt hge
      obtain ⟨u, hlookup', hu⟩ := h'.lookup_ok fun attempt => build_reliable attempt hge
      rw [hlookup, hlookup']
      exact .ok _ _ (ht.deliver_congr hu) (ht.collect_congr hu)

end Dispatcher

namespace State

variable {ω σ : Type}

theorem dispatch_of_made {limits : Limits} {s : State ω σ} {callee : Callee ω σ}
    {args : List Value} (hs : s.dispatcher.Made limits .reliable)
    (harity : callee.signature.arity ≤ limits.maxArity)
    (htypes : args.map Value.type = callee.signature.args)
    (hframe : (callee.signature.planOf (some .host)).shape.frameWords * 8 ≤ 2147483647) :
    let shape := (callee.signature.planOf (some .host)).shape
    let called := { s with dispatcher := (s.dispatcher.lookup shape).2 }
    s.dispatch callee callee.signature args =
      (.ok (Value.ofWord callee.signature.ret ((callee.body args).run called).1),
        ((callee.body args).run called).2) := by
  have haccepts : callee.signature.Accepts s.dispatcher.limits args := by
    rw [hs.limits_eq]
    exact ⟨harity, htypes⟩
  exact (dispatchWith_of_honest ⟨callee.address, callee.signature, args, none⟩
    (fun received s => (callee.body received).run s) hs haccepts
    fun attempt => Dispatcher.build_reliable attempt hframe).1

-- The callee runs once, on `args`, right after the lookup; its word says what is returned.
theorem dispatch_transparent (limits : Limits) (world : ω) (sinks : σ)
    (operations : List (Operation ω σ)) (callee : Callee ω σ) (args : List Value)
    (harity : callee.signature.arity ≤ limits.maxArity)
    (htypes : args.map Value.type = callee.signature.args)
    (hbuild : ∀ attempt, ∃ t, Trampoline.build .reliable attempt
      (callee.signature.planOf (some .host)).shape = .ok t) :
    let s := (start limits .reliable world sinks).after operations
    let shape := (callee.signature.planOf (some .host)).shape
    let called := { s with dispatcher := (s.dispatcher.lookup shape).2 }
    ∃ v, s.dispatch callee callee.signature args = (.ok v, ((callee.body args).run called).2) ∧
      Value.ofBytes callee.signature.ret (littleEndian callee.signature.ret.size
        ((callee.body args).run called).1.toNat) = .ok v ∧
      ∃ fresh, State.dispatch { s with dispatcher := .new limits .reliable } callee
          callee.signature args = (.ok v, fresh) ∧
        fresh.world = ((callee.body args).run called).2.world := by
  intro s shape called
  obtain ⟨t, ht⟩ := hbuild 0
  have hframe := (Trampoline.for_of_build ht).inRange
  have hs : s.dispatcher.Made limits .reliable :=
    made_after limits .reliable world sinks operations
  have hnew := Dispatcher.made_new limits .reliable
  let fresh : State ω σ := { s with dispatcher := .new limits .reliable }
  refine ⟨_, dispatch_of_made hs harity htypes hframe, Value.ofBytes_low _ _, ?_⟩
  -- The two runs of the callee start from dispatchers with different caches.
  have halike : Alike (fun d d' => d.Made limits .reliable ∧ d'.Made limits .reliable)
      { fresh with dispatcher := (fresh.dispatcher.lookup shape).2 } called :=
    ⟨rfl, hnew.lookup shape, hs.lookup shape⟩
  obtain ⟨hword, hafter⟩ :=
    run_alike (Dispatcher.simulation_made limits) (callee.body args) halike
  refine ⟨_, ?_, hafter.world_eq⟩
  rw [← hword]
  exact dispatch_of_made hnew harity htypes hframe

theorem dispatch_transparent_reordered :
    ∃ (callee : Callee (List Value) Unit) (earlier : Signature) (s : State (List Value) Unit),
      callee.signature.args = [.f32, .u64] ∧ callee.signature.ret = .i8 ∧
      earlier.args = [.u64, .f32] ∧ earlier.ret = .u32 ∧
      s = (start .standard .reliable [] ()).after [.warm earlier] ∧
      s.dispatcher.cache.find? (callee.signature.planOf (some .host)).shape ≠ none ∧
      ∃ after, s.dispatch callee callee.signature [.f32 0x7fa00001, .u64 7] =
          (.ok (.i8 (-123)), after) ∧ after.world = [.f32 0x7fa00001, .u64 7] := by
  let sig : Signature := ⟨[.f32, .u64], .i8, by decide⟩
  let earlier : Signature := ⟨[.u64, .f32], .u32, by decide⟩
  let callee : Callee (List Value) Unit :=
    ⟨⟨16, by decide⟩, sig, fun args => .act (fun world => world ++ args) fun _ =>
      .finish 0xffff000000000385⟩
  have hbuild : ∀ attempt, ∃ t, Trampoline.build .reliable attempt
      (callee.signature.planOf (some .host)).shape = .ok t :=
    fun attempt => Dispatcher.build_reliable attempt (by decide)
  obtain ⟨v, hdispatch, hvalue, -⟩ := dispatch_transparent .standard [] () [.warm earlier] callee
    [.f32 0x7fa00001, .u64 7] (by decide) rfl hbuild
  have hlow : Value.ofBytes .i8 (littleEndian 1 0xffff000000000385) = .ok (.i8 (-123)) := by decide
  obtain rfl : .i8 (-123) = v := Except.ok.inj (hlow.symm.trans hvalue)
  exact ⟨callee, earlier, _, rfl, rfl, rfl, rfl, rfl, by decide, _, hdispatch, rfl⟩

end State

end ForeignCall
