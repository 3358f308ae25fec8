import ForeignCall.Proofs.Census
import ForeignCall.Proofs.Outcome

namespace ForeignCall

theorem Shape.countP_le_of_encard_le {shapes : List Shape} {within : Set Shape} {bound : Nat}
    {p : Shape → Bool} (hnodup : shapes.Nodup) (hbound : within.encard ≤ bound)
    (hmem : ∀ shape ∈ shapes, p shape = true → shape ∈ within) : shapes.countP p ≤ bound := by
  have hsubset : ((shapes.filter p).toFinset : Set Shape) ⊆ within := by
    intro shape hshape
    obtain ⟨hshapes, hp⟩ := List.mem_filter.1 (List.mem_toFinset.1 hshape)
    exact hmem shape hshapes hp
  have hcard := (Set.encard_le_encard hsubset).trans hbound
  rw [Set.encard_coe_eq_coe_finsetCard, List.toFinset_card_of_nodup (hnodup.filter p),
    ← List.countP_eq_length_filter] at hcard
  exact Nat.cast_le.1 hcard

structure Cache.Bounded (cache : Cache) (limits : Limits) : Prop where
  counted_le : (cache.shapes.countP fun shape => shape.params.order?.isNone) ≤ 189
  size_le : cache.size ≤ 189 + 3 * ∑ n ∈ Finset.range (limits.maxArity + 1), 3 ^ n

namespace State

variable {ω σ : Type} {limits : Limits} {generator : Generator}

section Slots

structure Recorded (limits : Limits) (generator : Generator) (d : Dispatcher) : Prop where
  made : d.Made limits generator
  planned : ∀ shape ∈ d.cache.shapes, shape.Planned limits (some .host)

theorem kept_recorded (limits : Limits) (generator : Generator) :
    Kept (fun shape => shape.Planned limits (some .host)) (Recorded limits generator) where
  planned := by
    intro d sig plan h hplan
    rw [h.made.limits_eq] at hplan
    exact ⟨sig, plan, hplan, rfl⟩
  lookup := by
    intro d shape h hplanned
    refine ⟨h.made.lookup shape, fun other hmem => ?_⟩
    rcases Cache.mem_shapes_lookup.1 hmem with rfl | hold
    · exact hplanned
    · exact h.planned other hold

theorem recorded_start (limits : Limits) (generator : Generator) (world : ω) (sinks : σ) :
    Recorded limits generator (start limits generator world sinks).dispatcher :=
  ⟨Dispatcher.made_new limits generator, fun _ h => absurd h List.not_mem_nil⟩

theorem Recorded.bounded {d : Dispatcher} (h : Recorded limits generator d) :
    d.cache.Bounded limits := by
  have hnodup := h.made.sound.nodup
  have hhost : (Shape.counted limits .host).encard ≤ (189 : Nat) := Shape.encard_counted_le
  have hcounted : (d.cache.shapes.countP fun shape => shape.params.order?.isNone) ≤ 189 := by
    refine Shape.countP_le_of_encard_le hnodup hhost fun shape hmem horder => ?_
    exact ⟨h.planned shape hmem, Option.isNone_iff_eq_none.1 horder⟩
  have hspelled : (Shape.ordered limits .host).encard ≤ _ := Shape.encard_ordered_le
  have hordered : (d.cache.shapes.countP fun shape => !shape.params.order?.isNone) ≤
      3 * ∑ n ∈ Finset.range (limits.maxArity + 1), 3 ^ n := by
    refine Shape.countP_le_of_encard_le hnodup hspelled fun shape hmem horder => ?_
    refine ⟨h.planned shape hmem, fun hnone => ?_⟩
    rw [hnone] at horder
    cases horder
  refine ⟨hcounted, ?_⟩
  rw [Cache.size_eq_length_shapes,
    List.length_eq_countP_add_countP fun shape : Shape => shape.params.order?.isNone]
  simp only [Bool.not_eq_true, Bool.decide_eq_false]
  omega

end Slots

theorem shapes_bounded (registers : Registers) (limits : Limits) (generator : Generator)
    (world : ω) (sinks : σ) :
    registers.Census limits ∧
      ∀ operations : List (Operation ω σ), (∀ shape, .lookup shape ∉ operations) →
        ((start limits generator world sinks).after operations).dispatcher.cache.Bounded
          limits := by
  refine ⟨registers.census limits, fun operations hdirect => ?_⟩
  have hstart : Recorded limits generator (start limits generator world sinks).dispatcher :=
    recorded_start limits generator world sinks
  have hrecorded := (kept_recorded limits generator).after hstart fun shape hmem =>
    absurd hmem (hdirect shape)
  exact hrecorded.bounded

theorem shapes_bounded_nested :
    let inner : Callee Unit Unit := ⟨⟨16, by decide⟩, ⟨[.f32, .u64], .i8, by decide⟩,
      fun _ => .finish 0⟩
    let outer : Callee Unit Unit := ⟨⟨32, by decide⟩, ⟨List.replicate 7 .u8, .void, by decide⟩,
      fun _ => .dispatch inner inner.signature [.f32 0, .u64 7] none fun _ => .finish 0⟩
    let operations : List (Operation Unit Unit) :=
      [.warm ⟨[.u64, .f64], .u32, by decide⟩,
        .dispatch outer outer.signature (List.replicate 7 (.u8 1))]
    let cache := ((start .standard .reliable () ()).after operations).dispatcher.cache
    (∀ shape, .lookup shape ∉ operations) ∧ cache.Bounded .standard ∧
      cache.shapes = [⟨.counted 1 1, .int⟩, ⟨.ordered (List.replicate 7 .int), .void⟩] := by
  intro inner outer operations cache
  have hdirect : ∀ shape, .lookup shape ∉ operations := by
    intro shape hmem
    simp [operations] at hmem
  have hbounded := (shapes_bounded .host .standard .reliable () ()).2 operations hdirect
  exact ⟨hdirect, hbounded, by decide⟩

end State

end ForeignCall
