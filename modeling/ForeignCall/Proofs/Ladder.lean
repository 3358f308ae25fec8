import ForeignCall.Proofs.Transparency
import ForeignCall.Proofs.Written
import ForeignCall.Signature.Ladder

namespace ForeignCall

theorem filter_range_lt (count bound : Nat) :
    ((List.range count).filter fun n => n < bound) = List.range (min count bound) := by
  induction count with
  | zero => rw [Nat.zero_min]; rfl
  | succ count ih =>
      rw [List.range_succ, List.filter_append, ih]
      rcases Nat.lt_or_ge count bound with h | h
      · have hnext : min (count + 1) bound = count + 1 := Nat.min_eq_left h
        rw [hnext, List.range_succ]
        simp [h, Nat.min_eq_left (Nat.le_of_lt h)]
      · simp [Nat.not_lt.2 h, Nat.min_eq_right h, Nat.min_eq_right (Nat.le_succ_of_le h)]

namespace Dispatcher

def warmAll (d : Dispatcher) : List Signature → List (Except Rejection Outcome) × Dispatcher
  | [] => ([], d)
  | sig :: sigs =>
      let (answer, d) := d.warm sig
      let (answers, d) := d.warmAll sigs
      (answer :: answers, d)

structure Grown (d : Dispatcher) (shapes : List Shape) (after : Dispatcher) : Prop where
  shapes_eq : after.cache.shapes = d.cache.shapes ++ shapes
  builds_eq : after.cache.builds = d.cache.builds + shapes.length
  hits_eq : after.cache.hits = d.cache.hits

variable {limits : Limits} {generator : Generator} {d e after : Dispatcher}

theorem grown_refl (d : Dispatcher) : d.Grown [] d :=
  ⟨(List.append_nil _).symm, rfl, rfl⟩

theorem Grown.trans {xs ys : List Shape} (h : d.Grown xs e) (hafter : e.Grown ys after) :
    d.Grown (xs ++ ys) after where
  shapes_eq := by rw [hafter.shapes_eq, h.shapes_eq, List.append_assoc]
  builds_eq := by rw [hafter.builds_eq, h.builds_eq, List.length_append, Nat.add_assoc]
  hits_eq := hafter.hits_eq.trans h.hits_eq

theorem Made.lookup_new {shape : Shape} (hd : d.Made limits generator)
    (hnew : shape ∉ d.cache.shapes)
    (hbuild : ∀ attempt, ∃ t, Trampoline.build generator attempt shape = .ok t) :
    ∃ t, (d.lookup shape).1 = .ok (t, .built) ∧ d.Grown [shape] (d.lookup shape).2 := by
  obtain ⟨u, hu⟩ := hbuild d.cache.attempts
  have habsent := Cache.find?_of_not_mem hnew
  change ∃ t, (d.cache.lookup shape).1 = .ok (t, .built) ∧
    d.Grown [shape] ⟨d.limits, (d.cache.lookup shape).2⟩
  have hlooked := d.cache.looked shape
  generalize d.cache.lookup shape = looked at hlooked ⊢
  cases hlooked with
  | hit found =>
      rw [habsent] at found
      cases found
  | built _ _ attempted =>
      have hshapes := attempted.shapes_eq
      rw [if_neg hnew] at hshapes
      exact ⟨_, rfl, hshapes, attempted.builds_eq, attempted.hits_eq⟩
  | failed _ build _ =>
      rw [hd.generator_eq, hu] at build
      cases build

section Warm

variable {sig : Signature}

theorem Made.warm_of_lt (hd : d.Made limits generator) (h : limits.maxArity < sig.arity) :
    d.warm sig = (.error (.signature (.tooManyArguments sig.arity limits.maxArity)), d) := by
  have hlimits := hd.limits_eq
  subst hlimits
  rw [warm, resolve_of_lt h]
  rfl

theorem Made.warm_new (hd : d.Made limits generator) (h : sig.arity ≤ limits.maxArity)
    (hnew : sig.shape ∉ d.cache.shapes)
    (hbuild : ∀ attempt, ∃ t, Trampoline.build generator attempt sig.shape = .ok t) :
    d.warm sig = (.ok .built, (d.lookup sig.shape).2) ∧
      d.Grown [sig.shape] (d.lookup sig.shape).2 := by
  obtain ⟨t, hlookup, hgrown⟩ := hd.lookup_new hnew hbuild
  refine ⟨?_, hgrown⟩
  rw [← hd.limits_eq] at h
  rw [warm, resolve_of_le h, hlookup]
  rfl

end Warm

section Run

def firstAnswer (limits : Limits) (sig : Signature) : Except Rejection Outcome :=
  if sig.arity ≤ limits.maxArity then .ok .built
  else .error (.signature (.tooManyArguments sig.arity limits.maxArity))

def shapesWithin (limits : Limits) (sigs : List Signature) : List Shape :=
  (sigs.filter fun sig => sig.arity ≤ limits.maxArity).map Signature.shape

theorem builds_shapesWithin {limits : Limits} (h : limits.maxArity * 8 ≤ 2147483647)
    (sigs : List Signature) : Generator.reliable.Builds (shapesWithin limits sigs) := by
  intro shape hshape attempt
  obtain ⟨sig, hsig, rfl⟩ := List.mem_map.1 hshape
  have harity := of_decide_eq_true (List.mem_filter.1 hsig).2
  exact build_reliable_within h harity attempt

structure Fresh (d : Dispatcher) (shapes : List Shape) : Prop where
  nodup : shapes.Nodup
  absent : ∀ shape ∈ shapes, shape ∉ d.cache.shapes

theorem Fresh.tail {shape : Shape} {shapes : List Shape} (h : d.Fresh (shape :: shapes))
    (hafter : d.Grown [shape] after) : after.Fresh shapes where
  nodup := (List.nodup_cons.1 h.nodup).2
  absent := by
    intro other hother hmem
    rw [hafter.shapes_eq, List.mem_append, List.mem_singleton] at hmem
    rcases hmem with hold | rfl
    · exact h.absent other (List.mem_cons_of_mem _ hother) hold
    · exact (List.nodup_cons.1 h.nodup).1 hother

theorem Made.warmAll (hd : d.Made limits generator) {sigs : List Signature}
    (hfresh : d.Fresh (shapesWithin limits sigs))
    (hbuilds : generator.Builds (shapesWithin limits sigs)) :
    (d.warmAll sigs).1 = sigs.map (firstAnswer limits) ∧
      d.Grown (shapesWithin limits sigs) (d.warmAll sigs).2 := by
  induction sigs generalizing d with
  | nil => exact ⟨rfl, grown_refl d⟩
  | cons sig sigs ih =>
      rw [Dispatcher.warmAll, List.map_cons, firstAnswer]
      rcases Nat.lt_or_ge limits.maxArity sig.arity with beyond | within
      · have hshapes : shapesWithin limits (sig :: sigs) = shapesWithin limits sigs := by
          simp [shapesWithin, Nat.not_le.2 beyond]
        rw [hshapes] at hfresh hbuilds ⊢
        obtain ⟨hanswers, hgrown⟩ := ih hd hfresh hbuilds
        rw [hd.warm_of_lt beyond, if_neg (Nat.not_le.2 beyond)]
        exact ⟨congrArg (List.cons _) hanswers, hgrown⟩
      · have hshapes : shapesWithin limits (sig :: sigs) =
            sig.shape :: shapesWithin limits sigs := by
          simp [shapesWithin, within]
        rw [hshapes] at hfresh hbuilds ⊢
        obtain ⟨hwarm, hfirst⟩ := hd.warm_new within
          (hfresh.absent _ List.mem_cons_self) (hbuilds _ List.mem_cons_self)
        obtain ⟨hanswers, hgrown⟩ := ih (hd.lookup sig.shape) (hfresh.tail hfirst)
          fun shape hmem => hbuilds shape (List.mem_cons_of_mem _ hmem)
        rw [hwarm, if_pos within]
        exact ⟨congrArg (List.cons _) hanswers, hfirst.trans hgrown⟩

end Run

end Dispatcher

namespace Signature

section Graded

def graded (ints : Nat) : Signature :=
  ⟨List.replicate ints .u64 ++ [.f64], .f64, by simp⟩

theorem ladder_eq (count : Nat) : ladder count = .ok ((List.range count).map graded) := by
  have hrung : rung = fun ints => pure (graded ints) :=
    funext fun ints => ofTypes_of_noVoid .f64 (graded ints).noVoid
  rw [ladder, hrung, List.mapM_pure]
  rfl

theorem arity_graded (ints : Nat) : (graded ints).arity = ints + 1 := by
  simp [arity, graded]

theorem classes_graded (ints : Nat) :
    (graded ints).classes = List.replicate ints .int ++ [.f64] := by
  have hints : (List.replicate ints NativeType.u64).filterMap ArgClass.of? =
      List.replicate ints .int := List.filterMap_replicate_of_some rfl
  rw [classes, graded, List.filterMap_append, hints]
  rfl

theorem ints_shape_graded (ints : Nat) (registers : Option Registers) :
    ((graded ints).planOf registers).shape.ints = ints := by
  rw [ints_planOf, ints_layout, classes_graded]
  simp [List.countP_replicate, ArgClass.isFloat]

theorem shapesWithin_ladder (limits : Limits) (count : Nat) :
    Dispatcher.shapesWithin limits ((List.range count).map graded) =
      (List.range (min count limits.maxArity)).map fun n => (graded n).shape := by
  have hadmitted : ((fun sig : Signature => decide (sig.arity ≤ limits.maxArity)) ∘ graded) =
      fun n => decide (n < limits.maxArity) := by
    funext n
    rw [Function.comp_apply, arity_graded]
    rfl
  rw [Dispatcher.shapesWithin, List.filter_map, hadmitted, filter_range_lt, List.map_map]
  rfl

theorem fresh_ladder (limits : Limits) (generator : Generator) (count : Nat) :
    (Dispatcher.new limits generator).Fresh
      (Dispatcher.shapesWithin limits ((List.range count).map graded)) where
  nodup := by
    rw [shapesWithin_ladder]
    refine List.nodup_range.map fun i j h => ?_
    rw [← ints_shape_graded i (some .host), ← ints_shape_graded j (some .host)]
    exact congrArg Shape.ints h
  absent := fun _ _ => List.not_mem_nil

theorem eq_graded {count n : Nat} {sig : Signature}
    (h : ((List.range count).map graded)[n]? = some sig) : sig = graded n := by
  rw [List.getElem?_map] at h
  obtain ⟨_, hn, rfl⟩ := Option.map_eq_some_iff.1 h
  obtain ⟨hlt, rfl⟩ := List.getElem?_eq_some_iff.1 hn
  rw [List.getElem_range]

theorem exists_planFor_graded_iff {n : Nat} {limits : Limits} {registers : Option Registers} :
    (∃ plan, (graded n).planFor limits registers = .ok plan) ↔ n < limits.maxArity := by
  have harity := arity_graded n
  constructor
  · rintro ⟨plan, h⟩
    have := (planFor_eq_ok_iff.1 h).1
    omega
  · exact fun h => ⟨_, planFor_of_le (by omega) registers⟩

end Graded

structure WarmedInOrder (limits : Limits) (count : Nat)
    (result : List (Except Rejection Outcome) × Dispatcher) : Prop where
  length_eq : result.1.length = count
  answers : ∀ n < count, result.1[n]? = some (if n < limits.maxArity then .ok .built
    else .error (.signature (.tooManyArguments (n + 1) limits.maxArity)))
  size_eq : result.2.cache.size = min count limits.maxArity
  builds_eq : result.2.cache.builds = min count limits.maxArity
  hits_eq : result.2.cache.hits = 0
  counters_eq : result.2.cache.counters =
    ⟨min count limits.maxArity, .ofNat (min count limits.maxArity), 0⟩

structure Rungs (sigs : List Signature) : Prop where
  parsed : ∀ sig ∈ sigs, parse sig.text = .ok sig
  planned : ∀ (limits : Limits) (registers : Option Registers) (n : Nat) (sig : Signature),
    sigs[n]? = some sig →
      ((∃ plan, sig.planFor limits registers = .ok plan) ↔ n < limits.maxArity)
  apart : ∀ (limits : Limits) (registers : Option Registers) (i j : Nat) (sig other : Signature)
    (plan plan' : Plan), sigs[i]? = some sig → sigs[j]? = some other →
      sig.planFor limits registers = .ok plan → other.planFor limits registers = .ok plan' →
      i ≠ j → plan.shape ≠ plan'.shape
  warmed : ∀ (limits : Limits) (generator : Generator),
    generator.Builds (Dispatcher.shapesWithin limits sigs) →
      WarmedInOrder limits sigs.length ((Dispatcher.new limits generator).warmAll sigs)

theorem warmedInOrder_ladder {limits : Limits} {generator : Generator} {count : Nat}
    (hbuilds : generator.Builds
      (Dispatcher.shapesWithin limits ((List.range count).map graded))) :
    WarmedInOrder limits count
      ((Dispatcher.new limits generator).warmAll ((List.range count).map graded)) := by
  obtain ⟨hanswers, hgrown⟩ := (Dispatcher.made_new limits generator).warmAll
    (fresh_ladder limits generator count) hbuilds
  have hlength : (Dispatcher.shapesWithin limits ((List.range count).map graded)).length =
      min count limits.maxArity := by
    rw [shapesWithin_ladder, List.length_map, List.length_range]
  generalize (Dispatcher.new limits generator).warmAll _ = result at hanswers hgrown ⊢
  have hsize : result.2.cache.size = min count limits.maxArity := by
    rw [Cache.size_eq_length_shapes, hgrown.shapes_eq, ← hlength]
    rfl
  have hcount : result.2.cache.builds = min count limits.maxArity := by
    rw [hgrown.builds_eq, hlength]
    exact Nat.zero_add _
  have hhits : result.2.cache.hits = 0 := hgrown.hits_eq
  refine ⟨?_, ?_, hsize, hcount, hhits, ?_⟩
  · rw [hanswers, List.length_map, List.length_map, List.length_range]
  · intro n hn
    rw [hanswers, List.map_map, List.getElem?_map, List.getElem?_range hn]
    simp only [Option.map_some, Function.comp_apply, Dispatcher.firstAnswer, arity_graded,
      Nat.succ_le_iff]
  · rw [Cache.counters, hsize, hcount, hhits]
    rfl

theorem ladder_rungs (count : Nat) :
    ∃ sigs, ladder count = .ok sigs ∧ sigs.length = count ∧ Rungs sigs := by
  have hlength : ((List.range count).map graded).length = count := by
    rw [List.length_map, List.length_range]
  refine ⟨_, ladder_eq count, hlength, fun sig _ => parse_text sig, ?_, ?_, ?_⟩
  · intro limits registers n sig hsig
    obtain rfl := eq_graded hsig
    exact exists_planFor_graded_iff
  · intro limits registers i j sig other plan plan' hsig hother hplan hplan' hne heq
    obtain rfl := eq_graded hsig
    obtain rfl := eq_graded hother
    obtain ⟨-, rfl⟩ := planFor_eq_ok_iff.1 hplan
    obtain ⟨-, rfl⟩ := planFor_eq_ok_iff.1 hplan'
    have hints := congrArg Shape.ints heq
    rw [ints_shape_graded, ints_shape_graded] at hints
    exact hne hints
  · intro limits generator hbuilds
    rw [hlength]
    exact warmedInOrder_ladder hbuilds

theorem ladder_rungs_spilled :
    ∃ sigs, ladder 10 = .ok sigs ∧ Rungs sigs ∧
      Generator.reliable.Builds (Dispatcher.shapesWithin ⟨8⟩ sigs) ∧
      WarmedInOrder ⟨8⟩ 10 ((Dispatcher.new ⟨8⟩ .reliable).warmAll sigs) := by
  obtain ⟨sigs, hladder, hlength, hrungs⟩ := ladder_rungs 10
  have hbuilds : Generator.reliable.Builds (Dispatcher.shapesWithin ⟨8⟩ sigs) :=
    Dispatcher.builds_shapesWithin (by decide) sigs
  have hwarmed := hrungs.warmed ⟨8⟩ .reliable hbuilds
  rw [hlength] at hwarmed
  exact ⟨sigs, hladder, hrungs, hbuilds, hwarmed⟩

end Signature

end ForeignCall
