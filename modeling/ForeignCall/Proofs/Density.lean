import ForeignCall.Proofs.Validation

namespace ForeignCall

def NativeType.akin (t u : NativeType) : Bool :=
  t.isInteger && u.isInteger || t.isFloat && u.isFloat

namespace ArgClass

theorem any_of?_eq_akin {type : NativeType} {c : ArgClass} (h : of? type = some c)
    (other : NativeType) :
    ((of? other).any fun d => d.isFloat == c.isFloat) = type.akin other := by
  cases type <;> cases h <;> cases other <;> rfl

theorem count_int (classes : List ArgClass) :
    classes.count .int = classes.countP fun c => !c.isFloat := by
  induction classes with
  | nil => rfl
  | cons c cs ih => cases c <;> simp [isFloat, ih]

theorem count_f32_add_count_f64 (classes : List ArgClass) :
    classes.count .f32 + classes.count .f64 = classes.countP isFloat := by
  induction classes with
  | nil => rfl
  | cons c cs ih =>
      rw [List.countP_cons, ← ih]
      cases c <;> simp [isFloat] <;> omega

end ArgClass

namespace Tally

theorem next_after (taken : Tally) (classes : List ArgClass) (c : ArgClass) :
    (taken.after classes).next c =
      taken.next c + classes.countP fun d => d.isFloat == c.isFloat := by
  induction classes generalizing taken with
  | nil => rfl
  | cons d ds ih =>
      have hrest := ih (taken.add d)
      change (taken.after (d :: ds)).next c = _ at hrest
      rw [hrest, List.countP_cons]
      by_cases h : d.isFloat = c.isFloat
      · simp only [next_add_self taken h, h, beq_self_eq_true, if_true]
        omega
      · simp only [next_add_of_ne taken h, beq_iff_eq, h, if_false, Nat.add_zero]

theorem getElem?_number (taken : Tally) (classes : List ArgClass) (i : Nat) :
    (taken.number classes)[i]? =
      (classes[i]?).map fun c => (c, (taken.after (classes.take i)).next c) := by
  induction classes generalizing taken i with
  | nil => rfl
  | cons d ds ih =>
      cases i with
      | zero => rfl
      | succ i => exact ih (taken.add d) i

theorem numbers_family (taken : Tally) (classes : List ArgClass) (c : ArgClass) :
    ((taken.number classes).filter fun place => place.1.isFloat == c.isFloat).map Prod.snd =
      List.range' (taken.next c) (classes.countP fun d => d.isFloat == c.isFloat) := by
  induction classes generalizing taken with
  | nil => rfl
  | cons d ds ih =>
      have hrest := ih (taken.add d)
      by_cases h : d.isFloat = c.isFloat
      · rw [next_add_self taken h] at hrest
        simp [number, h, hrest, List.range'_succ, next_congr taken h]
      · rw [next_add_of_ne taken h] at hrest
        simp [number, h, hrest]

end Tally

def Layout.indices (layout : Layout) (float : Bool) : List Nat :=
  (layout.slots.filter fun slot => slot.argClass.isFloat == float).map FrameSlot.index

namespace Signature

theorem indices_layout (sig : Signature) (c : ArgClass) :
    sig.layout.indices c.isFloat = List.range (sig.layout.total.next c) := by
  have htotal : sig.layout.total.next c = _ := Tally.next_after .empty sig.classes c
  have hnumbers := Tally.numbers_family .empty sig.classes c
  rw [← places_layout, List.filter_map, List.map_map, Tally.next_empty,
    ← List.range_eq_range'] at hnumbers
  rw [htotal, Tally.next_empty, Nat.zero_add]
  exact hnumbers

theorem countP_take_classes (sig : Signature) (i : Nat) (p : ArgClass → Bool) :
    (sig.classes.take i).countP p =
      (sig.args.take i).countP fun type => (ArgClass.of? type).any p := by
  calc (sig.classes.take i).countP p
      = ((sig.classes.map some).take i).countP (Option.any p) := by
        rw [← List.map_take, List.countP_map]
        rfl
    _ = ((sig.args.map ArgClass.of?).take i).countP (Option.any p) := by rw [map_some_classes]
    _ = (sig.args.take i).countP fun type => (ArgClass.of? type).any p := by
        rw [← List.map_take, List.countP_map]
        rfl

theorem index_slot {sig : Signature} {i : Nat} {type : NativeType}
    (h : sig.args[i]? = some type) :
    ∃ slot, sig.layout.slots[i]? = some slot ∧ slot.type = type ∧
      ArgClass.of? type = some slot.argClass ∧
      slot.index = (sig.args.take i).countP type.akin := by
  obtain ⟨c, n, hof, hclass, hnumber, hslot⟩ := exists_slot h
  refine ⟨_, hslot, rfl, hof, ?_⟩
  rw [Tally.getElem?_number, hclass, Option.map_some, Option.some.injEq, Prod.mk.injEq,
    Tally.next_after, countP_take_classes] at hnumber
  have hakin : (fun other => (ArgClass.of? other).any fun d => d.isFloat == c.isFloat) =
      type.akin := funext fun other => ArgClass.any_of?_eq_akin hof other
  rw [Tally.next_empty, Nat.zero_add, hakin] at hnumber
  exact hnumber.2.symm

theorem ints_add_floats_layout (sig : Signature) :
    sig.layout.ints + sig.layout.floats = sig.arity := by
  rw [ints_layout, floats_layout, ← length_classes, Nat.add_comm,
    List.length_eq_countP_add_countP ArgClass.isFloat]
  simp

end Signature

structure Plan.Dense (plan : Plan) (sig : Signature) : Prop where
  length_slots : plan.layout.slots.length = sig.arity
  placed : ∀ i type, sig.args[i]? = some type → ∃ slot, plan.layout.slots[i]? = some slot ∧
    slot.type = type ∧ ArgClass.of? type = some slot.argClass ∧
    slot.index = (sig.args.take i).countP type.akin
  ints_range : plan.layout.indices false = List.range plan.layout.ints
  floats_range : plan.layout.indices true = List.range plan.layout.floats
  arity_eq : plan.layout.ints + plan.layout.floats = sig.arity
  ints_shape : plan.shape.ints = plan.layout.ints
  floats_shape : plan.shape.floats = plan.layout.floats
  ordered : ∀ classes, plan.shape.params.order? = some classes →
    classes = plan.layout.slots.map FrameSlot.argClass ∧
      classes.count .int = plan.shape.ints ∧
      classes.count .f32 + classes.count .f64 = plan.shape.floats

namespace Signature

theorem order?_params {layout : Layout} {registers : Option Registers} {classes : List ArgClass}
    (h : (layout.params registers).order? = some classes) :
    layout.params registers = .ordered classes ∧ classes = layout.classes := by
  unfold Layout.params at h ⊢
  split at h
  · cases h
  · next hspill =>
      obtain rfl : layout.classes = classes := Option.some.inj h
      rw [if_neg hspill]
      exact ⟨rfl, rfl⟩

theorem planFor_dense {sig : Signature} {limits : Limits} {registers : Option Registers}
    {plan : Plan} (h : sig.planFor limits registers = .ok plan) : plan.Dense sig := by
  obtain ⟨-, rfl⟩ := planFor_eq_ok_iff.1 h
  refine ⟨sig.length_slots, fun i type => index_slot, sig.indices_layout .int,
    sig.indices_layout .f64, sig.ints_add_floats_layout, sig.ints_planOf registers,
    sig.floats_planOf registers, ?_⟩
  intro classes hclasses
  obtain ⟨hparams, rfl⟩ := order?_params hclasses
  have hints : (sig.planOf registers).shape.ints =
      sig.layout.classes.countP fun c => !c.isFloat := congrArg Params.ints hparams
  have hfloats : (sig.planOf registers).shape.floats =
      sig.layout.classes.countP ArgClass.isFloat := congrArg Params.floats hparams
  exact ⟨rfl, (ArgClass.count_int _).trans hints.symm,
    (ArgClass.count_f32_add_count_f64 _).trans hfloats.symm⟩

theorem planFor_dense_spilled :
    let sig : Signature := ⟨[.i32, .f64, .u8, .f32], .f64, by decide⟩
    ∃ plan, sig.planFor .standard (some ⟨1, 2⟩) = .ok plan ∧ plan.Dense sig ∧
      plan.layout.slots.map FrameSlot.index = [0, 0, 1, 1] ∧
      plan.shape.params.order? = some [.int, .f64, .int, .f32] := by
  intro sig
  have h : sig.planFor .standard (some ⟨1, 2⟩) = .ok (sig.planOf (some ⟨1, 2⟩)) := rfl
  exact ⟨_, h, planFor_dense h, rfl, rfl⟩

end Signature

end ForeignCall
