import ForeignCall.Proofs.Density
import Mathlib.Algebra.Order.BigOperators.Group.Finset
import Mathlib.Data.Set.Card

namespace ForeignCall

def Shape.Planned (limits : Limits) (file : Option Registers) (shape : Shape) : Prop :=
  ∃ sig plan, Signature.planFor sig limits file = .ok plan ∧ plan.shape = shape

section Exemplar

def ArgClass.exemplar : ArgClass → NativeType
  | .int => .u64
  | .f32 => .f32
  | .f64 => .f64

theorem ArgClass.of?_exemplar (c : ArgClass) : of? c.exemplar = some c := by
  cases c <;> rfl

def ResultClass.exemplar : ResultClass → NativeType
  | .void => .void
  | .int => .u64
  | .float => .f64

theorem ResultClass.of_exemplar (c : ResultClass) : of c.exemplar = c := by
  cases c <;> rfl

namespace Shape

theorem void_not_mem_exemplars (classes : List ArgClass) :
    NativeType.void ∉ classes.map ArgClass.exemplar := by
  rw [List.mem_map]
  rintro ⟨c, -, hc⟩
  cases c <;> cases hc

def exemplar (shape : Shape) : Signature :=
  ⟨shape.params.declared.map ArgClass.exemplar, shape.ret.exemplar, void_not_mem_exemplars _⟩

theorem classes_exemplar (shape : Shape) : shape.exemplar.classes = shape.params.declared := by
  have hof : ArgClass.of? ∘ ArgClass.exemplar = some := funext ArgClass.of?_exemplar
  rw [Signature.classes, exemplar, List.filterMap_map, hof, List.filterMap_some]

theorem arity_exemplar (shape : Shape) : shape.exemplar.arity = shape.params.declared.length :=
  List.length_map ArgClass.exemplar

theorem shape_exemplar (shape : Shape) (registers : Registers) :
    (shape.exemplar.planOf (some registers)).shape =
      ⟨if registers.hold shape.ints shape.floats then .counted shape.ints shape.floats
        else .ordered shape.params.declared, shape.ret⟩ := by
  have hints : shape.exemplar.layout.ints = shape.ints := by
    rw [Signature.ints_layout, classes_exemplar, Params.countP_not_isFloat_declared]
    rfl
  have hfloats : shape.exemplar.layout.floats = shape.floats := by
    rw [Signature.floats_layout, classes_exemplar, Params.countP_isFloat_declared]
    rfl
  have hclasses : shape.exemplar.layout.classes = shape.params.declared := by
    rw [Signature.classes_layout, classes_exemplar]
  have hret : ResultClass.of shape.exemplar.ret = shape.ret := ResultClass.of_exemplar shape.ret
  rw [Signature.planOf, hret, Layout.params, hints, hfloats, hclasses]
  rfl

theorem planned_of_exemplar {shape : Shape} {limits : Limits} {registers : Registers}
    (harity : shape.params.declared.length ≤ limits.maxArity)
    (hshape : (shape.exemplar.planOf (some registers)).shape = shape) :
    shape.Planned limits (some registers) := by
  rw [← arity_exemplar] at harity
  exact ⟨shape.exemplar, _, Signature.planFor_of_le harity _, hshape⟩

end Shape

end Exemplar

namespace Shape

variable {limits : Limits} {registers : Registers} {ret : ResultClass}

theorem planned_counted_iff {ints floats : Nat} :
    Planned limits (some registers) ⟨.counted ints floats, ret⟩ ↔
      ints ≤ registers.ints ∧ floats ≤ registers.floats ∧ ints + floats ≤ limits.maxArity := by
  constructor
  · rintro ⟨sig, plan, hplan, hshape⟩
    obtain ⟨harity, rfl⟩ := Signature.planFor_eq_ok_iff.1 hplan
    have hparams : sig.layout.params (some registers) = .counted ints floats :=
      congrArg Shape.params hshape
    rw [Layout.params, Option.any_some] at hparams
    split at hparams
    · next hhold =>
        cases hparams
        rw [← sig.ints_add_floats_layout] at harity
        obtain ⟨hints, hfloats⟩ := Registers.hold_iff.1 hhold
        exact ⟨hints, hfloats, harity⟩
    · cases hparams
  · rintro ⟨hints, hfloats, harity⟩
    have hhold : registers.hold ints floats = true := Registers.hold_iff.2 ⟨hints, hfloats⟩
    apply planned_of_exemplar
    · simpa [Params.declared] using harity
    · rw [shape_exemplar]
      change (⟨if registers.hold ints floats then _ else _, ret⟩ : Shape) = _
      rw [if_pos hhold]
      rfl

theorem planned_ordered_iff {classes : List ArgClass} :
    Planned limits (some registers) ⟨.ordered classes, ret⟩ ↔
      classes.length ≤ limits.maxArity ∧
        (registers.ints < classes.count .int ∨
          registers.floats < classes.countP ArgClass.isFloat) := by
  have hspill : (registers.ints < classes.count .int ∨
      registers.floats < classes.countP ArgClass.isFloat) ↔
        ¬registers.hold (classes.countP fun c => !c.isFloat) (classes.countP ArgClass.isFloat) =
          true := by
    rw [Registers.hold_iff, ArgClass.count_int]
    omega
  rw [hspill]
  constructor
  · rintro ⟨sig, plan, hplan, hshape⟩
    obtain ⟨harity, rfl⟩ := Signature.planFor_eq_ok_iff.1 hplan
    have hparams : sig.layout.params (some registers) = .ordered classes :=
      congrArg Shape.params hshape
    rw [Layout.params, Option.any_some, sig.ints_layout, sig.floats_layout,
      sig.classes_layout] at hparams
    split at hparams
    · cases hparams
    · next hhold =>
        cases hparams
        rw [← sig.length_classes] at harity
        exact ⟨harity, hhold⟩
  · rintro ⟨harity, hhold⟩
    apply planned_of_exemplar
    · exact harity
    · rw [shape_exemplar]
      change (⟨if registers.hold (classes.countP fun c => !c.isFloat)
        (classes.countP ArgClass.isFloat) then _ else _, ret⟩ : Shape) = _
      rw [if_neg hhold]
      rfl

end Shape

section Count

def ResultClass.all : Finset ResultClass :=
  {.void, .int, .float}

theorem ResultClass.mem_all (c : ResultClass) : c ∈ all := by
  cases c <;> decide

def ArgClass.lists : Nat → List (List ArgClass)
  | 0 => [[]]
  | n + 1 => [ArgClass.int, .f32, .f64].flatMap fun c => (lists n).map (c :: ·)

theorem ArgClass.mem_lists (classes : List ArgClass) : classes ∈ lists classes.length := by
  induction classes with
  | nil => exact List.mem_singleton_self []
  | cons c cs ih =>
      rw [List.length_cons, lists, List.mem_flatMap]
      exact ⟨c, by cases c <;> simp, List.mem_map_of_mem ih⟩

theorem ArgClass.length_lists (n : Nat) : (lists n).length = 3 ^ n := by
  induction n with
  | zero => rfl
  | succ n ih =>
      simp only [lists, List.length_flatMap, List.length_map, ih, List.map_cons, List.map_nil,
        List.sum_cons, List.sum_nil]
      omega

namespace Shape

def held (registers : Registers) : Finset Shape :=
  ((Finset.range (registers.ints + 1) ×ˢ Finset.range (registers.floats + 1)) ×ˢ
    ResultClass.all).image fun entry => ⟨.counted entry.1.1 entry.1.2, entry.2⟩

theorem card_held (registers : Registers) :
    (held registers).card = (registers.ints + 1) * (registers.floats + 1) * 3 := by
  have hinjective : Function.Injective fun entry : (Nat × Nat) × ResultClass =>
      (⟨.counted entry.1.1 entry.1.2, entry.2⟩ : Shape) := by
    rintro ⟨⟨ints, floats⟩, ret⟩ ⟨⟨ints', floats'⟩, ret'⟩ h
    cases h
    rfl
  rw [held, Finset.card_image_of_injective _ hinjective, Finset.card_product, Finset.card_product,
    Finset.card_range, Finset.card_range]
  rfl

theorem mem_held {registers : Registers} {ints floats : Nat} {ret : ResultClass}
    (hints : ints ≤ registers.ints) (hfloats : floats ≤ registers.floats) :
    ⟨.counted ints floats, ret⟩ ∈ held registers := by
  refine Finset.mem_image.2 ⟨((ints, floats), ret), ?_, rfl⟩
  simp only [Finset.mem_product, Finset.mem_range, Nat.lt_succ_iff]
  exact ⟨⟨hints, hfloats⟩, ret.mem_all⟩

theorem exists_of_mem_held {registers : Registers} {shape : Shape} (h : shape ∈ held registers) :
    ∃ ints floats ret, shape = ⟨.counted ints floats, ret⟩ ∧ ints ≤ registers.ints ∧
      floats ≤ registers.floats := by
  obtain ⟨⟨⟨ints, floats⟩, ret⟩, hmem, rfl⟩ := Finset.mem_image.1 h
  simp only [Finset.mem_product, Finset.mem_range, Nat.lt_succ_iff] at hmem
  exact ⟨ints, floats, ret, rfl, hmem.1.1, hmem.1.2⟩

def spelled (arity : Nat) : Finset Shape :=
  ((Finset.range (arity + 1)).biUnion (fun n => (ArgClass.lists n).toFinset) ×ˢ
    ResultClass.all).image fun entry => ⟨.ordered entry.1, entry.2⟩

theorem card_spelled_le (arity : Nat) :
    (spelled arity).card ≤ 3 * ∑ n ∈ Finset.range (arity + 1), 3 ^ n := by
  have hlists : ((Finset.range (arity + 1)).biUnion fun n => (ArgClass.lists n).toFinset).card ≤
      ∑ n ∈ Finset.range (arity + 1), 3 ^ n := by
    refine Finset.card_biUnion_le.trans (Finset.sum_le_sum fun n _ => ?_)
    rw [← ArgClass.length_lists n]
    exact List.toFinset_card_le _
  calc (spelled arity).card
      ≤ _ := Finset.card_image_le
    _ = _ * ResultClass.all.card := Finset.card_product ..
    _ ≤ (∑ n ∈ Finset.range (arity + 1), 3 ^ n) * 3 := Nat.mul_le_mul_right 3 hlists
    _ = 3 * ∑ n ∈ Finset.range (arity + 1), 3 ^ n := Nat.mul_comm ..

theorem mem_spelled {arity : Nat} {classes : List ArgClass} {ret : ResultClass}
    (h : classes.length ≤ arity) : ⟨.ordered classes, ret⟩ ∈ spelled arity := by
  refine Finset.mem_image.2 ⟨(classes, ret), ?_, rfl⟩
  rw [Finset.mem_product, Finset.mem_biUnion]
  refine ⟨⟨classes.length, Finset.mem_range.2 (Nat.lt_succ_of_le h), ?_⟩, ret.mem_all⟩
  exact List.mem_toFinset.2 (ArgClass.mem_lists classes)

def counted (limits : Limits) (registers : Registers) : Set Shape :=
  {shape | shape.Planned limits (some registers) ∧ shape.params.order? = none}

def ordered (limits : Limits) (registers : Registers) : Set Shape :=
  {shape | shape.Planned limits (some registers) ∧ shape.params.order? ≠ none}

variable {limits : Limits} {registers : Registers}

theorem counted_subset_held : counted limits registers ⊆ held registers := by
  rintro ⟨params, ret⟩ ⟨hplanned, horder⟩
  cases params with
  | counted ints floats =>
      obtain ⟨hints, hfloats, -⟩ := planned_counted_iff.1 hplanned
      exact mem_held hints hfloats
  | ordered classes => cases horder

theorem ordered_subset_spelled :
    ordered limits registers ⊆ spelled limits.maxArity := by
  rintro ⟨params, ret⟩ ⟨hplanned, horder⟩
  cases params with
  | counted ints floats => exact absurd rfl horder
  | ordered classes => exact mem_spelled (planned_ordered_iff.1 hplanned).1

theorem encard_counted_le :
    (counted limits registers).encard ≤
      ((registers.ints + 1) * (registers.floats + 1) * 3 : Nat) := by
  rw [← card_held, ← Set.encard_coe_eq_coe_finsetCard]
  exact Set.encard_le_encard counted_subset_held

theorem encard_ordered_le :
    (ordered limits registers).encard ≤
      (3 * ∑ n ∈ Finset.range (limits.maxArity + 1), 3 ^ n : Nat) := by
  refine (Set.encard_le_encard ordered_subset_spelled).trans ?_
  rw [Set.encard_coe_eq_coe_finsetCard]
  exact Nat.cast_le.2 (card_spelled_le limits.maxArity)

theorem encard_counted_eq_iff :
    (counted limits registers).encard =
        ((registers.ints + 1) * (registers.floats + 1) * 3 : Nat) ↔
      registers.ints + registers.floats ≤ limits.maxArity := by
  rw [← card_held, ← Set.encard_coe_eq_coe_finsetCard]
  constructor
  · intro h
    have heq : counted limits registers = held registers :=
      (held registers).finite_toSet.eq_of_subset_of_encard_le' counted_subset_held h.ge
    have hmem : (⟨.counted registers.ints registers.floats, .void⟩ : Shape) ∈
        counted limits registers := by
      rw [heq]
      exact mem_held (Nat.le_refl _) (Nat.le_refl _)
    exact (planned_counted_iff.1 hmem.1).2.2
  · intro harity
    refine congrArg Set.encard (Set.Subset.antisymm counted_subset_held ?_)
    intro shape hshape
    obtain ⟨ints, floats, ret, rfl, hints, hfloats⟩ := exists_of_mem_held hshape
    exact ⟨planned_counted_iff.2 ⟨hints, hfloats, by omega⟩, rfl⟩

end Shape

structure Registers.Census (registers : Registers) (limits : Limits) : Prop where
  counted_iff : ∀ ints floats ret,
    Shape.Planned limits (some registers) ⟨.counted ints floats, ret⟩ ↔
      ints ≤ registers.ints ∧ floats ≤ registers.floats ∧ ints + floats ≤ limits.maxArity
  ordered_iff : ∀ classes ret,
    Shape.Planned limits (some registers) ⟨.ordered classes, ret⟩ ↔
      classes.length ≤ limits.maxArity ∧
        (registers.ints < classes.count .int ∨
          registers.floats < classes.countP ArgClass.isFloat)
  counted_le : (Shape.counted limits registers).encard ≤
    ((registers.ints + 1) * (registers.floats + 1) * 3 : Nat)
  counted_eq_iff : (Shape.counted limits registers).encard =
      ((registers.ints + 1) * (registers.floats + 1) * 3 : Nat) ↔
    registers.ints + registers.floats ≤ limits.maxArity
  ordered_le : (Shape.ordered limits registers).encard ≤
    (3 * ∑ n ∈ Finset.range (limits.maxArity + 1), 3 ^ n : Nat)

theorem Registers.census (registers : Registers) (limits : Limits) : registers.Census limits where
  counted_iff := fun _ _ _ => Shape.planned_counted_iff
  ordered_iff := fun _ _ => Shape.planned_ordered_iff
  counted_le := Shape.encard_counted_le
  counted_eq_iff := Shape.encard_counted_eq_iff
  ordered_le := Shape.encard_ordered_le

end Count

end ForeignCall
