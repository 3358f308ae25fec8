import ForeignCall.Proofs.Density

namespace ForeignCall

inductive NativeType.Resized : NativeType → NativeType → Prop where
  | same (type : NativeType) : Resized type type
  | integer {type other : NativeType} (declared : type.isInteger = true)
      (resized : other.isInteger = true) : Resized type other

theorem NativeType.Resized.of?_eq {type other : NativeType} (h : type.Resized other) :
    ArgClass.of? type = ArgClass.of? other := by
  have hint : ∀ type : NativeType, type.isInteger = true → ArgClass.of? type = some .int := by
    intro type htype
    cases type <;> first | rfl | cases htype
  cases h with
  | same => rfl
  | integer declared resized => rw [hint _ declared, hint _ resized]

theorem NativeType.Resized.resultClass_eq {type other : NativeType} (h : type.Resized other) :
    ResultClass.of type = ResultClass.of other := by
  rw [ResultClass.of, ResultClass.of, h.of?_eq]

namespace Signature

def intArgs (sig : Signature) : Nat :=
  sig.args.countP NativeType.isInteger

def floatArgs (sig : Signature) : Nat :=
  sig.args.countP NativeType.isFloat

def InRegisters (sig : Signature) : Option Registers → Prop
  | some registers => sig.intArgs ≤ registers.ints ∧ sig.floatArgs ≤ registers.floats
  | none => False

instance (sig : Signature) : (file : Option Registers) → Decidable (sig.InRegisters file)
  | some _ => inferInstanceAs (Decidable (_ ∧ _))
  | none => inferInstanceAs (Decidable False)

inductive Interchangeable (file : Option Registers) (a b : Signature) : Prop where
  | registers (inside : a.InRegisters file) (inside' : b.InRegisters file)
      (ints : a.intArgs = b.intArgs) (floats : a.floatArgs = b.floatArgs)
      (result : ResultClass.of a.ret = ResultClass.of b.ret) : Interchangeable file a b
  | spilled (outside : ¬a.InRegisters file) (outside' : ¬b.InRegisters file)
      (classes : a.classes = b.classes) (result : ResultClass.of a.ret = ResultClass.of b.ret) :
      Interchangeable file a b

section Params

variable {sig : Signature} {file : Option Registers}

theorem countP_classes (sig : Signature) (p : ArgClass → Bool) :
    sig.classes.countP p = sig.args.countP fun type => (ArgClass.of? type).any p := by
  have h := sig.countP_take_classes sig.arity p
  rwa [List.take_of_length_le (Nat.le_of_eq sig.length_classes),
    List.take_of_length_le (Nat.le_refl sig.arity)] at h

theorem ints_layout_eq_intArgs (sig : Signature) : sig.layout.ints = sig.intArgs := by
  have hint : (fun type => (ArgClass.of? type).any fun c => !c.isFloat) = NativeType.isInteger := by
    funext type
    cases type <;> rfl
  rw [ints_layout, countP_classes, hint]
  rfl

theorem floats_layout_eq_floatArgs (sig : Signature) : sig.layout.floats = sig.floatArgs := by
  have hfloat : (fun type => (ArgClass.of? type).any ArgClass.isFloat) = NativeType.isFloat := by
    funext type
    cases type <;> rfl
  rw [floats_layout, countP_classes, hfloat]
  rfl

theorem any_hold_iff :
    (file.any fun registers => registers.hold sig.layout.ints sig.layout.floats) = true ↔
      sig.InRegisters file := by
  cases file with
  | none => simp [InRegisters]
  | some registers =>
      rw [Option.any_some, Registers.hold_iff, ints_layout_eq_intArgs, floats_layout_eq_floatArgs]
      rfl

theorem params_of_inRegisters (h : sig.InRegisters file) :
    (sig.planOf file).shape.params = .counted sig.intArgs sig.floatArgs := by
  change sig.layout.params file = _
  rw [Layout.params, if_pos (any_hold_iff.2 h), ints_layout_eq_intArgs, floats_layout_eq_floatArgs]

theorem params_of_not_inRegisters (h : ¬sig.InRegisters file) :
    (sig.planOf file).shape.params = .ordered sig.classes := by
  change sig.layout.params file = _
  rw [Layout.params, if_neg (any_hold_iff.not.2 h), classes_layout]

end Params

variable {a b : Signature} {file : Option Registers}

theorem params_eq_iff :
    (a.planOf file).shape.params = (b.planOf file).shape.params ↔
      a.InRegisters file ∧ b.InRegisters file ∧ a.intArgs = b.intArgs ∧
          a.floatArgs = b.floatArgs ∨
        ¬a.InRegisters file ∧ ¬b.InRegisters file ∧ a.classes = b.classes := by
  by_cases ha : a.InRegisters file <;> by_cases hb : b.InRegisters file
  · simp [params_of_inRegisters, ha, hb]
  · simp [params_of_inRegisters, params_of_not_inRegisters, ha, hb]
  · simp [params_of_inRegisters, params_of_not_inRegisters, ha, hb]
  · simp [params_of_not_inRegisters, ha, hb]

theorem shape_eq_iff :
    (a.planOf file).shape = (b.planOf file).shape ↔ Interchangeable file a b := by
  have hshape : (a.planOf file).shape = (b.planOf file).shape ↔
      (a.planOf file).shape.params = (b.planOf file).shape.params ∧
        ResultClass.of a.ret = ResultClass.of b.ret := by
    rw [← Shape.mk.injEq]
    rfl
  rw [hshape, params_eq_iff]
  constructor
  · rintro ⟨⟨ha, hb, hints, hfloats⟩ | ⟨ha, hb, hclasses⟩, hret⟩
    · exact .registers ha hb hints hfloats hret
    · exact .spilled ha hb hclasses hret
  · rintro (⟨ha, hb, hints, hfloats, hret⟩ | ⟨ha, hb, hclasses, hret⟩)
    · exact ⟨.inl ⟨ha, hb, hints, hfloats⟩, hret⟩
    · exact ⟨.inr ⟨ha, hb, hclasses⟩, hret⟩

theorem shape_eq_of_classes (hclasses : a.classes = b.classes)
    (hret : ResultClass.of a.ret = ResultClass.of b.ret) :
    (a.planOf file).shape = (b.planOf file).shape := by
  have hparams : a.layout.params file = b.layout.params file := by
    simp only [Layout.params, ints_layout, floats_layout, classes_layout, hclasses]
  rw [planOf, planOf, hparams, hret]

theorem classes_eq_of_resized (h : List.Forall₂ NativeType.Resized a.args b.args) :
    a.classes = b.classes := by
  rw [classes, classes]
  generalize a.args = types, b.args = others at h
  induction h with
  | nil => rfl
  | cons hresized _ ih => rw [List.filterMap_cons, List.filterMap_cons, hresized.of?_eq, ih]

theorem shape_eq_of_perm (hinside : a.InRegisters file) (hperm : a.args.Perm b.args)
    (hret : ResultClass.of a.ret = ResultClass.of b.ret) :
    (a.planOf file).shape = (b.planOf file).shape := by
  have hints : a.intArgs = b.intArgs := hperm.countP_eq NativeType.isInteger
  have hfloats : a.floatArgs = b.floatArgs := hperm.countP_eq NativeType.isFloat
  have hinside' : b.InRegisters file := by
    cases file with
    | none => exact hinside
    | some registers =>
        obtain ⟨hi, hf⟩ := hinside
        exact ⟨hints ▸ hi, hfloats ▸ hf⟩
  exact shape_eq_iff.2 (.registers hinside hinside' hints hfloats hret)

theorem layout_eq_iff : a.layout = b.layout ↔ a.args = b.args := by
  constructor
  · intro h
    rw [← types_layout, ← types_layout, h]
  · intro h
    simp only [layout, classes, h]

theorem shape_shared_exactly {limits limits' : Limits} {p q : Plan}
    (hp : a.planFor limits file = .ok p) (hq : b.planFor limits' file = .ok q) :
    (p.shape = q.shape ↔ Interchangeable file a b) ∧
      (a.InRegisters file → a.args.Perm b.args →
        ResultClass.of a.ret = ResultClass.of b.ret → p.shape = q.shape) ∧
      (List.Forall₂ NativeType.Resized a.args b.args → NativeType.Resized a.ret b.ret →
        p.shape = q.shape) ∧
      (a.InRegisters file → ¬b.InRegisters file → p.shape ≠ q.shape) ∧
      (p.layout = q.layout ↔ a.args = b.args) := by
  obtain ⟨-, rfl⟩ := planFor_eq_ok_iff.1 hp
  obtain ⟨-, rfl⟩ := planFor_eq_ok_iff.1 hq
  refine ⟨shape_eq_iff, shape_eq_of_perm, ?_, ?_, layout_eq_iff⟩
  · intro hargs hret
    exact shape_eq_of_classes (classes_eq_of_resized hargs) hret.resultClass_eq
  · intro hinside houtside heq
    cases shape_eq_iff.1 heq with
    | registers _ inside' _ _ _ => exact houtside inside'
    | spilled outside _ _ _ => exact outside hinside

theorem shape_shared_exactly_at_limit :
    let file : Option Registers := some ⟨1, 1⟩
    let a : Signature := ⟨[.f32, .u64], .i8, by decide⟩
    let b : Signature := ⟨[.i16, .f64], .u32, by decide⟩
    let c : Signature := ⟨[.f32, .u64, .i8], .i8, by decide⟩
    let d : Signature := ⟨[.u64, .f32, .i8], .i8, by decide⟩
    ∃ p q r s, a.planFor .standard file = .ok p ∧ b.planFor .standard file = .ok q ∧
      c.planFor .standard file = .ok r ∧ d.planFor .standard file = .ok s ∧
      p.shape = q.shape ∧ p.shape ≠ r.shape ∧ r.shape ≠ s.shape := by
  intro file a b c d
  have ha : a.planFor .standard file = .ok (a.planOf file) := rfl
  have hb : b.planFor .standard file = .ok (b.planOf file) := rfl
  have hc : c.planFor .standard file = .ok (c.planOf file) := rfl
  have hd : d.planFor .standard file = .ok (d.planOf file) := rfl
  have ha' : a.InRegisters file := by decide
  have hb' : b.InRegisters file := by decide
  have hc' : ¬c.InRegisters file := by decide
  refine ⟨_, _, _, _, ha, hb, hc, hd, ?_, ?_, ?_⟩
  · exact (shape_shared_exactly ha hb).1.2 (.registers ha' hb' rfl rfl rfl)
  · exact (shape_shared_exactly ha hc).2.2.2.1 ha' hc'
  · intro heq
    cases (shape_shared_exactly hc hd).1.1 heq with
    | registers inside _ _ _ _ => exact hc' inside
    | spilled _ _ classes _ => exact absurd classes (by decide)

end Signature

end ForeignCall
