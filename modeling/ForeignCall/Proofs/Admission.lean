import ForeignCall.Proofs.Reading
import ForeignCall.Proofs.Validation

namespace ForeignCall.Signature

theorem map_eq_error_iff {α β : Type} {result : Except Defect α} {f : α → β} {e : Defect} :
    result.map f = .error e ↔ result = .error e := by
  cases result <;> simp [Except.map]

section FirstVoid

variable {types : List NativeType} {type : NativeType} {index : Nat} {e : Defect}

structure FirstVoid (types : List NativeType) (index : Nat) : Prop where
  void : types[index]? = some .void
  least : ∀ j < index, types[j]? ≠ some .void

theorem firstVoid_void_cons_iff (types : List NativeType) (index : Nat) :
    FirstVoid (.void :: types) index ↔ index = 0 := by
  constructor
  · intro h
    by_contra hne
    exact h.least 0 (Nat.pos_of_ne_zero hne) rfl
  · rintro rfl
    exact ⟨rfl, fun _ hj => absurd hj (Nat.not_lt_zero _)⟩

theorem firstVoid_cons_iff (htype : type ≠ .void) (types : List NativeType) (index : Nat) :
    FirstVoid (type :: types) index ↔ ∃ i, FirstVoid types i ∧ index = i + 1 := by
  constructor
  · rintro ⟨void, least⟩
    cases index with
    | zero => exact absurd (Option.some.inj void) htype
    | succ i => exact ⟨i, ⟨void, fun j hj => least (j + 1) (Nat.succ_lt_succ hj)⟩, rfl⟩
  · rintro ⟨i, ⟨void, least⟩, rfl⟩
    refine ⟨void, ?_⟩
    rintro (_ | j) hj
    · exact fun heq => htype (Option.some.inj heq)
    · exact least j (Nat.lt_of_succ_lt_succ hj)

theorem checkTypes_eq_error_iff_firstVoid :
    checkTypes types = .error e ↔ ∃ i, FirstVoid types i ∧ e = .voidArgument i := by
  rw [checkTypes_eq_error_iff]
  constructor
  · rintro ⟨i, void, least, rfl⟩
    exact ⟨i, ⟨void, least⟩, rfl⟩
  · rintro ⟨i, ⟨void, least⟩, rfl⟩
    exact ⟨i, void, least, rfl⟩

theorem exists_firstVoid_iff : (∃ i, FirstVoid types i) ↔ .void ∈ types := by
  constructor
  · rintro ⟨i, first⟩
    exact List.mem_of_getElem? first.void
  · intro hvoid
    cases h : checkTypes types with
    | ok _ => exact absurd hvoid (checkTypes_eq_ok_iff.1 h)
    | error e =>
        obtain ⟨i, first, -⟩ := checkTypes_eq_error_iff_firstVoid.1 h
        exact ⟨i, first⟩

theorem place_eq_error_iff (position : Nat) (taken : Tally) :
    Layout.place position taken types = .error e ↔
      ∃ i, FirstVoid types i ∧ e = .voidArgument (position + i) := by
  induction types generalizing position taken with
  | nil =>
      constructor
      · rintro ⟨⟩
      · rintro ⟨i, ⟨void, -⟩, -⟩
        cases void
  | cons type types ih =>
      rw [Layout.place]
      cases hclass : ArgClass.of? type with
      | none =>
          obtain rfl : type = .void := ArgClass.of?_eq_none_iff.1 hclass
          simp only [firstVoid_void_cons_iff, exists_eq_left, Except.error.injEq]
          exact eq_comm
      | some c =>
          have htype : type ≠ .void := fun heq => by
            rw [ArgClass.of?_eq_none_iff.2 heq] at hclass
            cases hclass
          simp only [map_eq_error_iff, ih, firstVoid_cons_iff htype]
          constructor
          · rintro ⟨i, first, rfl⟩
            rw [Nat.add_right_comm]
            exact ⟨i + 1, ⟨i, first, rfl⟩, rfl⟩
          · rintro ⟨_, ⟨i, first, rfl⟩, rfl⟩
            refine ⟨i, first, ?_⟩
            rw [Nat.add_right_comm]
            rfl

end FirstVoid

section Making

variable {args : List NativeType} {ret : NativeType} {limits : Limits} {sig : Signature}
  {e : Defect}

structure Excessive (arity : Nat) (limits : Limits) (e : Defect) : Prop where
  beyond : limits.maxArity < arity
  defect : e = .tooManyArguments arity limits.maxArity

theorem Excessive.ne_voidArgument {arity : Nat} (h : Excessive arity limits e) (index : Nat) :
    e ≠ .voidArgument index := by
  rw [h.defect]
  rintro ⟨⟩

theorem ofTypes_eq_error_iff_firstVoid :
    ofTypes args ret = .error e ↔ ∃ i, FirstVoid args i ∧ e = .voidArgument i :=
  ofTypes_eq_error_iff.trans checkTypes_eq_error_iff_firstVoid

theorem ofTypes_eq_ok_iff : ofTypes args ret = .ok sig ↔ sig.args = args ∧ sig.ret = ret := by
  constructor
  · intro h
    have hvoid : .void ∉ args := fun hvoid => by
      obtain ⟨i, first⟩ := exists_firstVoid_iff.2 hvoid
      rw [ofTypes_eq_error_iff_firstVoid.2 ⟨i, first, rfl⟩] at h
      cases h
    cases (ofTypes_of_noVoid ret hvoid).symm.trans h
    exact ⟨rfl, rfl⟩
  · rintro ⟨rfl, rfl⟩
    exact ofTypes_args_ret sig

theorem check_eq_error_iff : sig.check limits = .error e ↔ Excessive sig.arity limits e := by
  rw [check, checkTypes_eq_ok_iff.2 sig.noVoid]
  split
  · next beyond =>
      rw [Except.error.injEq, eq_comm]
      exact ⟨fun h => ⟨beyond, h⟩, Excessive.defect⟩
  · next within =>
      constructor
      · rintro ⟨⟩
      · exact fun h => absurd h.beyond within

theorem planFor_eq_error_iff (registers : Option Registers) :
    sig.planFor limits registers = .error e ↔ Excessive sig.arity limits e := by
  rw [← check_eq_error_iff, planFor]
  cases sig.check limits with
  | error e' => rw [Except.error.injEq, Except.error.injEq]
  | ok _ =>
      rw [place_args]
      constructor <;> rintro ⟨⟩

theorem ofTypesWithin_of_error (limits : Limits) (h : ofTypes args ret = .error e) :
    ofTypesWithin args ret limits = .error e := by
  rw [ofTypesWithin, h]

theorem ofTypesWithin_of_ok (limits : Limits) (h : ofTypes args ret = .ok sig) :
    ofTypesWithin args ret limits = (sig.check limits).map fun _ => sig := by
  rw [ofTypesWithin, h]

theorem ofTypesWithin_eq_error_iff :
    ofTypesWithin args ret limits = .error e ↔
      ofTypes args ret = .error e ∨ .void ∉ args ∧ Excessive args.length limits e := by
  cases h : ofTypes args ret with
  | error e' =>
      have hvoid : .void ∈ args := by
        obtain ⟨i, first, -⟩ := ofTypes_eq_error_iff_firstVoid.1 h
        exact exists_firstVoid_iff.1 ⟨i, first⟩
      rw [ofTypesWithin_of_error limits h]
      exact (or_iff_left fun hexcess => hexcess.1 hvoid).symm
  | ok sig =>
      obtain ⟨rfl, rfl⟩ := ofTypes_eq_ok_iff.1 h
      rw [ofTypesWithin_of_ok limits h, map_eq_error_iff, check_eq_error_iff]
      simp [sig.noVoid, arity]

theorem ofTypesWithin_eq_ok_iff :
    ofTypesWithin args ret limits = .ok sig ↔
      ofTypes args ret = .ok sig ∧ args.length ≤ limits.maxArity := by
  cases h : ofTypes args ret with
  | error e =>
      rw [ofTypesWithin_of_error limits h]
      simp
  | ok made =>
      obtain ⟨rfl, rfl⟩ := ofTypes_eq_ok_iff.1 h
      rw [ofTypesWithin_of_ok limits h]
      rcases Nat.lt_or_ge limits.maxArity made.arity with beyond | within
      · rw [check_eq_error_iff.2 ⟨beyond, rfl⟩]
        constructor
        · rintro ⟨⟩
        · exact fun hwithin => absurd beyond (Nat.not_lt.2 hwithin.2)
      · rw [check_eq_ok_iff.2 within]
        exact (and_iff_left within).symm

end Making

structure Examined (args : List NativeType) (ret : NativeType) (limits : Limits) : Prop where
  fails_iff : (∃ e, ofTypes args ret = .error e) ↔ .void ∈ args
  error_iff : ∀ e, ofTypes args ret = .error e ↔ ∃ i, FirstVoid args i ∧ e = .voidArgument i
  ok_iff : ∀ sig, ofTypes args ret = .ok sig ↔ sig.args = args ∧ sig.ret = ret
  within_error_iff : ∀ e, ofTypesWithin args ret limits = .error e ↔
    ofTypes args ret = .error e ∨ .void ∉ args ∧ Excessive args.length limits e
  within_ok_iff : ∀ sig, ofTypesWithin args ret limits = .ok sig ↔
    ofTypes args ret = .ok sig ∧ args.length ≤ limits.maxArity
  place_error_iff : ∀ position taken e, Layout.place position taken args = .error e ↔
    ∃ i, FirstVoid args i ∧ e = .voidArgument (position + i)

theorem examined (args : List NativeType) (ret : NativeType) (limits : Limits) :
    Examined args ret limits where
  fails_iff := by
    rw [← exists_firstVoid_iff]
    constructor
    · rintro ⟨e, h⟩
      obtain ⟨i, first, -⟩ := ofTypes_eq_error_iff_firstVoid.1 h
      exact ⟨i, first⟩
    · rintro ⟨i, first⟩
      exact ⟨_, ofTypes_eq_error_iff_firstVoid.2 ⟨i, first, rfl⟩⟩
  error_iff _ := ofTypes_eq_error_iff_firstVoid
  ok_iff _ := ofTypes_eq_ok_iff
  within_error_iff _ := ofTypesWithin_eq_error_iff
  within_ok_iff _ := ofTypesWithin_eq_ok_iff
  place_error_iff position taken _ := place_eq_error_iff position taken

structure Admissible (sig : Signature) : Prop where
  remade : ofTypes sig.args sig.ret = .ok sig
  types_ok : checkTypes sig.args = .ok ()
  placed : ∀ position taken, ∃ layout, Layout.place position taken sig.args = .ok layout
  check_error_iff : ∀ limits e, sig.check limits = .error e ↔ Excessive sig.arity limits e
  planFor_error_iff : ∀ limits registers e,
    sig.planFor limits registers = .error e ↔ Excessive sig.arity limits e
  not_void : ∀ limits registers index, sig.check limits ≠ .error (.voidArgument index) ∧
    sig.planFor limits registers ≠ .error (.voidArgument index)
  plan_eq : ∀ limits limits' registers plan plan', sig.planFor limits registers = .ok plan →
    sig.planFor limits' registers = .ok plan' → plan = plan'
  layout_eq : ∀ limits limits' registers registers' plan plan',
    sig.planFor limits registers = .ok plan → sig.planFor limits' registers' = .ok plan' →
      plan.layout = plan'.layout

theorem admissible (sig : Signature) : Admissible sig where
  remade := ofTypes_args_ret sig
  types_ok := checkTypes_eq_ok_iff.2 sig.noVoid
  placed position taken := ⟨_, Layout.place_eq position taken sig.noVoid⟩
  check_error_iff _ _ := check_eq_error_iff
  planFor_error_iff _ registers _ := planFor_eq_error_iff registers
  not_void _ registers index :=
    ⟨fun h => (check_eq_error_iff.1 h).ne_voidArgument index rfl,
      fun h => ((planFor_eq_error_iff registers).1 h).ne_voidArgument index rfl⟩
  plan_eq _ _ _ _ _ h h' := by
    obtain ⟨-, rfl⟩ := planFor_eq_ok_iff.1 h
    obtain ⟨-, rfl⟩ := planFor_eq_ok_iff.1 h'
    rfl
  layout_eq _ _ _ _ _ _ h h' := by
    obtain ⟨-, rfl⟩ := planFor_eq_ok_iff.1 h
    obtain ⟨-, rfl⟩ := planFor_eq_ok_iff.1 h'
    rfl

theorem validation_consistent (args : List NativeType) (ret : NativeType) (limits : Limits) :
    Examined args ret limits ∧ ∀ sig : Signature, Admissible sig :=
  ⟨examined args ret limits, admissible⟩

example : ofTypesWithin [.u8, .void, .void] .u8 ⟨2⟩ = .error (.voidArgument 1) := by decide

end ForeignCall.Signature
