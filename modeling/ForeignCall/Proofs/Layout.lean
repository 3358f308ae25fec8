import ForeignCall.Layout
import Mathlib.Data.List.Forall2

namespace ForeignCall

namespace Tally

def number (taken : Tally) : List ArgClass → List (ArgClass × Nat)
  | [] => []
  | c :: cs => (c, taken.next c) :: (taken.add c).number cs

def after (taken : Tally) (classes : List ArgClass) : Tally :=
  classes.foldl add taken

@[simp]
theorem map_fst_number (taken : Tally) (classes : List ArgClass) :
    (taken.number classes).map Prod.fst = classes := by
  induction classes generalizing taken with
  | nil => rfl
  | cons c cs ih => simp [number, ih]

@[simp]
theorem length_number (taken : Tally) (classes : List ArgClass) :
    (taken.number classes).length = classes.length := by
  rw [← List.length_map Prod.fst, map_fst_number]

theorem number_append (taken : Tally) (xs ys : List ArgClass) :
    taken.number (xs ++ ys) = taken.number xs ++ (taken.after xs).number ys := by
  induction xs generalizing taken with
  | nil => rfl
  | cons c cs ih => exact congrArg (List.cons _) (ih (taken.add c))

theorem after_ints (taken : Tally) (classes : List ArgClass) :
    (taken.after classes).ints = taken.ints + classes.countP fun c => !c.isFloat := by
  induction classes generalizing taken with
  | nil => rfl
  | cons c cs ih =>
      have h := ih (taken.add c)
      simp only [after, List.foldl_cons, List.countP_cons] at h ⊢
      rw [h]
      cases c <;> simp [add, ArgClass.isFloat]
      omega

theorem after_floats (taken : Tally) (classes : List ArgClass) :
    (taken.after classes).floats = taken.floats + classes.countP ArgClass.isFloat := by
  induction classes generalizing taken with
  | nil => rfl
  | cons c cs ih =>
      have h := ih (taken.add c)
      simp only [after, List.foldl_cons, List.countP_cons] at h ⊢
      rw [h]
      cases c <;> simp [add, ArgClass.isFloat] <;> omega

theorem after_empty (classes : List ArgClass) :
    empty.after classes =
      ⟨classes.countP fun c => !c.isFloat, classes.countP ArgClass.isFloat⟩ := by
  have hints := after_ints empty classes
  have hfloats := after_floats empty classes
  rw [show empty.ints = 0 from rfl, Nat.zero_add] at hints
  rw [show empty.floats = 0 from rfl, Nat.zero_add] at hfloats
  rw [mk.injEq]
  exact ⟨hints, hfloats⟩

theorem next_empty (c : ArgClass) : empty.next c = 0 := by
  cases c <;> rfl

theorem next_congr (taken : Tally) {c d : ArgClass} (h : c.isFloat = d.isFloat) :
    taken.next c = taken.next d := by
  simp [next, h]

theorem next_add_self (taken : Tally) {c d : ArgClass} (h : c.isFloat = d.isFloat) :
    (taken.add c).next d = taken.next d + 1 := by
  cases c <;> cases d <;> first | rfl | cases h

theorem next_add_of_ne (taken : Tally) {c d : ArgClass} (h : c.isFloat ≠ d.isFloat) :
    (taken.add c).next d = taken.next d := by
  cases c <;> cases d <;> first | rfl | exact absurd rfl h

theorem next_le_next_add (taken : Tally) (c d : ArgClass) :
    taken.next d ≤ (taken.add c).next d := by
  by_cases h : c.isFloat = d.isFloat
  · rw [next_add_self taken h]
    omega
  · exact Nat.le_of_eq (next_add_of_ne taken h).symm

theorem next_le_after (taken : Tally) (classes : List ArgClass) (d : ArgClass) :
    taken.next d ≤ (taken.after classes).next d := by
  induction classes generalizing taken with
  | nil => exact Nat.le_refl _
  | cons c cs ih => exact Nat.le_trans (next_le_next_add taken c d) (ih (taken.add c))

theorem bounds_of_mem_number {taken : Tally} {classes : List ArgClass} {c : ArgClass} {n : Nat}
    (h : (c, n) ∈ taken.number classes) :
    taken.next c ≤ n ∧ n < (taken.after classes).next c := by
  induction classes generalizing taken with
  | nil => simp [number] at h
  | cons d ds ih =>
      simp only [number, List.mem_cons, Prod.mk.injEq] at h
      rcases h with ⟨rfl, rfl⟩ | h
      · have hafter := next_le_after (taken.add c) ds c
        rw [next_add_self taken rfl] at hafter
        exact ⟨Nat.le_refl _, hafter⟩
      · obtain ⟨hlow, hhigh⟩ := ih h
        exact ⟨Nat.le_trans (next_le_next_add taken d c) hlow, hhigh⟩

theorem exists_mem_number {taken : Tally} {classes : List ArgClass} {c : ArgClass} {n : Nat}
    (hlow : taken.next c ≤ n) (hhigh : n < (taken.after classes).next c) :
    ∃ d, d.isFloat = c.isFloat ∧ (d, n) ∈ taken.number classes := by
  induction classes generalizing taken with
  | nil =>
      change n < taken.next c at hhigh
      omega
  | cons d ds ih =>
      by_cases hn : d.isFloat = c.isFloat ∧ n = taken.next d
      · exact ⟨d, hn.1, by simp [number, hn.2]⟩
      · have hstep : (taken.add d).next c ≤ n := by
          by_cases hd : d.isFloat = c.isFloat
          · have hne : n ≠ taken.next c := fun h => hn ⟨hd, h.trans (next_congr taken hd).symm⟩
            rw [next_add_self taken hd]
            omega
          · rw [next_add_of_ne taken hd]
            exact hlow
        obtain ⟨e, he, hmem⟩ := ih hstep hhigh
        exact ⟨e, he, List.mem_cons_of_mem _ hmem⟩

end Tally

namespace Params

theorem after_declared (params : Params) :
    Tally.empty.after params.declared = ⟨params.ints, params.floats⟩ := by
  rw [Tally.after_empty, countP_not_isFloat_declared, countP_isFloat_declared]

theorem exists_declared {params : Params} {classes : List ArgClass} {c : ArgClass} {n : Nat}
    (hparams : params = .counted (classes.countP fun c => !c.isFloat)
      (classes.countP ArgClass.isFloat))
    (h : (c, n) ∈ Tally.empty.number classes) :
    ∃ d, d ≠ .f32 ∧ d.isFloat = c.isFloat ∧ (d, n) ∈ Tally.empty.number params.declared := by
  have hafter : Tally.empty.after classes = Tally.empty.after params.declared := by
    rw [after_declared, hparams, Tally.after_empty]
    rfl
  obtain ⟨hlow, hhigh⟩ := Tally.bounds_of_mem_number h
  rw [hafter] at hhigh
  obtain ⟨d, hfamily, hmem⟩ := Tally.exists_mem_number hlow hhigh
  refine ⟨d, ?_, hfamily, hmem⟩
  have hd : d ∈ params.declared := by
    rw [← Tally.map_fst_number .empty params.declared]
    exact List.mem_map_of_mem hmem
  rintro rfl
  simp [hparams, declared, List.mem_replicate] at hd

end Params

namespace Layout

def numbered (types : List NativeType) (places : List (ArgClass × Nat)) : List FrameSlot :=
  List.zipWith (fun type place => ⟨place.1, place.2, type⟩) types places

theorem place_eq (position : Nat) (taken : Tally) {types : List NativeType}
    (h : NativeType.void ∉ types) :
    place position taken types =
      .ok ⟨numbered types (taken.number (types.filterMap ArgClass.of?)),
        taken.after (types.filterMap ArgClass.of?)⟩ := by
  induction types generalizing position taken with
  | nil => rfl
  | cons type types ih =>
      simp only [List.mem_cons, not_or] at h
      cases hc : ArgClass.of? type with
      | none => exact absurd (ArgClass.of?_eq_none_iff.1 hc).symm h.1
      | some c =>
          simp only [place, hc, ih (position + 1) (taken.add c) h.2, Except.map]
          simp [hc, numbered, Tally.number, Tally.after]

end Layout

namespace Signature

def layout (sig : Signature) : Layout :=
  ⟨Layout.numbered sig.args (Tally.empty.number sig.classes), Tally.empty.after sig.classes⟩

def planOf (sig : Signature) (registers : Option Registers) : Plan :=
  ⟨⟨sig.layout.params registers, ResultClass.of sig.ret⟩, sig.layout⟩

theorem place_args (sig : Signature) : Layout.place 0 .empty sig.args = .ok sig.layout :=
  Layout.place_eq 0 .empty sig.noVoid

theorem planFor_of_le {sig : Signature} {limits : Limits} (h : sig.arity ≤ limits.maxArity)
    (registers : Option Registers) : sig.planFor limits registers = .ok (sig.planOf registers) := by
  simp only [planFor, check_eq_ok_iff.2 h, place_args]
  rfl

theorem planFor_of_lt {sig : Signature} {limits : Limits} (h : limits.maxArity < sig.arity)
    (registers : Option Registers) :
    sig.planFor limits registers = .error (.tooManyArguments sig.arity limits.maxArity) := by
  have hcheck : sig.check limits = .error (.tooManyArguments sig.arity limits.maxArity) := by
    rw [check, if_pos h]
  simp only [planFor, hcheck]

theorem map_some_classes (sig : Signature) :
    sig.classes.map some = sig.args.map ArgClass.of? := by
  have h : ∀ types : List NativeType, NativeType.void ∉ types →
      (types.filterMap ArgClass.of?).map some = types.map ArgClass.of? := by
    intro types
    induction types with
    | nil => intro _; rfl
    | cons type types ih =>
        intro hvoid
        simp only [List.mem_cons, not_or] at hvoid
        cases hc : ArgClass.of? type with
        | none => exact absurd (ArgClass.of?_eq_none_iff.1 hc).symm hvoid.1
        | some c => simp [hc, ih hvoid.2]
  exact h sig.args sig.noVoid

theorem exists_slot {sig : Signature} {i : Nat} {type : NativeType} (h : sig.args[i]? = some type) :
    ∃ c n, ArgClass.of? type = some c ∧ sig.classes[i]? = some c ∧
      (Tally.empty.number sig.classes)[i]? = some (c, n) ∧
      sig.layout.slots[i]? = some ⟨c, n, type⟩ := by
  have hclass : (sig.classes[i]?).map some = some (ArgClass.of? type) := by
    rw [← List.getElem?_map, map_some_classes, List.getElem?_map, h]
    rfl
  obtain ⟨c, hc, hof⟩ := Option.map_eq_some_iff.1 hclass
  have hnumber : ((Tally.empty.number sig.classes)[i]?).map Prod.fst = some c := by
    rw [← List.getElem?_map, Tally.map_fst_number, hc]
  obtain ⟨⟨d, n⟩, hn, rfl⟩ := Option.map_eq_some_iff.1 hnumber
  refine ⟨d, n, hof.symm, hc, hn, ?_⟩
  simp [layout, Layout.numbered, List.getElem?_zipWith, h, hn]

theorem ints_layout (sig : Signature) :
    sig.layout.ints = sig.classes.countP fun c => !c.isFloat :=
  congrArg Tally.ints (Tally.after_empty sig.classes)

theorem floats_layout (sig : Signature) :
    sig.layout.floats = sig.classes.countP ArgClass.isFloat :=
  congrArg Tally.floats (Tally.after_empty sig.classes)

theorem length_slots (sig : Signature) : sig.layout.slots.length = sig.arity := by
  simp [layout, Layout.numbered, length_classes, arity]

theorem places_layout (sig : Signature) :
    sig.layout.slots.map (fun slot => (slot.argClass, slot.index)) =
      Tally.empty.number sig.classes := by
  apply List.ext_getElem?
  intro i
  rw [List.getElem?_map]
  cases h : sig.args[i]? with
  | none =>
      have hlen : sig.arity ≤ i := List.getElem?_eq_none_iff.1 h
      rw [List.getElem?_eq_none (by rw [length_slots]; exact hlen),
        List.getElem?_eq_none (by rw [Tally.length_number, length_classes]; exact hlen)]
      rfl
  | some type =>
      obtain ⟨c, n, -, -, hnumber, hslot⟩ := exists_slot h
      rw [hslot, hnumber]
      rfl

theorem classes_layout (sig : Signature) : sig.layout.classes = sig.classes := by
  have h := congrArg (List.map Prod.fst) sig.places_layout
  rw [List.map_map, Tally.map_fst_number] at h
  exact h

end Signature

end ForeignCall
