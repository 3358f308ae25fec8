import ForeignCall.Shape
import ForeignCall.Signature

namespace ForeignCall

structure FrameSlot where
  argClass : ArgClass
  index : Nat
  type : NativeType
  deriving DecidableEq, Repr

structure Tally where
  ints : Nat
  floats : Nat
  deriving DecidableEq, Repr

namespace Tally

def empty : Tally := ⟨0, 0⟩

def next (tally : Tally) (c : ArgClass) : Nat :=
  if c.isFloat then tally.floats else tally.ints

def add (tally : Tally) (c : ArgClass) : Tally :=
  if c.isFloat then { tally with floats := tally.floats + 1 }
  else { tally with ints := tally.ints + 1 }

end Tally

structure Layout where
  slots : List FrameSlot
  total : Tally
  deriving DecidableEq, Repr

namespace Layout

def arity (layout : Layout) : Nat :=
  layout.slots.length

def ints (layout : Layout) : Nat :=
  layout.total.ints

def floats (layout : Layout) : Nat :=
  layout.total.floats

def classes (layout : Layout) : List ArgClass :=
  layout.slots.map FrameSlot.argClass

def place (position : Nat) (taken : Tally) : List NativeType → Except Signature.Defect Layout
  | [] => .ok ⟨[], taken⟩
  | type :: types =>
      match ArgClass.of? type with
      | none => .error (.voidArgument position)
      | some c =>
          (place (position + 1) (taken.add c) types).map fun rest =>
            ⟨⟨c, taken.next c, type⟩ :: rest.slots, rest.total⟩

theorem map_type_slots_of_place {position : Nat} {taken : Tally} {types : List NativeType}
    {layout : Layout} (h : place position taken types = .ok layout) :
    layout.slots.map FrameSlot.type = types := by
  induction types generalizing position taken layout with
  | nil =>
      cases h
      rfl
  | cons type types ih =>
      unfold place at h
      split at h
      · cases h
      · next c _ =>
          cases hrest : place (position + 1) (taken.add c) types with
          | error e => rw [hrest] at h; cases h
          | ok rest =>
              rw [hrest] at h
              cases h
              simp [ih hrest]

def params (layout : Layout) (registers : Option Registers) : Params :=
  if registers.any fun r => r.hold layout.ints layout.floats then
    .counted layout.ints layout.floats
  else
    .ordered layout.classes

end Layout

structure Plan where
  shape : Shape
  layout : Layout
  deriving DecidableEq, Repr

namespace Signature

def planFor (sig : Signature) (limits : Limits) (registers : Option Registers) :
    Except Defect Plan :=
  match sig.check limits with
  | .error e => .error e
  | .ok () =>
      (Layout.place 0 .empty sig.args).map fun layout =>
        ⟨⟨layout.params registers, ResultClass.of sig.ret⟩, layout⟩

def plan (sig : Signature) (limits : Limits) : Except Defect Plan :=
  sig.planFor limits (some .host)

def classes (sig : Signature) : List ArgClass :=
  sig.args.filterMap ArgClass.of?

theorem length_classes (sig : Signature) : sig.classes.length = sig.arity := by
  have h : ∀ args : List NativeType, NativeType.void ∉ args →
      (args.filterMap ArgClass.of?).length = args.length := by
    intro args
    induction args with
    | nil => intro _; rfl
    | cons type args ih =>
        intro hvoid
        simp only [List.mem_cons, not_or] at hvoid
        cases hc : ArgClass.of? type with
        | none => exact absurd (ArgClass.of?_eq_none_iff.1 hc).symm hvoid.1
        | some c => simp [hc, ih hvoid.2]
  exact h sig.args sig.noVoid

end Signature

end ForeignCall
