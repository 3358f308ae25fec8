import ForeignCall.Layout
import ForeignCall.Value.Word

namespace ForeignCall

structure Frame where
  ints : List UInt64
  floats : List UInt64
  deriving DecidableEq, Repr

inductive Frame.Mismatch where
  | arity (expected actual : Nat)
  | type (index : Nat) (expected actual : NativeType)
  deriving DecidableEq, Repr

def Frame.Mismatch.message : Frame.Mismatch → String
  | .arity expected actual =>
      "expected " ++ toString expected ++ " arguments, got " ++ toString actual
  | .type index expected actual =>
      "argument " ++ toString index ++ ": expected " ++ expected.name ++ ", got " ++ actual.name

namespace Frame

def empty : Frame := ⟨[], []⟩

def family (frame : Frame) (c : ArgClass) : List UInt64 :=
  if c.isFloat then frame.floats else frame.ints

def push (frame : Frame) (c : ArgClass) (word : UInt64) : Frame :=
  if c.isFloat then { frame with floats := frame.floats ++ [word] }
  else { frame with ints := frame.ints ++ [word] }

theorem family_push_self (frame : Frame) (c : ArgClass) (word : UInt64) :
    (frame.push c word).family c = frame.family c ++ [word] := by
  cases c <;> rfl

theorem family_push_of_ne (frame : Frame) {c d : ArgClass} (word : UInt64)
    (h : d.isFloat ≠ c.isFloat) : (frame.push c word).family d = frame.family d := by
  cases c <;> cases d <;> first | rfl | exact absurd rfl h

def fill (frame : Frame) : List (FrameSlot × Value) → Frame
  | [] => frame
  | (slot, v) :: rest => (frame.push slot.argClass v.toWord).fill rest

theorem fill_append (frame : Frame) (xs ys : List (FrameSlot × Value)) :
    frame.fill (xs ++ ys) = (frame.fill xs).fill ys := by
  induction xs generalizing frame with
  | nil => rfl
  | cons x xs ih => simp [fill, ih]

def firstMismatch? (index : Nat) : List FrameSlot → List Value → Option Mismatch
  | slot :: slots, v :: values =>
      if v.type = slot.type then firstMismatch? (index + 1) slots values
      else some (.type index slot.type v.type)
  | _, _ => none

def ofArgs (layout : Layout) (args : List Value) : Except Mismatch Frame :=
  if args.length ≠ layout.arity then
    .error (.arity layout.arity args.length)
  else
    match firstMismatch? 0 layout.slots args with
    | some e => .error e
    | none => .ok (empty.fill (layout.slots.zip args))

end Frame

end ForeignCall
