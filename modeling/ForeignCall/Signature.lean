import ForeignCall.Limits
import ForeignCall.NativeType

namespace ForeignCall

inductive Signature.Defect where
  | voidArgument (index : Nat)
  | tooManyArguments (arity max : Nat)
  | unknownType (name : String)
  | malformed (reason : String)
  deriving DecidableEq, Repr

namespace Signature.Defect

def message : Signature.Defect → String
  | .voidArgument index =>
      "argument " ++ toString index ++ " is void; void is only valid as a return type"
  | .tooManyArguments arity max =>
      "signature has " ++ toString arity ++ " arguments but at most " ++ toString max
        ++ " are allowed"
  | .unknownType name => (UnknownTypeName.mk name).message
  | .malformed reason => "malformed signature: " ++ reason

def missingArrow : Signature.Defect := .malformed "missing `->`"

def unparenthesized : Signature.Defect := .malformed "argument list must be parenthesized"

end Signature.Defect

structure Signature where
  args : List NativeType
  ret : NativeType
  noVoid : NativeType.void ∉ args
  deriving DecidableEq, Repr

namespace Signature

def checkTypes (args : List NativeType) : Except Defect Unit :=
  match args.idxOf? .void with
  | some index => .error (.voidArgument index)
  | none => .ok ()

theorem checkTypes_eq_ok_iff {args : List NativeType} :
    checkTypes args = .ok () ↔ NativeType.void ∉ args := by
  rw [← List.idxOf?_eq_none_iff, checkTypes]
  cases args.idxOf? .void <;> simp

def ofTypes (args : List NativeType) (ret : NativeType) : Except Defect Signature :=
  match h : checkTypes args with
  | .error e => .error e
  | .ok () => .ok ⟨args, ret, checkTypes_eq_ok_iff.1 h⟩

theorem ofTypes_of_noVoid {args : List NativeType} (ret : NativeType)
    (h : NativeType.void ∉ args) : ofTypes args ret = .ok ⟨args, ret, h⟩ := by
  have hc := checkTypes_eq_ok_iff.2 h
  unfold ofTypes
  split
  · next heq => rw [hc] at heq; cases heq
  · rfl

theorem ofTypes_args_ret (sig : Signature) : ofTypes sig.args sig.ret = .ok sig :=
  ofTypes_of_noVoid sig.ret sig.noVoid

theorem ofTypes_eq_error_iff {args : List NativeType} {ret : NativeType} {e : Defect} :
    ofTypes args ret = .error e ↔ checkTypes args = .error e := by
  unfold ofTypes
  split
  · next heq => simp [heq]
  · next heq => simp [heq]

def arity (sig : Signature) : Nat :=
  sig.args.length

def check (sig : Signature) (limits : Limits) : Except Defect Unit :=
  if sig.arity > limits.maxArity then
    .error (.tooManyArguments sig.arity limits.maxArity)
  else
    checkTypes sig.args

theorem check_eq_ok_iff {sig : Signature} {limits : Limits} :
    sig.check limits = .ok () ↔ sig.arity ≤ limits.maxArity := by
  have h := checkTypes_eq_ok_iff.2 sig.noVoid
  unfold check
  split
  · simp only [reduceCtorEq, false_iff]; omega
  · simp only [h, true_iff]; omega

def ofTypesWithin (args : List NativeType) (ret : NativeType) (limits : Limits) :
    Except Defect Signature :=
  match ofTypes args ret with
  | .error e => .error e
  | .ok sig => (sig.check limits).map fun _ => sig

end Signature

end ForeignCall
