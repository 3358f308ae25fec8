namespace ForeignCall

structure Limits where
  maxArity : Nat
  deriving DecidableEq, Repr

namespace Limits

def standardArity : Nat := 32

def standard : Limits := ⟨standardArity⟩

end Limits

inductive Effort where
  | none
  | speed
  | speedAndSize
  deriving DecidableEq, Repr

namespace Effort

def standard : Effort := .speed

def name : Effort → String
  | .none => "None"
  | .speed => "Speed"
  | .speedAndSize => "SpeedAndSize"

end Effort

end ForeignCall
