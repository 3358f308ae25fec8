import ForeignCall.NativeType

namespace ForeignCall

inductive ArgClass where
  | int
  | f32
  | f64
  deriving DecidableEq, Repr

namespace ArgClass

def of? : NativeType → Option ArgClass
  | .void => none
  | .f32 => some .f32
  | .f64 => some .f64
  | .u8 | .u16 | .u32 | .u64 | .i8 | .i16 | .i32 | .i64 => some .int

theorem of?_eq_none_iff {type : NativeType} : of? type = none ↔ type = .void := by
  cases type <;> simp [of?]

def isFloat : ArgClass → Bool
  | .int => false
  | .f32 | .f64 => true

def name : ArgClass → String
  | .int => "int"
  | .f32 => "f32"
  | .f64 => "f64"

end ArgClass

inductive ResultClass where
  | void
  | int
  | float
  deriving DecidableEq, Repr

namespace ResultClass

def of (type : NativeType) : ResultClass :=
  match ArgClass.of? type with
  | none => .void
  | some .int => .int
  | some .f32 | some .f64 => .float

def name : ResultClass → String
  | .void => "void"
  | .int => "int"
  | .float => "float"

end ResultClass

structure Registers where
  ints : Nat
  floats : Nat
  deriving DecidableEq, Repr

namespace Registers

def host : Registers := ⟨6, 8⟩

def hold (registers : Registers) (ints floats : Nat) : Bool :=
  decide (ints ≤ registers.ints) && decide (floats ≤ registers.floats)

theorem hold_iff {registers : Registers} {ints floats : Nat} :
    registers.hold ints floats = true ↔ ints ≤ registers.ints ∧ floats ≤ registers.floats := by
  simp [hold]

end Registers

inductive Params where
  | counted (ints floats : Nat)
  | ordered (classes : List ArgClass)
  deriving DecidableEq, Repr

namespace Params

def ints : Params → Nat
  | .counted ints _ => ints
  | .ordered classes => classes.countP fun c => !c.isFloat

def floats : Params → Nat
  | .counted _ floats => floats
  | .ordered classes => classes.countP ArgClass.isFloat

def order? : Params → Option (List ArgClass)
  | .counted _ _ => none
  | .ordered classes => some classes

def text : Params → String
  | .counted ints floats => "(" ++ toString ints ++ " int, " ++ toString floats ++ " float)"
  | .ordered classes => "[" ++ ", ".intercalate (classes.map ArgClass.name) ++ "]"

-- The parameters that a trampoline declares the callee with. When all are in registers, integers
-- come before floats, and a float fills its whole register.
def declared : Params → List ArgClass
  | .counted ints floats => List.replicate ints .int ++ List.replicate floats .f64
  | .ordered classes => classes

theorem countP_isFloat_declared (params : Params) :
    params.declared.countP ArgClass.isFloat = params.floats := by
  cases params <;> simp [declared, floats, List.countP_replicate, ArgClass.isFloat]

theorem countP_not_isFloat_declared (params : Params) :
    (params.declared.countP fun c => !c.isFloat) = params.ints := by
  cases params <;> simp [declared, ints, List.countP_replicate, ArgClass.isFloat]

end Params

structure Shape where
  params : Params
  ret : ResultClass
  deriving DecidableEq, Repr

namespace Shape

def ints (shape : Shape) : Nat :=
  shape.params.ints

def floats (shape : Shape) : Nat :=
  shape.params.floats

def text (shape : Shape) : String :=
  shape.params.text ++ " -> " ++ shape.ret.name

end Shape

end ForeignCall
