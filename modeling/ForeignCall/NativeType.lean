namespace ForeignCall

inductive NativeType where
  | void
  | u8
  | u16
  | u32
  | u64
  | i8
  | i16
  | i32
  | i64
  | f32
  | f64
  deriving DecidableEq, Repr, Inhabited

namespace NativeType

def all : List NativeType :=
  [.void, .u8, .u16, .u32, .u64, .i8, .i16, .i32, .i64, .f32, .f64]

theorem mem_all (t : NativeType) : t ∈ all := by
  cases t <;> decide

def tag : NativeType → Nat
  | .void => 0
  | .u8 => 1
  | .u16 => 2
  | .u32 => 3
  | .u64 => 4
  | .i8 => 5
  | .i16 => 6
  | .i32 => 7
  | .i64 => 8
  | .f32 => 9
  | .f64 => 10

def ofTag? (n : Nat) : Option NativeType :=
  all[n]?

theorem ofTag?_tag (t : NativeType) : ofTag? t.tag = some t := by
  cases t <;> rfl

instance : LE NativeType := ⟨fun a b => a.tag ≤ b.tag⟩

instance (a b : NativeType) : Decidable (a ≤ b) := inferInstanceAs (Decidable (a.tag ≤ b.tag))

def sort (types : List NativeType) : List NativeType :=
  types.mergeSort fun a b => decide (a ≤ b)

def greatest? (types : List NativeType) : Option NativeType :=
  (sort types).getLast?

def size : NativeType → Nat
  | .void => 0
  | .u8 | .i8 => 1
  | .u16 | .i16 => 2
  | .u32 | .i32 | .f32 => 4
  | .u64 | .i64 | .f64 => 8

def isInteger : NativeType → Bool
  | .u8 | .u16 | .u32 | .u64 | .i8 | .i16 | .i32 | .i64 => true
  | _ => false

def isSigned : NativeType → Bool
  | .i8 | .i16 | .i32 | .i64 => true
  | _ => false

def isFloat : NativeType → Bool
  | .f32 | .f64 => true
  | _ => false

def name : NativeType → String
  | .void => "void"
  | .u8 => "u8"
  | .u16 => "u16"
  | .u32 => "u32"
  | .u64 => "u64"
  | .i8 => "i8"
  | .i16 => "i16"
  | .i32 => "i32"
  | .i64 => "i64"
  | .f32 => "f32"
  | .f64 => "f64"

def ofName? (name : String) : Option NativeType :=
  all.find? fun t => t.name == name

theorem ofName?_name (t : NativeType) : ofName? t.name = some t := by
  cases t <;> rfl

theorem name_eq_of_ofName? {text : String} {t : NativeType} (h : ofName? text = some t) :
    t.name = text := by
  simpa using List.find?_some h

end NativeType

structure UnknownTypeName where
  name : String
  deriving DecidableEq, Repr

def UnknownTypeName.message (e : UnknownTypeName) : String :=
  "unknown type name `" ++ e.name ++ "`"

def NativeType.parse (name : String) : Except UnknownTypeName NativeType :=
  match ofName? name with
  | some t => .ok t
  | none => .error ⟨name⟩

end ForeignCall
