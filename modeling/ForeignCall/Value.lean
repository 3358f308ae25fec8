import ForeignCall.NativeType

namespace ForeignCall

inductive Value where
  | unit
  | u8 (x : UInt8)
  | u16 (x : UInt16)
  | u32 (x : UInt32)
  | u64 (x : UInt64)
  | i8 (x : Int8)
  | i16 (x : Int16)
  | i32 (x : Int32)
  | i64 (x : Int64)
  | f32 (bits : UInt32)
  | f64 (bits : UInt64)
  deriving DecidableEq, Repr, Inhabited

namespace Binary32

def isNaN (bits : UInt32) : Bool :=
  bits &&& 0x7fffffff > 0x7f800000

def isZero (bits : UInt32) : Bool :=
  bits &&& 0x7fffffff == 0

def equal (a b : UInt32) : Bool :=
  !isNaN a && !isNaN b && (a == b || isZero a && isZero b)

end Binary32

namespace Binary64

def isNaN (bits : UInt64) : Bool :=
  bits &&& 0x7fffffffffffffff > 0x7ff0000000000000

def isZero (bits : UInt64) : Bool :=
  bits &&& 0x7fffffffffffffff == 0

def equal (a b : UInt64) : Bool :=
  !isNaN a && !isNaN b && (a == b || isZero a && isZero b)

end Binary64

namespace Value

def type : Value → NativeType
  | .unit => .void
  | .u8 _ => .u8
  | .u16 _ => .u16
  | .u32 _ => .u32
  | .u64 _ => .u64
  | .i8 _ => .i8
  | .i16 _ => .i16
  | .i32 _ => .i32
  | .i64 _ => .i64
  | .f32 _ => .f32
  | .f64 _ => .f64

def isNaN : Value → Bool
  | .f32 bits => Binary32.isNaN bits
  | .f64 bits => Binary64.isNaN bits
  | _ => false

def equal : Value → Value → Bool
  | .f32 a, .f32 b => Binary32.equal a b
  | .f64 a, .f64 b => Binary64.equal a b
  | a, b => a == b

end Value

end ForeignCall
