import ForeignCall.Value

namespace ForeignCall.Value

def toWord : Value → UInt64
  | .unit => 0
  | .u8 x => x.toUInt64
  | .u16 x => x.toUInt64
  | .u32 x => x.toUInt64
  | .u64 x => x
  | .i8 x => x.toInt64.toUInt64
  | .i16 x => x.toInt64.toUInt64
  | .i32 x => x.toInt64.toUInt64
  | .i64 x => x.toUInt64
  | .f32 bits => bits.toUInt64
  | .f64 bits => bits

def ofWord (type : NativeType) (word : UInt64) : Value :=
  match type with
  | .void => .unit
  | .u8 => .u8 word.toUInt8
  | .u16 => .u16 word.toUInt16
  | .u32 => .u32 word.toUInt32
  | .u64 => .u64 word
  | .i8 => .i8 word.toUInt8.toInt8
  | .i16 => .i16 word.toUInt16.toInt16
  | .i32 => .i32 word.toUInt32.toInt32
  | .i64 => .i64 word.toInt64
  | .f32 => .f32 word.toUInt32
  | .f64 => .f64 word

@[simp]
theorem type_ofWord (t : NativeType) (word : UInt64) : (ofWord t word).type = t := by
  cases t <;> rfl

end ForeignCall.Value
