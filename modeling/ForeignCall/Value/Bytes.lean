import ForeignCall.Value

namespace ForeignCall

def littleEndian : Nat → Nat → List UInt8
  | 0, _ => []
  | width + 1, n => UInt8.ofNat n :: littleEndian width (n / 256)

def ofLittleEndian : List UInt8 → Nat
  | [] => 0
  | b :: bs => b.toNat + 256 * ofLittleEndian bs

@[simp]
theorem length_littleEndian (width n : Nat) : (littleEndian width n).length = width := by
  induction width generalizing n with
  | zero => rfl
  | succ width ih => simp [littleEndian, ih]

structure Value.WidthError where
  type : NativeType
  expected : Nat
  actual : Nat
  deriving DecidableEq, Repr

def Value.WidthError.message (e : Value.WidthError) : String :=
  "cannot decode " ++ e.type.name ++ " from " ++ toString e.actual ++ " bytes (expected "
    ++ toString e.expected ++ ")"

namespace Value

def toBytes : Value → List UInt8
  | .unit => []
  | .u8 x => littleEndian 1 x.toNat
  | .u16 x => littleEndian 2 x.toNat
  | .u32 x => littleEndian 4 x.toNat
  | .u64 x => littleEndian 8 x.toNat
  | .i8 x => littleEndian 1 x.toUInt8.toNat
  | .i16 x => littleEndian 2 x.toUInt16.toNat
  | .i32 x => littleEndian 4 x.toUInt32.toNat
  | .i64 x => littleEndian 8 x.toUInt64.toNat
  | .f32 bits => littleEndian 4 bits.toNat
  | .f64 bits => littleEndian 8 bits.toNat

theorem length_toBytes (v : Value) : v.toBytes.length = v.type.size := by
  cases v <;> simp [toBytes, type, NativeType.size]

def readExactly (type : NativeType) (width : Nat) (bytes : List UInt8) : Except WidthError Nat :=
  if bytes.length = width then
    .ok (ofLittleEndian bytes)
  else
    .error ⟨type, width, bytes.length⟩

def ofBytes (type : NativeType) (bytes : List UInt8) : Except WidthError Value :=
  match type with
  | .void => (readExactly .void 0 bytes).map fun _ => .unit
  | .u8 => (readExactly .u8 1 bytes).map fun n => .u8 (.ofNat n)
  | .u16 => (readExactly .u16 2 bytes).map fun n => .u16 (.ofNat n)
  | .u32 => (readExactly .u32 4 bytes).map fun n => .u32 (.ofNat n)
  | .u64 => (readExactly .u64 8 bytes).map fun n => .u64 (.ofNat n)
  | .i8 => (readExactly .i8 1 bytes).map fun n => .i8 (UInt8.ofNat n).toInt8
  | .i16 => (readExactly .i16 2 bytes).map fun n => .i16 (UInt16.ofNat n).toInt16
  | .i32 => (readExactly .i32 4 bytes).map fun n => .i32 (UInt32.ofNat n).toInt32
  | .i64 => (readExactly .i64 8 bytes).map fun n => .i64 (UInt64.ofNat n).toInt64
  | .f32 => (readExactly .f32 4 bytes).map fun n => .f32 (.ofNat n)
  | .f64 => (readExactly .f64 8 bytes).map fun n => .f64 (.ofNat n)

end Value

end ForeignCall
