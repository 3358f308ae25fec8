import ForeignCall.Specimen

namespace ForeignCall.Specimen

variable {σ : Type}

def addWide : List Value → Value
  | [.u64 a, .u8 b] => .u32 (a + b.toUInt64).toUInt32
  | _ => .unit

def widen : List Value → Value
  | [.i8 x] => .i64 x.toInt64
  | _ => .unit

def negate : List Value → Value
  | [.i16 x] => .i16 (-x)
  | _ => .unit

def lowByte : List Value → Value
  | [.u32 x] => .u8 x.toUInt8
  | _ => .unit

def scaleDouble : List Value → Value
  | [.f64 x, .f32 k] => .f64 (Float.ofBits x * (Float32.ofBits k).toFloat).toBits
  | _ => .unit

def half : List Value → Value
  | [.f32 x] => .f32 (Float32.ofBits x / 2).toBits
  | _ => .unit

def sumWords (args : List Value) : Value :=
  .u64 ((args.map Value.toWord).foldl (· + ·) 0)

def weighFloats (args : List Value) : Value :=
  let terms := args.zipIdx.map fun (v, i) => Float.ofBits v.toWord * Float.ofNat (i + 1)
  .f64 (terms.foldl (· + ·) (-0.0)).toBits

def interleaved : List Value → Value
  | [.u64 a, .f64 b, .i32 c, .f32 d, .u16 e, .f64 f] =>
      .f64 (a.toFloat + 10 * Float.ofBits b + 100 * c.toFloat + 1000 * (Float32.ofBits d).toFloat
        + 10000 * e.toFloat - Float.ofBits f).toBits
  | _ => .unit

def scaleToUnsigned : List Value → Value
  | [.u64 a, .f64 k] => .u32 (a.toFloat * Float.ofBits k).toUInt32
  | _ => .unit

def scaleToSigned : List Value → Value
  | [.f64 k, .i32 a] => .i8 (Float.ofBits k * a.toFloat).toInt8
  | _ => .unit

def storing (name : String) (address : Address) : Specimen σ :=
  ⟨name, .computing, address, ⟨[.u64], .void, by decide⟩, fun args =>
    .act (fun world => { world with stored := (args.getD 0 .unit).toWord }) fun _ => .finish 0⟩

def computingRows : List (Address → Specimen σ) :=
  [ computing "add_u64_u8" ⟨[.u64, .u8], .u32, by decide⟩ addWide,
    computing "noop" ⟨[], .void, by decide⟩ fun _ => .unit,
    computing "widen_i8" ⟨[.i8], .i64, by decide⟩ widen,
    computing "negate_i16" ⟨[.i16], .i16, by decide⟩ negate,
    computing "low_byte" ⟨[.u32], .u8, by decide⟩ lowByte,
    computing "scale_f64_by_f32" ⟨[.f64, .f32], .f64, by decide⟩ scaleDouble,
    computing "half_f32" ⟨[.f32], .f32, by decide⟩ half,
    computing "sum_ints_10" ⟨List.replicate 10 .u64, .u64, by decide⟩ sumWords,
    computing "weigh_floats_10" ⟨List.replicate 10 .f64, .f64, by decide⟩ weighFloats,
    computing "interleave" ⟨[.u64, .f64, .i32, .f32, .u16, .f64], .f64, by decide⟩ interleaved,
    computing "scale_u64" ⟨[.u64, .f64], .u32, by decide⟩ scaleToUnsigned,
    computing "scale_i32" ⟨[.f64, .i32], .i8, by decide⟩ scaleToSigned,
    storing "record" ]

def nestSignature : Signature := ⟨[.u64], .u64, by decide⟩

def nestBody (address : Address) : Nat → List Value → Program World σ
  | 0, _ => .finish 0
  | depth + 1, args =>
      let n := (args.getD 0 .unit).toWord
      .act (fun world => { world with seen := world.seen ++ args }) fun _ =>
        if n = 0 then .finish 0
        else
          .call ⟨address, nestSignature, [.u64 (n - 1)], none⟩ nestSignature
            (nestBody address depth) fun result =>
              match result with
              | .ok v => .finish (n + v.toWord)
              | .error _ => .finish n

def nest (name : String) (address : Address) : Specimen σ :=
  ⟨name, .recording, address, nestSignature, fun args =>
    nestBody address ((args.getD 0 .unit).toWord.toNat + 1) args⟩

def recordingRows : List (Address → Specimen σ) :=
  [ recording "id_u8" ⟨[.u8], .u8, by decide⟩ 0,
    recording "id_u16" ⟨[.u16], .u16, by decide⟩ 0,
    recording "id_u32" ⟨[.u32], .u32, by decide⟩ 0,
    recording "id_u64" ⟨[.u64], .u64, by decide⟩ 0,
    recording "id_i8" ⟨[.i8], .i8, by decide⟩ 0,
    recording "id_i16" ⟨[.i16], .i16, by decide⟩ 0,
    recording "id_i32" ⟨[.i32], .i32, by decide⟩ 0,
    recording "id_i64" ⟨[.i64], .i64, by decide⟩ 0,
    recording "id_f32" ⟨[.f32], .f32, by decide⟩ 0,
    recording "id_f64" ⟨[.f64], .f64, by decide⟩ 0,
    recording "take_all" ⟨[.u8, .i8, .f32, .u16, .i16, .f64], .void, by decide⟩ 6,
    recording "regs14"
      ⟨[.f32, .u64, .f64, .i64, .f32, .u8, .f64, .i8, .f32, .u16, .f64, .i32, .f32, .f64], .f32,
        by decide⟩ 12,
    recording "ints7" ⟨[.u64, .i64, .u64, .i64, .u64, .i64, .u64], .u64, by decide⟩ 6,
    recording "floats9" ⟨[.f32, .f64, .f32, .f64, .f32, .f64, .f32, .f64, .f32], .f32, by decide⟩ 8,
    recording "f64_first"
      ⟨[.f64, .u64, .u64, .u64, .u64, .u64, .u64, .u64, .f32], .f64, by decide⟩ 0,
    recording "narrow12"
      ⟨[.u8, .i8, .u16, .i16, .u32, .i32, .u8, .i8, .u16, .i16, .u32, .i32], .i32, by decide⟩ 11,
    recording "alt18"
      ⟨[.f32, .u64, .f64, .i64, .f32, .u64, .f64, .i64, .f32, .u64, .f64, .i64, .f32, .u64, .f64,
        .i64, .f32, .u64], .f64, by decide⟩ 14,
    recording "wide33" ⟨List.replicate 32 .u64 ++ [.i64], .i64, by decide⟩ 32,
    nest "nest" ]

def located (rows : List (Address → Specimen σ)) : List (Specimen σ) :=
  rows.zipIdx.filterMap fun (row, i) => (Address.ofWord? (.ofNat (0x1000 + 0x10 * i))).map row

def table : List (Specimen σ) :=
  located (computingRows ++ recordingRows)

def find? (name : String) : Option (Specimen σ) :=
  table.find? fun specimen => specimen.name == name

def computingNames : List String :=
  ((table : List (Specimen Unit)).filter fun s => s.kind == .computing).map name

end ForeignCall.Specimen
