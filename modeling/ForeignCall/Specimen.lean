import ForeignCall.Program

namespace ForeignCall

structure World where
  stored : UInt64
  seen : List Value
  deriving DecidableEq, Repr

def World.initial : World := ⟨0, []⟩

inductive Specimen.Kind where
  | computing
  | recording
  deriving DecidableEq, Repr

structure Specimen (σ : Type) where
  name : String
  kind : Specimen.Kind
  callee : Callee World σ

namespace Specimen

variable {σ : Type}

def signature (specimen : Specimen σ) : Signature :=
  specimen.callee.signature

def computing (name : String) (signature : Signature) (result : List Value → Value)
    (address : Address) : Specimen σ :=
  ⟨name, .computing, address, signature, fun args => .finish (result args).toWord⟩

def recording (name : String) (signature : Signature) (position : Nat) (address : Address) :
    Specimen σ :=
  ⟨name, .recording, address, signature, fun args =>
    .act (fun world => { world with seen := world.seen ++ args })
      fun _ => .finish (args.getD position .unit).toWord⟩

def small (n : UInt8) : NativeType → Value
  | .void => .unit
  | .u8 => .u8 n
  | .u16 => .u16 n.toUInt16
  | .u32 => .u32 n.toUInt32
  | .u64 => .u64 n.toUInt64
  | .i8 => .i8 (min n 127).toInt8
  | .i16 => .i16 n.toUInt16.toInt16
  | .i32 => .i32 n.toUInt32.toInt32
  | .i64 => .i64 n.toUInt64.toInt64
  | .f32 => .f32 n.toFloat32.toBits
  | .f64 => .f64 n.toFloat.toBits

def sampleArgs (specimen : Specimen σ) : List Value :=
  specimen.signature.args.zipIdx.map fun (type, i) => small (.ofNat (i + 1)) type

end Specimen

end ForeignCall
