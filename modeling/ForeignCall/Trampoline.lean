import ForeignCall.Convention
import ForeignCall.Frame

namespace ForeignCall

structure Load where
  argClass : ArgClass
  offset : Int32
  deriving DecidableEq, Repr

namespace Load

def sequence (intOffset floatOffset : Int32) : List ArgClass → List Load
  | [] => []
  | c :: cs =>
      if c.isFloat then ⟨c, floatOffset⟩ :: sequence intOffset (floatOffset + 8) cs
      else ⟨c, intOffset⟩ :: sequence (intOffset + 8) floatOffset cs

@[simp]
theorem map_argClass_sequence (i f : Int32) (classes : List ArgClass) :
    (sequence i f classes).map argClass = classes := by
  induction classes generalizing i f with
  | nil => rfl
  | cons c cs ih =>
      unfold sequence
      split <;> simp [ih]

def word (load : Load) (frame : Frame) : UInt64 :=
  ((frame.family load.argClass)[load.offset.toNatClampNeg / 8]?).getD 0

def fetch (load : Load) (frame : Frame) : UInt64 :=
  match load.argClass with
  | .f32 => (load.word frame).toUInt32.toUInt64
  | .int | .f64 => load.word frame

end Load

namespace Shape

def loads (shape : Shape) : List Load :=
  Load.sequence 0 0 shape.params.declared

def frameWords (shape : Shape) : Nat :=
  max shape.ints shape.floats

end Shape

inductive BuildError where
  | unsupportedHost (detail : String)
  | settings (detail : String)
  | codegen (detail : String)
  | module (detail : String)
  | frameTooLarge (words : Nat)
  deriving DecidableEq, Repr

def BuildError.message : BuildError → String
  | .unsupportedHost detail => "host is not supported: " ++ detail
  | .settings detail => "invalid code generator setting: " ++ detail
  | .codegen detail => "code generation failed: " ++ detail
  | .module detail => "trampoline definition failed: " ++ detail
  | .frameTooLarge words =>
      "frame of " ++ toString words ++ " words exceeds the addressable range"

abbrev Generator := Nat → Shape → Option BuildError

def Generator.reliable : Generator :=
  fun _ _ => none

structure Trampoline where
  serial : Nat
  shape : Shape
  loads : List Load
  deriving DecidableEq, Repr

structure WordCountMismatch where
  float : Bool
  frame : Nat
  shape : Nat
  deriving DecidableEq, Repr

def WordCountMismatch.message (e : WordCountMismatch) : String :=
  "assertion `left == right` failed: frame " ++ (if e.float then "float" else "integer")
    ++ " words do not match the trampoline shape\n  left: " ++ toString e.frame
    ++ "\n right: " ++ toString e.shape

namespace Trampoline

def build (generator : Generator) (attempt : Nat) (shape : Shape) : Except BuildError Trampoline :=
  if shape.frameWords * 8 > 2147483647 then
    .error (.frameTooLarge shape.frameWords)
  else
    match generator attempt shape with
    | some e => .error e
    | none => .ok ⟨attempt, shape, shape.loads⟩

theorem eq_of_build {generator : Generator} {attempt : Nat} {shape : Shape} {t : Trampoline}
    (h : build generator attempt shape = .ok t) : t = ⟨attempt, shape, shape.loads⟩ := by
  unfold build at h
  split at h
  · cases h
  · split at h
    · cases h
    · cases h; rfl

def pass (t : Trampoline) (registers : Registers) (frame : Frame) : Passed :=
  (registers.place (t.loads.map Load.argClass)).zip (t.loads.map fun load => load.fetch frame)

def deliver (t : Trampoline) (callee : Signature) (frame : Frame) :
    Except WordCountMismatch (List Value) :=
  if frame.ints.length ≠ t.shape.ints then
    .error ⟨false, frame.ints.length, t.shape.ints⟩
  else if frame.floats.length ≠ t.shape.floats then
    .error ⟨true, frame.floats.length, t.shape.floats⟩
  else
    .ok (callee.receive .host (t.pass .host frame))

def collect (t : Trampoline) (callee : Signature) (word : UInt64) : UInt64 :=
  t.shape.ret.take (ResultClass.of callee.ret) word

end Trampoline

end ForeignCall
