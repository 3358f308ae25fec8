import ForeignCall.Cache

namespace ForeignCall

inductive Rejection where
  | signature (e : Signature.Defect)
  | argument (e : Frame.Mismatch)
  | build (e : BuildError)
  | wordCount (e : WordCountMismatch)
  deriving DecidableEq, Repr

namespace Rejection

def source : Rejection → String
  | .signature e => e.message
  | .argument e => e.message
  | .build e => e.message
  | .wordCount e => e.message

def message : Rejection → String
  | .signature e => "invalid signature: " ++ e.message
  | .argument e => "argument mismatch: " ++ e.message
  | .build e => "trampoline unavailable: " ++ e.message
  | .wordCount e => e.message

end Rejection

structure Dispatcher where
  limits : Limits
  cache : Cache

namespace Dispatcher

def new (limits : Limits) (generator : Generator) : Dispatcher :=
  ⟨limits, .empty generator⟩

def lookup (d : Dispatcher) (shape : Shape) :
    Except BuildError (Trampoline × Outcome) × Dispatcher :=
  let (result, cache) := d.cache.lookup shape
  (result, { d with cache })

def resolve (d : Dispatcher) (sig : Signature) :
    Except Rejection (Trampoline × Outcome) × Dispatcher :=
  match sig.plan d.limits with
  | .error e => (.error (.signature e), d)
  | .ok plan =>
      let (result, d) := d.lookup plan.shape
      (result.mapError .build, d)

def trampolineOf (d : Dispatcher) (sig : Signature) : Except Rejection Trampoline × Dispatcher :=
  let (result, d) := d.resolve sig
  (result.map (·.1), d)

def warm (d : Dispatcher) (sig : Signature) : Except Rejection Outcome × Dispatcher :=
  let (result, d) := d.resolve sig
  (result.map (·.2), d)

end Dispatcher

end ForeignCall
