import ForeignCall.Profile.Profiler
import ForeignCall.Proofs.Calls

namespace ForeignCall

namespace Profile

namespace Profiler

variable {ρ : Type} {labeller : Labeller ρ} {p : Profiler ρ}

def spanned (labeller : Labeller ρ) (callee : Address) (sig : Signature) (p : Profiler ρ)
    (labels : ρ) : List Entry :=
  let label := (labeller.call callee sig labels).1.getD (addressLabel callee sig)
  [.began p.client.spans label, .ended p.client.spans label]

def shown (labeller : Labeller ρ) (callee : Address) (sig : Signature) (p : Profiler ρ) :
    Outcome → List Entry
  | .hit => p.spanned labeller callee sig p.labels
  | .built =>
      let given := labeller.build sig.shape p.labels
      .message (given.1.getD (shapeLabel sig.shape)) :: p.spanned labeller callee sig given.2

end Profiler

structure Call (ω ρ : Type) where
  callee : Callee ω (Profiler ρ)
  claimed : Signature
  args : List Value

namespace Call

variable {ω ρ : Type}

def request (labeller : Labeller ρ) (call : Call ω ρ) : Request (Profiler ρ) :=
  ⟨call.callee.address, call.claimed, call.args, some (Profiler.sink labeller)⟩

end Call

end Profile

namespace State

open Profile

variable {ω ρ : Type} {labeller : Labeller ρ} {limits : Limits} {generator : Generator}
  {s : State ω (Profiler ρ)} {call : Call ω ρ}

def observed (labeller : Labeller ρ) (s : State ω (Profiler ρ)) (call : Call ω ρ) :
    Except Rejection Value × State ω (Profiler ρ) :=
  s.dispatchObserved call.callee call.claimed call.args (some (Profiler.sink labeller))

end State

end ForeignCall
