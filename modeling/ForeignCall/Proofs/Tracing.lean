import ForeignCall.Proofs.Outcome

namespace ForeignCall.State

variable {ω σ : Type} {limits : Limits} {generator : Generator} {s : State ω σ}

end ForeignCall.State
