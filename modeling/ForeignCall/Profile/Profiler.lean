import ForeignCall.Profile.Client
import ForeignCall.Profile.Label
import ForeignCall.Sink

namespace ForeignCall.Profile

structure Scope where
  callee : Address
  label : String
  span : Option Nat
  deriving DecidableEq, Repr

structure Profiler (ρ : Type) where
  labels : ρ
  scopes : List Scope
  client : Client

namespace Profiler

variable {ρ : Type}

def new (labels : ρ) (client : Client) : Profiler ρ :=
  ⟨labels, [], client⟩

def depth (p : Profiler ρ) : Nat :=
  p.scopes.length

def close (client : Client) (scopes : List Scope) : Client :=
  scopes.foldl (fun client scope => client.endSpan scope.span scope.label) client

def enter (labeller : Labeller ρ) (callee : Address) (sig : Signature) (p : Profiler ρ) :
    Profiler ρ :=
  let (given, labels) := labeller.call callee sig p.labels
  let label := given.getD (addressLabel callee sig)
  let (span, client) := p.client.beginSpan label
  ⟨labels, ⟨callee, label, span⟩ :: p.scopes, client⟩

def exit (callee : Address) (p : Profiler ρ) : Profiler ρ :=
  match p.scopes with
  | [] => p
  | scope :: scopes =>
      if scope.callee = callee then { p with scopes, client := close p.client [scope] }
      else { p with scopes := [], client := close p.client (scope :: scopes) }

def lookup (labeller : Labeller ρ) (shape : Shape) (outcome : Outcome) (p : Profiler ρ) :
    Profiler ρ :=
  if outcome = .built ∧ p.client.running then
    let (given, labels) := labeller.build shape p.labels
    { p with labels, client := p.client.record (.message (given.getD (shapeLabel shape))) }
  else
    p

def receive (labeller : Labeller ρ) : Event → Profiler ρ → Profiler ρ
  | .lookup shape outcome, p => p.lookup labeller shape outcome
  | .enter callee sig, p => p.enter labeller callee sig
  | .exit callee _, p => p.exit callee

-- The client after the profiler is gone: the scopes still open are closed, the outermost first.
def dispose (p : Profiler ρ) : Client :=
  close p.client p.scopes.reverse

def sink (labeller : Labeller ρ) : Sink (Profiler ρ) :=
  ⟨fun _ => .all, receive labeller⟩

end Profiler

end ForeignCall.Profile
