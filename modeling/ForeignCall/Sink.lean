import ForeignCall.Address
import ForeignCall.Shape
import ForeignCall.Signature.Text

namespace ForeignCall

inductive Outcome where
  | hit
  | built
  deriving DecidableEq, Repr

def Outcome.name : Outcome → String
  | .hit => "Hit"
  | .built => "Built"

structure EventMask where
  lookup : Bool
  call : Bool
  deriving DecidableEq, Repr

namespace EventMask

def none : EventMask := ⟨false, false⟩

def lookupOnly : EventMask := ⟨true, false⟩

def callOnly : EventMask := ⟨false, true⟩

def all : EventMask := ⟨true, true⟩

def union (a b : EventMask) : EventMask :=
  ⟨a.lookup || b.lookup, a.call || b.call⟩

def covers (a b : EventMask) : Bool :=
  (a.lookup || !b.lookup) && (a.call || !b.call)

@[simp]
theorem covers_lookupOnly (mask : EventMask) : mask.covers .lookupOnly = mask.lookup := by
  simp [covers, lookupOnly]

@[simp]
theorem covers_callOnly (mask : EventMask) : mask.covers .callOnly = mask.call := by
  simp [covers, callOnly]

def name (mask : EventMask) : String :=
  match mask.lookup, mask.call with
  | false, false => "NONE"
  | true, false => "SHAPE"
  | false, true => "CALL"
  | true, true => "ALL"

def ofName? (name : String) : Option EventMask :=
  [none, lookupOnly, callOnly, all].find? fun mask => mask.name == name

theorem ofName?_name (mask : EventMask) : ofName? mask.name = some mask := by
  obtain ⟨s, c⟩ := mask
  cases s <;> cases c <;> rfl

end EventMask

inductive Event where
  | lookup (shape : Shape) (outcome : Outcome)
  | enter (callee : Address) (sig : Signature)
  | exit (callee : Address) (sig : Signature)
  deriving DecidableEq, Repr

def Event.text : Event → String
  | .lookup shape outcome => "shape " ++ shape.text ++ " " ++ outcome.name
  | .enter _ sig => "enter " ++ sig.text
  | .exit _ sig => "exit " ++ sig.text

structure Sink (σ : Type) where
  mask : σ → EventMask
  receive : Event → σ → σ

namespace Sink

variable {σ τ : Type}

def silent (mask : EventMask) : Sink σ :=
  ⟨fun _ => mask, fun _ s => s⟩

def recorder (mask : EventMask) : Sink (List Event) :=
  ⟨fun _ => mask, fun event events => events ++ [event]⟩

def within (sink : Sink σ) (get : τ → σ) (set : σ → τ → τ) : Sink τ :=
  ⟨fun t => sink.mask (get t), fun event t => set (sink.receive event (get t)) t⟩

end Sink

end ForeignCall
