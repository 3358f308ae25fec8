import ForeignCall.Dispatcher

namespace ForeignCall

structure State (ω σ : Type) where
  dispatcher : Dispatcher
  world : ω
  sinks : σ

structure Request (σ : Type) where
  callee : Address
  claimed : Signature
  args : List Value
  sink : Option (Sink σ)

inductive Program (ω σ : Type) where
  | finish (word : UInt64)
  | act (effect : ω → ω) (next : ω → Program ω σ)
  | call (request : Request σ) (signature : Signature) (body : List Value → Program ω σ)
      (next : Except Rejection Value → Program ω σ)

structure Callee (ω σ : Type) where
  address : Address
  signature : Signature
  body : List Value → Program ω σ

structure Prepared where
  frame : Frame
  trampoline : Trampoline
  observed : Bool
  deriving DecidableEq, Repr

variable {ω σ : Type}

namespace State

def notify (s : State ω σ) (sink : Option (Sink σ)) (wanted : Bool) (event : Event) : State ω σ :=
  match sink, wanted with
  | some sink, true => { s with sinks := sink.receive event s.sinks }
  | _, _ => s

def mask (s : State ω σ) (sink : Option (Sink σ)) : EventMask :=
  match sink with
  | some sink => sink.mask s.sinks
  | none => .none

def prepare (s : State ω σ) (request : Request σ) : Except Rejection Prepared × State ω σ :=
  let mask := s.mask request.sink
  match request.claimed.plan s.dispatcher.limits with
  | .error e => (.error (.signature e), s)
  | .ok plan =>
      match Frame.ofArgs plan.layout request.args with
      | .error e => (.error (.argument e), s)
      | .ok frame =>
          match s.dispatcher.lookup plan.shape with
          | (.error e, dispatcher) => (.error (.build e), { s with dispatcher })
          | (.ok (trampoline, outcome), dispatcher) =>
              let s := { s with dispatcher }
              let s := s.notify request.sink (mask.covers .lookupOnly) (.lookup plan.shape outcome)
              let observed := mask.covers .callOnly
              let s := s.notify request.sink observed (.enter request.callee request.claimed)
              (.ok ⟨frame, trampoline, observed⟩, s)

def dispatchWith (perform : List Value → State ω σ → UInt64 × State ω σ) (signature : Signature)
    (request : Request σ) (s : State ω σ) : Except Rejection Value × State ω σ :=
  match s.prepare request with
  | (.error e, s) => (.error e, s)
  | (.ok call, s) =>
      match call.trampoline.deliver signature call.frame with
      | .error e => (.error (.wordCount e), s)
      | .ok received =>
          let (word, s) := perform received s
          let s := s.notify request.sink call.observed (.exit request.callee request.claimed)
          (.ok (Value.ofWord request.claimed.ret (call.trampoline.collect signature word)), s)

end State

def Program.run : Program ω σ → State ω σ → UInt64 × State ω σ
  | .finish word, s => (word, s)
  | .act effect next, s =>
      let world := effect s.world
      (next world).run { s with world }
  | .call request signature body next, s =>
      let (result, s) := s.dispatchWith (fun received s => (body received).run s) signature request
      (next result).run s

namespace State

def dispatchObserved (s : State ω σ) (callee : Callee ω σ) (claimed : Signature)
    (args : List Value) (sink : Option (Sink σ)) : Except Rejection Value × State ω σ :=
  s.dispatchWith (fun received s => (callee.body received).run s) callee.signature
    ⟨callee.address, claimed, args, sink⟩

def dispatch (s : State ω σ) (callee : Callee ω σ) (claimed : Signature) (args : List Value) :
    Except Rejection Value × State ω σ :=
  s.dispatchObserved callee claimed args none

def invoke (s : State ω σ) (trampoline : Trampoline) (callee : Callee ω σ) (frame : Frame) :
    Except WordCountMismatch UInt64 × State ω σ :=
  match trampoline.deliver callee.signature frame with
  | .error e => (.error e, s)
  | .ok received =>
      let (word, s) := (callee.body received).run s
      (.ok (trampoline.collect callee.signature word), s)

end State

namespace Program

def dispatch (callee : Callee ω σ) (claimed : Signature) (args : List Value)
    (sink : Option (Sink σ)) (next : Except Rejection Value → Program ω σ) : Program ω σ :=
  .call ⟨callee.address, claimed, args, sink⟩ callee.signature callee.body next

end Program

end ForeignCall
