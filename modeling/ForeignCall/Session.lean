import ForeignCall.Cache.Threads
import ForeignCall.Inspect
import ForeignCall.Specimen.Table

namespace ForeignCall

inductive SignatureSource where
  | written (text : String)
  | listed (args : List NativeType) (ret : NativeType)
  deriving DecidableEq, Repr

def SignatureSource.read : SignatureSource → Except Signature.Defect Signature
  | .written text => Signature.parse text
  | .listed args ret => Signature.ofTypes args ret

namespace Session

open Profile

structure Observers where
  events : List Event
  profiler : Profiler LabelSource

inductive SinkChoice where
  | none
  | silent
  | recorder (mask : EventMask)
  | profiler (symbol : Option String)
  deriving DecidableEq, Repr

namespace Observers

def ready (callee : Specimen Observers) (choice : SinkChoice) : Observers :=
  let table : SymbolTable :=
    match choice with
    | .profiler symbol =>
        SymbolTable.assign [] callee.callee.address (symbol.getD ("@" ++ callee.name))
    | _ => []
  ⟨[], .new (.symbols table) (.new true)⟩

def sink? : SinkChoice → Option (Sink Observers)
  | .none => Option.none
  | .silent => some (Sink.silent .all)
  | .recorder mask => some ((Sink.recorder mask).within events fun events o => { o with events })
  | .profiler _ =>
      some ((Profiler.sink LabelSource.labeller).within profiler
        fun profiler o => { o with profiler })

end Observers

structure Observed where
  events : Option (List String)
  depth : Option Nat
  deriving DecidableEq, Repr

def Observers.observed (o : Observers) : SinkChoice → Observed
  | .none | .silent => ⟨Option.none, Option.none⟩
  | .recorder _ => ⟨some (o.events.map Event.text), Option.none⟩
  | .profiler _ => ⟨some (o.profiler.client.log.map Entry.text), some o.profiler.depth⟩

inductive Step where
  | warm (sig : SignatureSource)
  | trampolineOf (sig : SignatureSource)
  | lookup (sig : SignatureSource) (registers : Option Registers)
  | find (sig : SignatureSource) (registers : Option Registers)
  | lookupTogether (sig : SignatureSource) (threads : Nat)
  | dispatch (callee : Specimen Observers) (args : List Value) (sig : Option SignatureSource)
      (sink : SinkChoice)
  | invoke (callee : Specimen Observers) (trampoline : Nat) (args : List Value)
      (sig : Option SignatureSource)
  | inspect (trampoline : Option Nat)
  | reset (limits : Limits)

inductive Reply where
  | warmed (outcome : Outcome)
  | trampoline (number : Nat) (shape : Shape)
  | lookedUp (number : Nat) (outcome : Outcome) (shape : Shape) (sameShape : Bool)
  | found (number : Option Nat)
  | together (built : Nat) (same : Bool) (number : Option Nat)
  | returned (v : Value) (observed : Observed)
  | rejected (e : Rejection) (observed : Observed)
  | invoked (v : Value)
  | inspected (dispatcher : String) (trampoline : Option String)
  | replaced (limits : Limits)
  | unreadable (e : Signature.Defect)
  | mismatch (e : Frame.Mismatch)
  | failed (e : Rejection)
  | wordCount (e : WordCountMismatch)
  | noTrampoline
  | refused
  deriving DecidableEq, Repr

end Session

structure Session where
  dispatcher : Dispatcher
  era : Nat
  numbered : List (Nat × Trampoline)
  world : World

namespace Session

def start (limits : Limits) : Session :=
  ⟨.new limits .reliable, 0, [], .initial⟩

def number (s : Session) (t : Trampoline) : Nat × Session :=
  match s.numbered.idxOf? (s.era, t) with
  | some n => (n, s)
  | none => (s.numbered.length, { s with numbered := s.numbered ++ [(s.era, t)] })

def trampoline? (s : Session) (n : Nat) : Option Trampoline :=
  (s.numbered[n]?).map (·.2)

def inContext (s : Session) (observers : Observers) : State World Observers :=
  ⟨s.dispatcher, s.world, observers⟩

def after (s : Session) (state : State World Observers) : Session :=
  { s with dispatcher := state.dispatcher, world := state.world }

def accepts (s : Session) (sig : Signature) (args : List Value) : Bool :=
  match sig.plan s.dispatcher.limits with
  | .error _ => false
  | .ok plan => (Frame.ofArgs plan.layout args).isOk

def dispatch (s : Session) (callee : Specimen Observers) (args : List Value) (choice : SinkChoice)
    (sig : Signature) : Reply × Session :=
  if sig ≠ callee.signature ∧ s.accepts sig args then
    (.refused, s)
  else
    let (result, state) :=
      (s.inContext (.ready callee choice)).dispatchObserved callee.callee sig args
        (Observers.sink? choice)
    let observed := state.sinks.observed choice
    match result with
    | .ok v => (.returned v observed, s.after state)
    | .error e => (.rejected e observed, s.after state)

def ownShape (sig : Signature) (shape : Shape) : Bool :=
  [some Registers.host, none].any fun registers =>
    match sig.planFor ⟨sig.arity⟩ registers with
    | .ok plan => plan.shape == shape
    | .error _ => false

def invoke (s : Session) (callee : Specimen Observers) (n : Nat) (args : List Value)
    (sig : Signature) : Reply × Session :=
  match s.trampoline? n with
  | none => (.noTrampoline, s)
  | some t =>
      match sig.plan ⟨sig.arity⟩ with
      | .error e => (.unreadable e, s)
      | .ok plan =>
          match Frame.ofArgs plan.layout args with
          | .error e => (.mismatch e, s)
          | .ok frame =>
              let fits := frame.ints.length = t.shape.ints ∧ frame.floats.length = t.shape.floats
              if fits ∧ ¬(sig = callee.signature ∧ ownShape callee.signature t.shape) then
                (.refused, s)
              else
                match (s.inContext (.ready callee .none)).invoke t callee.callee frame with
                | (.ok word, state) => (.invoked (Value.ofWord sig.ret word), s.after state)
                | (.error e, state) => (.wordCount e, s.after state)

def lookupTogether (s : Session) (sig : Signature) (threads : Nat) : Reply × Session :=
  match sig.plan s.dispatcher.limits with
  | .error e => (.failed (.signature e), s)
  | .ok plan =>
      let (results, cache) := Threads.lookupTogether s.dispatcher.cache plan.shape threads
      let s := { s with dispatcher := { s.dispatcher with cache } }
      match results.mapM id with
      | .error e => (.failed (.build e), s)
      | .ok found =>
          let built := found.countP fun result => result.2 == .built
          match found with
          | [] => (.together built true none, s)
          | (t, _) :: _ =>
              let (n, s) := s.number t
              (.together built (found.all fun result => result.1 == t) (some n), s)

def shape (s : Session) (sig : Signature) (registers : Option Registers) :
    Except Signature.Defect Shape :=
  (sig.planFor s.dispatcher.limits registers).map Plan.shape

def lookup (s : Session) (registers : Option Registers) (sig : Signature) : Reply × Session :=
  match s.shape sig registers with
  | .error e => (.unreadable e, s)
  | .ok shape =>
      match s.dispatcher.lookup shape with
      | (.error e, dispatcher) => (.failed (.build e), { s with dispatcher })
      | (.ok (t, outcome), dispatcher) =>
          let (n, s) := { s with dispatcher }.number t
          (.lookedUp n outcome shape (t.shape == shape), s)

def find (s : Session) (registers : Option Registers) (sig : Signature) : Reply × Session :=
  match s.shape sig registers with
  | .error e => (.unreadable e, s)
  | .ok shape =>
      match s.dispatcher.cache.find? shape with
      | none => (.found none, s)
      | some t =>
          let (n, s) := s.number t
          (.found (some n), s)

def warm (s : Session) (sig : Signature) : Reply × Session :=
  match s.dispatcher.warm sig with
  | (.error e, dispatcher) => (.failed e, { s with dispatcher })
  | (.ok outcome, dispatcher) => (.warmed outcome, { s with dispatcher })

def trampolineOf (s : Session) (sig : Signature) : Reply × Session :=
  match s.dispatcher.trampolineOf sig with
  | (.error e, dispatcher) => (.failed e, { s with dispatcher })
  | (.ok t, dispatcher) =>
      let (n, s) := { s with dispatcher }.number t
      (.trampoline n t.shape, s)

def withSignature (s : Session) (source : SignatureSource)
    (next : Signature → Reply × Session) : Reply × Session :=
  match source.read with
  | .error e => (.unreadable e, s)
  | .ok sig => next sig

def withSignatureOf (s : Session) (callee : Specimen Observers) (source : Option SignatureSource)
    (next : Signature → Reply × Session) : Reply × Session :=
  match source with
  | none => next callee.signature
  | some source => s.withSignature source next

def step (s : Session) (action : Step) : Reply × Session :=
  let s := { s with world := { s.world with seen := [] } }
  match action with
  | .warm source => s.withSignature source s.warm
  | .trampolineOf source => s.withSignature source s.trampolineOf
  | .lookup source registers => s.withSignature source (s.lookup registers)
  | .find source registers => s.withSignature source (s.find registers)
  | .lookupTogether source threads =>
      match source.read with
      | .error e => (.failed (.signature e), s)
      | .ok sig => s.lookupTogether sig threads
  | .dispatch callee args source choice =>
      s.withSignatureOf callee source (s.dispatch callee args choice)
  | .invoke callee n args source => s.withSignatureOf callee source (s.invoke callee n args)
  | .inspect n =>
      (.inspected (Inspect.dispatcher s.dispatcher)
        ((n.bind s.trampoline?).map Inspect.trampoline), s)
  | .reset limits =>
      (.replaced limits, { s with dispatcher := .new limits .reliable, era := s.era + 1 })

end Session

end ForeignCall
