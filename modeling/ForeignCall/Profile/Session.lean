import ForeignCall.Session

namespace ForeignCall.Profile.Session

inductive Step where
  | client (running : Bool)
  | assign (callee : UInt64) (name : String)
  | enter (callee : UInt64) (sig : SignatureSource)
  | exit (callee : UInt64) (sig : SignatureSource)
  | label (callee : UInt64) (sig : SignatureSource)
  | build (sig : SignatureSource) (outcome : Outcome) (registers : Option Registers)
  deriving DecidableEq, Repr

inductive Reply where
  | done
  | label (text : Option String)
  | nullAddress
  | unreadable (e : Signature.Defect)
  deriving DecidableEq, Repr

abbrev State := Profiler LabelSource

def withCall (p : State) (callee : UInt64) (source : SignatureSource)
    (next : Address → Signature → Reply × State) : Reply × State :=
  match Address.ofWord? callee with
  | none => (.nullAddress, p)
  | some address =>
      match source.read with
      | .error e => (.unreadable e, p)
      | .ok sig => next address sig

def ask (p : State) (label : LabelSource → Option String × LabelSource) : Reply × State :=
  let (text, labels) := label p.labels
  (.label text, { p with labels })

def step (p : State) : Step → Reply × State
  | .client running => (.done, { p with client := { p.client with running } })
  | .assign callee name =>
      match Address.ofWord? callee with
      | none => (.nullAddress, p)
      | some address => (.done, { p with labels := p.labels.assign address name })
  | .enter callee source =>
      withCall p callee source fun address sig =>
        (.done, p.receive LabelSource.labeller (.enter address sig))
  | .exit callee source =>
      withCall p callee source fun address sig =>
        (.done, p.receive LabelSource.labeller (.exit address sig))
  | .label callee source =>
      withCall p callee source fun address sig => ask p (LabelSource.labeller.call address sig)
  | .build source outcome registers =>
      match source.read with
      | .error e => (.unreadable e, p)
      | .ok sig =>
          match sig.planFor .standard registers with
          | .error e => (.unreadable e, p)
          | .ok plan =>
              ask (p.receive LabelSource.labeller (.lookup plan.shape outcome))
                (LabelSource.labeller.build plan.shape)

end ForeignCall.Profile.Session
