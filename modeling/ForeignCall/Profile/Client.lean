namespace ForeignCall.Profile

inductive Entry where
  | began (span : Nat) (label : String)
  | ended (span : Nat) (label : String)
  | message (text : String)
  deriving DecidableEq, Repr

def Entry.text : Entry → String
  | .began _ label => "begin " ++ label ++ " | native_dispatch.call native_dispatch 0 0"
  | .ended _ label => "end " ++ label
  | .message text => "message " ++ text ++ " | 0"

structure Client where
  running : Bool
  spans : Nat
  log : List Entry
  deriving DecidableEq, Repr

namespace Client

def new (running : Bool) : Client :=
  ⟨running, 0, []⟩

def record (client : Client) (entry : Entry) : Client :=
  { client with log := client.log ++ [entry] }

def beginSpan (client : Client) (label : String) : Option Nat × Client :=
  if client.running then
    (some client.spans, { client.record (.began client.spans label) with spans := client.spans + 1 })
  else
    (none, client)

def endSpan (client : Client) (span : Option Nat) (label : String) : Client :=
  match span with
  | some number => client.record (.ended number label)
  | none => client

def since (after before : Client) : List Entry :=
  after.log.drop before.log.length

end Client

end ForeignCall.Profile
