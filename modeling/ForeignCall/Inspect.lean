import ForeignCall.Dispatcher
import ForeignCall.Profile.Profiler

namespace ForeignCall.Inspect

def record (name : String) (fields : List (String × String)) (more : Bool) : String :=
  let parts := fields.map fun (field, text) => field ++ ": " ++ text
  name ++ " \x7b " ++ ", ".intercalate (if more then parts ++ [".."] else parts) ++ " \x7d"

def limits (l : Limits) : String :=
  record "Limits" [("max_arity", toString l.maxArity)] false

def counters (c : Counters) : String :=
  record "CacheStats"
    [("shapes", toString c.shapes), ("builds", toString c.builds), ("hits", toString c.hits)] false

def dispatcher (d : Dispatcher) : String :=
  record "Dispatcher"
    [("limits", limits d.limits),
      ("cache", record "TrampolineCache" [("stats", counters d.cache.counters)] true)] false

def argClass : ArgClass → String
  | .int => "Int"
  | .f32 => "F32"
  | .f64 => "F64"

def resultClass : ResultClass → String
  | .void => "Void"
  | .int => "Int"
  | .float => "Float"

def order : Option (List ArgClass) → String
  | none => "None"
  | some classes => "Some([" ++ ", ".intercalate (classes.map argClass) ++ "])"

def shape (s : Shape) : String :=
  record "ShapeKey"
    [("int_slots", toString s.ints), ("float_slots", toString s.floats),
      ("ret", resultClass s.ret), ("ordered", order s.params.order?)] false

def trampoline (t : Trampoline) : String :=
  record "Trampoline" [("key", shape t.shape), ("entry", "0x")] true

def profiler {ρ : Type} (p : Profile.Profiler ρ) : String :=
  record "ProfilingDispatchSink" [("stack_depth", toString p.depth)] true

end ForeignCall.Inspect
