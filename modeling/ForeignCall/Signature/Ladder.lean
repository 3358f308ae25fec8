import ForeignCall.Signature

namespace ForeignCall.Signature

def rung (ints : Nat) : Except Defect Signature :=
  ofTypes (List.replicate ints .u64 ++ [.f64]) .f64

def ladder (count : Nat) : Except Defect (List Signature) :=
  (List.range count).mapM rung

end ForeignCall.Signature
