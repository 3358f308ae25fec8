import ForeignCall.Layout
import ForeignCall.Value.Word

namespace ForeignCall

inductive Location where
  | intRegister (n : Nat)
  | floatRegister (n : Nat)
  | stackSlot (n : Nat)
  deriving DecidableEq, Repr

structure Occupancy where
  ints : Nat
  floats : Nat
  stack : Nat
  deriving DecidableEq, Repr

namespace Occupancy

def empty : Occupancy := ⟨0, 0, 0⟩

def next (taken : Occupancy) (registers : Registers) (c : ArgClass) : Location :=
  if c.isFloat then
    if taken.floats < registers.floats then .floatRegister taken.floats
    else .stackSlot taken.stack
  else
    if taken.ints < registers.ints then .intRegister taken.ints
    else .stackSlot taken.stack

def add (taken : Occupancy) (registers : Registers) (c : ArgClass) : Occupancy :=
  if c.isFloat then
    if taken.floats < registers.floats then { taken with floats := taken.floats + 1 }
    else { taken with stack := taken.stack + 1 }
  else
    if taken.ints < registers.ints then { taken with ints := taken.ints + 1 }
    else { taken with stack := taken.stack + 1 }

end Occupancy

namespace Registers

def placeAfter (registers : Registers) (taken : Occupancy) : List ArgClass → List Location
  | [] => []
  | c :: cs => taken.next registers c :: registers.placeAfter (taken.add registers c) cs

def place (registers : Registers) (classes : List ArgClass) : List Location :=
  registers.placeAfter .empty classes

@[simp]
theorem length_placeAfter (registers : Registers) (taken : Occupancy) (classes : List ArgClass) :
    (registers.placeAfter taken classes).length = classes.length := by
  induction classes generalizing taken with
  | nil => rfl
  | cons c cs ih => simp [placeAfter, ih]

end Registers

abbrev Passed := List (Location × UInt64)

def Passed.read (passed : Passed) (location : Location) : UInt64 :=
  (passed.lookup location).getD 0

def Signature.receive (sig : Signature) (registers : Registers) (passed : Passed) : List Value :=
  List.zipWith (fun type location => Value.ofWord type (passed.read location))
    sig.args (registers.place sig.classes)

-- The word that a caller finds when it takes a result of one class from a callee that returned one
-- of another: nothing is taken for void, and the register of the other family holds zero.
def ResultClass.take (declared actual : ResultClass) (word : UInt64) : UInt64 :=
  match declared with
  | .void => 0
  | .int | .float => if declared = actual then word else 0

end ForeignCall
