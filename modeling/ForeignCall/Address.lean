namespace ForeignCall

structure Address where
  word : UInt64
  ne_zero : word ≠ 0
  deriving DecidableEq, Repr

namespace Address

def ofWord? (word : UInt64) : Option Address :=
  if h : word ≠ 0 then some ⟨word, h⟩ else none

theorem ofWord?_word (a : Address) : ofWord? a.word = some a := by
  simp [ofWord?, a.ne_zero]

def text (a : Address) : String :=
  "0x" ++ String.ofList (Nat.toDigits 16 a.word.toNat)

end Address

end ForeignCall
