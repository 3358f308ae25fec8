import ForeignCall.Address
import ForeignCall.Shape
import ForeignCall.Signature.Text

namespace ForeignCall.Profile

def addressLabel (callee : Address) (sig : Signature) : String :=
  "native:" ++ callee.text ++ " " ++ sig.text

def shapeLabel (shape : Shape) : String :=
  "trampoline built: " ++ shape.text

structure Labeller (ρ : Type) where
  call : Address → Signature → ρ → Option String × ρ
  build : Shape → ρ → Option String × ρ

namespace Labeller

variable {ρ : Type}

def plain : Labeller ρ where
  call _ _ memory := (none, memory)
  build _ memory := (none, memory)

def parity : Labeller ρ where
  call callee sig memory :=
    (if callee.word % 2 = 0 then some ("custom/" ++ toString sig.arity) else none, memory)
  build shape memory :=
    (if shape.ints > 0 then some ("custom shape " ++ shape.text) else none, memory)

end Labeller

structure Symbol where
  name : String
  last : Option (Signature × String)
  deriving DecidableEq, Repr

namespace Symbol

def format (name : String) (sig : Signature) : String :=
  "native:" ++ name ++ " " ++ sig.text

def renew (symbol : Symbol) (sig : Signature) : String × Symbol :=
  let label := format symbol.name sig
  (label, { symbol with last := some (sig, label) })

def label (symbol : Symbol) (sig : Signature) : String × Symbol :=
  match symbol.last with
  | some (last, label) => if last = sig then (label, symbol) else symbol.renew sig
  | none => symbol.renew sig

end Symbol

abbrev SymbolTable := List (Address × Symbol)

namespace SymbolTable

def find? (table : SymbolTable) (callee : Address) : Option Symbol :=
  table.lookup callee

def set (callee : Address) (symbol : Symbol) : SymbolTable → SymbolTable
  | [] => [(callee, symbol)]
  | entry :: table =>
      if entry.1 = callee then (callee, symbol) :: table else entry :: set callee symbol table

theorem find?_set (table : SymbolTable) (callee other : Address) (symbol : Symbol) :
    find? (set callee symbol table) other =
      if other = callee then some symbol else find? table other := by
  induction table with
  | nil =>
      by_cases h : other = callee
      · simp [set, find?, h]
      · simp [set, find?, List.lookup_cons, beq_eq_false_iff_ne.2 h, h]
  | cons entry table ih =>
      obtain ⟨address, old⟩ := entry
      simp only [find?] at ih
      by_cases ha : address = callee
      · subst ha
        by_cases h : other = address
        · simp [set, find?, h]
        · simp [set, find?, List.lookup_cons, beq_eq_false_iff_ne.2 h, h]
      · by_cases h : other = address
        · subst h
          simp [set, find?, ha]
        · simp [set, find?, List.lookup_cons, beq_eq_false_iff_ne.2 h, ha, ih]

def assign (table : SymbolTable) (callee : Address) (name : String) : SymbolTable :=
  table.set callee ⟨name, none⟩

def call (table : SymbolTable) (callee : Address) (sig : Signature) :
    Option String × SymbolTable :=
  match table.find? callee with
  | none => (none, table)
  | some symbol =>
      let (label, symbol) := symbol.label sig
      (some label, table.set callee symbol)

def labeller : Labeller SymbolTable where
  call callee sig table := table.call callee sig
  build _ table := (none, table)

end SymbolTable

inductive LabelSource where
  | plain
  | symbols (table : SymbolTable)
  | parity
  deriving DecidableEq, Repr

namespace LabelSource

def assign (source : LabelSource) (callee : Address) (name : String) : LabelSource :=
  match source with
  | .symbols table => .symbols (table.assign callee name)
  | .plain => .plain
  | .parity => .parity

def labeller : Labeller LabelSource where
  call callee sig source :=
    match source with
    | .plain => Labeller.plain.call callee sig source
    | .parity => Labeller.parity.call callee sig source
    | .symbols table =>
        let (label, table) := SymbolTable.labeller.call callee sig table
        (label, .symbols table)
  build shape source :=
    match source with
    | .plain => Labeller.plain.build shape source
    | .parity => Labeller.parity.build shape source
    | .symbols table =>
        let (label, table) := SymbolTable.labeller.build shape table
        (label, .symbols table)

end LabelSource

end ForeignCall.Profile
