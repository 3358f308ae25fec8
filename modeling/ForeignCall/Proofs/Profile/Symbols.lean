import ForeignCall.Profile.Label
import Mathlib.Data.List.Induction
import Mathlib.Data.List.Nodup

namespace ForeignCall.Profile

namespace Symbol

variable {symbol : Symbol}

def Current (symbol : Symbol) : Prop :=
  ∀ sig label, symbol.last = some (sig, label) → label = format symbol.name sig

theorem current_named (name : String) : Current ⟨name, none⟩ :=
  nofun

theorem current_renew (symbol : Symbol) (sig : Signature) : (symbol.renew sig).2.Current := by
  rintro _ _ ⟨⟩
  rfl

theorem Current.label_eq (h : symbol.Current) (sig : Signature) :
    symbol.label sig = symbol.renew sig := by
  obtain ⟨name, last⟩ := symbol
  cases last with
  | none => rfl
  | some remembered =>
      obtain ⟨other, label⟩ := remembered
      obtain rfl : label = format name other := h other label rfl
      by_cases hsig : other = sig
      · subst hsig
        exact if_pos rfl
      · exact if_neg hsig

end Symbol

namespace SymbolTable

inductive Operation where
  | assign (callee : Address) (name : String)
  | call (callee : Address) (sig : Signature)
  deriving DecidableEq, Repr

def perform (table : SymbolTable) : Operation → SymbolTable
  | .assign callee name => table.assign callee name
  | .call callee sig => (table.call callee sig).2

def performAll (table : SymbolTable) (operations : List Operation) : SymbolTable :=
  operations.foldl perform table

section Names

def Operation.name? (callee : Address) : Operation → Option String
  | .assign other name => if callee = other then some name else none
  | .call _ _ => none

def names (operations : List Operation) (callee : Address) : List String :=
  operations.filterMap (Operation.name? callee)

variable {operations : List Operation}

theorem names_concat (operations : List Operation) (operation : Operation) (callee : Address) :
    names (operations ++ [operation]) callee =
      names operations callee ++ (operation.name? callee).toList := by
  rw [names, names, List.filterMap_append, List.filterMap_cons]
  cases operation.name? callee <;> rfl

theorem names_call (operations : List Operation) (callee other : Address) (sig : Signature) :
    names (operations ++ [.call callee sig]) other = names operations other :=
  (names_concat ..).trans (List.append_nil _)

theorem getLast?_names_assign (operations : List Operation) (callee other : Address)
    (name : String) : (names (operations ++ [.assign callee name]) other).getLast? =
      if other = callee then some name else (names operations other).getLast? := by
  rw [names_concat, Operation.name?]
  split
  · exact List.getLast?_concat
  · rw [Option.toList_none, List.append_nil]

theorem names_eq_nil_iff {callee : Address} :
    names operations callee = [] ↔ ∀ name, .assign callee name ∉ operations := by
  rw [names, List.filterMap_eq_nil_iff]
  constructor
  · intro h name hmem
    have hnone := h _ hmem
    rw [Operation.name?, if_pos rfl] at hnone
    cases hnone
  · intro h operation hmem
    cases operation with
    | assign other name =>
        refine if_neg ?_
        rintro rfl
        exact h name hmem
    | call other sig => rfl

end Names

section Callees

def callees (table : SymbolTable) : List Address :=
  table.map Prod.fst

variable {table : SymbolTable} {callee : Address}

theorem find?_eq_none_iff : table.find? callee = none ↔ callee ∉ table.callees := by
  rw [find?, List.lookup_eq_none_iff, callees, List.mem_map]
  constructor
  · rintro h ⟨entry, hmem, rfl⟩
    exact bne_iff_ne.1 (h entry hmem) rfl
  · intro h entry hmem
    exact bne_iff_ne.2 fun heq => h ⟨entry, hmem, heq.symm⟩

theorem callees_set (table : SymbolTable) (callee : Address) (symbol : Symbol) :
    callees (table.set callee symbol) =
      if callee ∈ table.callees then table.callees else table.callees ++ [callee] := by
  induction table with
  | nil => rfl
  | cons entry table ih =>
      obtain ⟨other, old⟩ := entry
      by_cases hother : other = callee
      · subst hother
        simp [set, callees]
      · have hmem : callee ∈ callees ((other, old) :: table) ↔ callee ∈ callees table := by
          simp [callees, Ne.symm hother]
        simp only [hmem]
        rw [set, if_neg hother]
        change other :: callees (set callee symbol table) = _
        rw [ih, apply_ite (other :: ·)]
        rfl

theorem nodup_callees_set (symbol : Symbol) (h : table.callees.Nodup) :
    (callees (table.set callee symbol)).Nodup := by
  rw [callees_set]
  split
  · exact h
  · next hmem =>
      rw [← List.concat_eq_append]
      exact h.concat hmem

end Callees

section Call

variable {table : SymbolTable} {callee : Address} {symbol : Symbol}

theorem call_of_absent (h : table.find? callee = none) (sig : Signature) :
    table.call callee sig = (none, table) := by
  rw [call, h]

theorem call_of_find? (h : table.find? callee = some symbol) (hcurrent : symbol.Current)
    (sig : Signature) : table.call callee sig =
      (some (Symbol.format symbol.name sig), table.set callee (symbol.renew sig).2) := by
  simp only [call, h, hcurrent.label_eq sig]
  rfl

theorem callees_call (table : SymbolTable) (callee : Address) (sig : Signature) :
    (table.call callee sig).2.callees = table.callees := by
  rw [call]
  split
  · rfl
  · next symbol hfind =>
      have hmem : callee ∈ table.callees := by
        by_contra hmem
        rw [find?_eq_none_iff.2 hmem] at hfind
        cases hfind
      exact (callees_set ..).trans (if_pos hmem)

end Call

structure Faithful (operations : List Operation) (table : SymbolTable) : Prop where
  named : ∀ callee, (table.find? callee).map Symbol.name = (names operations callee).getLast?
  current : ∀ callee symbol, table.find? callee = some symbol → symbol.Current
  nodup : table.callees.Nodup

section Faithful

variable {operations : List Operation} {table : SymbolTable} {callee : Address}

theorem faithful_nil : Faithful [] [] where
  named _ := rfl
  current := nofun
  nodup := .nil

theorem Faithful.set (h : Faithful operations table) {operation : Operation} {symbol : Symbol}
    (hcurrent : symbol.Current)
    (hnames : ∀ other, (names (operations ++ [operation]) other).getLast? =
      if other = callee then some symbol.name else (names operations other).getLast?) :
    Faithful (operations ++ [operation]) (table.set callee symbol) where
  named other := by
    rw [hnames, find?_set]
    split
    · rfl
    · exact h.named other
  current other found := by
    rw [find?_set]
    split
    · rintro ⟨⟩
      exact hcurrent
    · exact h.current other found
  nodup := nodup_callees_set symbol h.nodup

theorem Faithful.call_eq (h : Faithful operations table) (callee : Address) (sig : Signature) :
    (table.call callee sig).1 =
      (names operations callee).getLast?.map fun name => Symbol.format name sig := by
  rw [← h.named]
  cases hfind : table.find? callee with
  | none => rw [call_of_absent hfind, Option.map_none, Option.map_none]
  | some symbol =>
      rw [call_of_find? hfind (h.current callee symbol hfind), Option.map_some, Option.map_some]

theorem Faithful.perform (h : Faithful operations table) (operation : Operation) :
    Faithful (operations ++ [operation]) (table.perform operation) := by
  cases operation with
  | assign callee name =>
      exact h.set (Symbol.current_named name) fun other => getLast?_names_assign ..
  | call callee sig =>
      rw [SymbolTable.perform]
      cases hfind : table.find? callee with
      | none =>
          rw [call_of_absent hfind]
          refine ⟨fun other => ?_, h.current, h.nodup⟩
          rw [names_call]
          exact h.named other
      | some symbol =>
          rw [call_of_find? hfind (h.current callee symbol hfind)]
          refine h.set (Symbol.current_renew symbol sig) fun other => ?_
          rw [names_call]
          split
          · next heq =>
              rw [heq, ← h.named, hfind]
              rfl
          · rfl

theorem Faithful.mem_callees_iff (h : Faithful operations table) :
    callee ∈ table.callees ↔ ∃ name, .assign callee name ∈ operations := by
  rw [← not_iff_not, ← find?_eq_none_iff, ← Option.map_eq_none_iff (f := Symbol.name), h.named,
    List.getLast?_eq_none_iff, names_eq_nil_iff, not_exists]

theorem faithful_performAll (operations : List Operation) :
    Faithful operations (performAll [] operations) := by
  induction operations using List.reverseRecOn with
  | nil => exact faithful_nil
  | append_singleton operations operation ih =>
      rw [performAll, List.foldl_concat]
      exact ih.perform operation

end Faithful

theorem label_made_afresh (operations : List Operation) (callee : Address) (sig : Signature) :
    let table := performAll [] operations
    (table.call callee sig).1 =
      (names operations callee).getLast?.map
        (fun name => "native:" ++ name ++ " " ++ sig.text) ∧
    table.callees.Nodup ∧
    (∀ other, other ∈ table.callees ↔ ∃ name, .assign other name ∈ operations) ∧
    (table.call callee sig).2.callees = table.callees := by
  intro table
  have h : Faithful operations table := faithful_performAll operations
  exact ⟨h.call_eq callee sig, h.nodup, fun _ => h.mem_callees_iff, callees_call table callee sig⟩

example :
    let sig : Signature := ⟨[.u8], .void, by decide⟩
    let callee : Address := ⟨16, by decide⟩
    let operations : List Operation :=
      [.assign callee "old", .call callee sig, .assign callee "new"]
    ((performAll [] operations).call callee sig).1 = some "native:new (u8) -> void" := by
  decide

end SymbolTable

end ForeignCall.Profile
