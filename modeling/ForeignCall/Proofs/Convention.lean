import ForeignCall.Proofs.Trampoline
import Mathlib.Data.List.Nodup

namespace ForeignCall

namespace ArgClass

def register (c : ArgClass) (n : Nat) : Location :=
  if c.isFloat then .floatRegister n else .intRegister n

theorem register_congr {c d : ArgClass} (h : d.isFloat = c.isFloat) (n : Nat) :
    d.register n = c.register n := by
  simp [register, h]

theorem Carries.of_family {c d : ArgClass} {word held : UInt64} (h : d.Carries word held)
    (hd : d ≠ .f32) : c.Carries word held := by
  have heq : held = word := by
    cases d with
    | int => exact h
    | f32 => exact absurd rfl hd
    | f64 => exact h
  subst heq
  cases c <;> rfl

end ArgClass

namespace Occupancy

def Covers (taken : Occupancy) : Location → Prop
  | .intRegister n => n < taken.ints
  | .floatRegister n => n < taken.floats
  | .stackSlot n => n < taken.stack

theorem not_covers_next (taken : Occupancy) (registers : Registers) (c : ArgClass) :
    ¬taken.Covers (taken.next registers c) := by
  unfold next
  split <;> split <;> exact Nat.lt_irrefl _

theorem covers_add_next (taken : Occupancy) (registers : Registers) (c : ArgClass) :
    (taken.add registers c).Covers (taken.next registers c) := by
  unfold next add
  split <;> split <;> exact Nat.lt_succ_self _

theorem covers_add {taken : Occupancy} {location : Location} (registers : Registers) (c : ArgClass)
    (h : taken.Covers location) : (taken.add registers c).Covers location := by
  unfold add
  cases location <;> simp only [Covers] at h ⊢ <;> split <;> split <;> simp only <;> omega

end Occupancy

namespace Registers

theorem not_covers_of_mem_placeAfter {registers : Registers} {taken : Occupancy}
    {classes : List ArgClass} {location : Location}
    (h : location ∈ registers.placeAfter taken classes) : ¬taken.Covers location := by
  induction classes generalizing taken with
  | nil => simp [placeAfter] at h
  | cons c cs ih =>
      simp only [placeAfter, List.mem_cons] at h
      rcases h with rfl | h
      · exact taken.not_covers_next registers c
      · intro hcovers
        exact ih h (Occupancy.covers_add registers c hcovers)

theorem nodup_placeAfter (registers : Registers) (taken : Occupancy) (classes : List ArgClass) :
    (registers.placeAfter taken classes).Nodup := by
  induction classes generalizing taken with
  | nil => exact List.nodup_nil
  | cons c cs ih =>
      refine List.nodup_cons.2 ⟨?_, ih _⟩
      intro h
      exact not_covers_of_mem_placeAfter h (taken.covers_add_next registers c)

theorem nodup_place (registers : Registers) (classes : List ArgClass) :
    (registers.place classes).Nodup :=
  registers.nodup_placeAfter .empty classes

theorem placeAfter_of_hold {registers : Registers} {classes : List ArgClass} (taken : Tally)
    (stack : Nat)
    (h : registers.hold (taken.after classes).ints (taken.after classes).floats = true) :
    registers.placeAfter ⟨taken.ints, taken.floats, stack⟩ classes =
      (taken.number classes).map fun place => place.1.register place.2 := by
  induction classes generalizing taken with
  | nil => rfl
  | cons c cs ih =>
      have hrest := ih (taken.add c) h
      have hroom := Tally.next_le_after (taken.add c) cs c
      obtain ⟨hints, hfloats⟩ := Registers.hold_iff.1 h
      change ((taken.add c).after cs).ints ≤ registers.ints at hints
      change ((taken.add c).after cs).floats ≤ registers.floats at hfloats
      rw [Tally.next_add_self taken rfl] at hroom
      simp only [placeAfter, Tally.number, List.map_cons, List.cons.injEq]
      cases c with
      | int =>
          have hlt : taken.ints < registers.ints := Nat.lt_of_lt_of_le hroom hints
          simp only [Occupancy.next, Occupancy.add, ArgClass.isFloat, hlt, if_true]
          exact ⟨rfl, hrest⟩
      | f32 | f64 =>
          have hlt : taken.floats < registers.floats := Nat.lt_of_lt_of_le hroom hfloats
          simp only [Occupancy.next, Occupancy.add, ArgClass.isFloat, hlt, if_true]
          exact ⟨rfl, hrest⟩

theorem place_of_hold {registers : Registers} {classes : List ArgClass}
    (h : registers.hold (classes.countP fun c => !c.isFloat) (classes.countP ArgClass.isFloat) =
      true) :
    registers.place classes =
      (Tally.empty.number classes).map fun place => place.1.register place.2 := by
  apply placeAfter_of_hold Tally.empty
  rw [Tally.after_empty]
  exact h

end Registers

theorem Passed.lookup_zip {locations : List Location} {words : List UInt64} {i : Nat}
    {location : Location} {word : UInt64} (hnodup : locations.Nodup)
    (hlocation : locations[i]? = some location) (hword : words[i]? = some word) :
    (locations.zip words).lookup location = some word := by
  induction locations generalizing words i with
  | nil => simp at hlocation
  | cons first rest ih =>
      obtain ⟨hfirst, hrest⟩ := List.nodup_cons.1 hnodup
      cases words with
      | nil => simp at hword
      | cons w ws =>
          cases i with
          | zero =>
              simp only [List.getElem?_cons_zero, Option.some.injEq] at hlocation hword
              simp [hlocation, hword]
          | succ i =>
              simp only [List.getElem?_cons_succ] at hlocation hword
              have hne : location ≠ first := by
                rintro rfl
                exact hfirst (List.mem_of_getElem? hlocation)
              simp only [List.zip_cons_cons, List.lookup_cons, beq_eq_false_iff_ne.2 hne]
              exact ih hrest hlocation hword

namespace Registers

def Passes (registers : Registers) (frame : Frame) (declared : List ArgClass) (held : List UInt64)
    (classes : List ArgClass) (i : Nat) (place : ArgClass × Nat) : Prop :=
  ∃ location word read, (registers.place classes)[i]? = some location ∧
    frame.word? place = some word ∧
    ((registers.place declared).zip held).lookup location = some read ∧
    place.1.Carries word read

variable {registers : Registers} {frame : Frame} {classes : List ArgClass} {held : List UInt64}
  {i : Nat} {place : ArgClass × Nat}

theorem passes_same (hheld : frame.Held classes held)
    (hi : (Tally.empty.number classes)[i]? = some place) :
    registers.Passes frame classes held classes i place := by
  obtain ⟨word, read, hword, hread, hcarries⟩ := hheld.exists_getElem? hi
  have hlt : i < (registers.place classes).length := by
    have h := (List.getElem?_eq_some_iff.1 hi).1
    rw [Tally.length_number] at h
    rwa [Registers.place, length_placeAfter]
  have hlocation := List.getElem?_eq_getElem hlt
  exact ⟨_, word, read, hlocation, hword,
    Passed.lookup_zip (registers.nodup_place classes) hlocation hread, hcarries⟩

-- In registers the declared order is not the real one, but a word's number fixes its register.
theorem passes_counted {params : Params}
    (hparams : params = .counted (classes.countP fun c => !c.isFloat)
      (classes.countP ArgClass.isFloat))
    (hhold : registers.hold params.ints params.floats = true)
    (hheld : frame.Held params.declared held)
    (hi : (Tally.empty.number classes)[i]? = some place) :
    registers.Passes frame params.declared held classes i place := by
  obtain ⟨c, n⟩ := place
  have hclasses : registers.place classes =
      (Tally.empty.number classes).map fun place => place.1.register place.2 :=
    place_of_hold (by rw [hparams] at hhold; exact hhold)
  have hdeclared : registers.place params.declared =
      (Tally.empty.number params.declared).map fun place => place.1.register place.2 := by
    apply place_of_hold
    rwa [Params.countP_not_isFloat_declared, Params.countP_isFloat_declared]
  obtain ⟨d, hwide, hfamily, hmem⟩ := Params.exists_declared hparams (List.mem_of_getElem? hi)
  obtain ⟨j, hj⟩ := List.getElem?_of_mem hmem
  obtain ⟨location, word, read, hlocation, hword, hread, hcarries⟩ :=
    passes_same hheld hj
  have hregister : location = c.register n := by
    rw [hdeclared, List.getElem?_map, hj, Option.map_some, Option.some.injEq] at hlocation
    rw [← hlocation, ArgClass.register_congr hfamily]
  refine ⟨location, word, read, ?_, ?_, hread, hcarries.of_family hwide⟩
  · rw [hclasses, List.getElem?_map, hi, hregister]
    rfl
  · have hsame : frame.family d = frame.family c := by
      simp [Frame.family, hfamily]
    rw [Frame.word?, hsame] at hword
    exact hword

end Registers

namespace Signature

theorem passes_argument {sig : Signature} {registers : Registers} {file : Option Registers}
    (hfile : file = some registers ∨ file = none) {frame : Frame} {held : List UInt64} {i : Nat}
    {place : ArgClass × Nat} (hheld : frame.Held (sig.planOf file).shape.params.declared held)
    (hi : (Tally.empty.number sig.classes)[i]? = some place) :
    registers.Passes frame (sig.planOf file).shape.params.declared held sig.classes i place := by
  have hordered : ∀ params : Params, params = .ordered sig.layout.classes →
      frame.Held params.declared held →
      registers.Passes frame params.declared held sig.classes i place := by
    intro params hparams h
    have hdeclared : params.declared = sig.classes := by
      rw [hparams, Params.declared, classes_layout]
    rw [hdeclared] at h ⊢
    exact Registers.passes_same h hi
  rcases hfile with rfl | rfl
  · by_cases hhold : registers.hold sig.layout.ints sig.layout.floats = true
    · have hparams : (sig.planOf (some registers)).shape.params =
          .counted sig.layout.ints sig.layout.floats := by
        simp [planOf, Layout.params, hhold]
      refine Registers.passes_counted ?_ ?_ hheld hi
      · rw [hparams, sig.ints_layout, sig.floats_layout]
      · rw [hparams]
        exact hhold
    · exact hordered _ (by simp [planOf, Layout.params, hhold]) hheld
  · exact hordered _ (by simp [planOf, Layout.params]) hheld

theorem location_holds_slot_word (sig : Signature) (limits : Limits) (registers : Registers)
    (file : Option Registers) (hfile : file = some registers ∨ file = none)
    (harity : sig.arity ≤ limits.maxArity) :
    ∃ plan, sig.planFor limits file = .ok plan ∧ plan.layout.slots.length = sig.arity ∧
      (∀ (frame : Frame) (held : List UInt64), frame.Held plan.shape.params.declared held →
        ∀ (i : Nat) (slot : FrameSlot), plan.layout.slots[i]? = some slot →
          ∃ location word read, (registers.place sig.classes)[i]? = some location ∧
            (frame.family slot.argClass)[slot.index]? = some word ∧
            ((registers.place plan.shape.params.declared).zip held).lookup location = some read ∧
            if sig.args[i]? = some .f32 then read.toUInt32 = word.toUInt32 else read = word) ∧
      ∀ (generator : Generator) (attempt : Nat) (t : Trampoline) (frame : Frame),
        Trampoline.build generator attempt plan.shape = .ok t → plan.shape.Fits frame →
          ∃ held, frame.Held plan.shape.params.declared held ∧
            t.pass registers frame =
              (registers.place plan.shape.params.declared).zip held := by
  refine ⟨sig.planOf file, planFor_of_le harity file, sig.length_slots, ?_, ?_⟩
  · intro frame held hheld i slot hslot
    obtain ⟨type, htype⟩ : ∃ type, sig.args[i]? = some type := by
      have hlt := (List.getElem?_eq_some_iff.1 hslot).1
      change i < sig.layout.slots.length at hlt
      rw [sig.length_slots] at hlt
      exact ⟨_, List.getElem?_eq_getElem hlt⟩
    obtain ⟨c, n, hof, -, hnumber, hslot'⟩ := exists_slot htype
    obtain rfl : ⟨c, n, type⟩ = slot := Option.some.inj (hslot'.symm.trans hslot)
    obtain ⟨location, word, read, hlocation, hword, hread, hcarries⟩ :=
      passes_argument hfile hheld hnumber
    refine ⟨location, word, read, hlocation, hword, hread, ?_⟩
    rw [htype]
    cases type <;> cases hof <;> simpa [ArgClass.Carries] using hcarries
  · intro generator attempt t frame ht hfits
    exact (Trampoline.for_of_build ht).exists_held hfits registers

theorem location_holds_slot_word_spilled :
    ∃ sig : Signature, sig.args = [.f32, .u64, .i8] ∧ sig.arity ≤ Limits.standard.maxArity ∧
      ∃ (location : Location) (read : UInt64),
        (Registers.place ⟨1, 1⟩ sig.classes)[2]? = some location ∧
        ((Registers.place ⟨1, 1⟩ [.f32, .int, .int]).zip [0x700000001, 10, 20]).lookup location =
          some read ∧ read = 20 := by
  refine ⟨⟨[.f32, .u64, .i8], .void, by decide⟩, rfl, by decide, ?_⟩
  obtain ⟨plan, hplan, -, h, -⟩ := location_holds_slot_word ⟨[.f32, .u64, .i8], .void, by decide⟩
    .standard ⟨1, 1⟩ (some ⟨1, 1⟩) (.inl rfl) (by decide)
  cases hplan
  have hheld : Frame.Held ⟨[10, 20], [1]⟩ [.f32, .int, .int] [0x700000001, 10, 20] :=
    .cons ⟨1, rfl, rfl⟩ (.cons ⟨10, rfl, rfl⟩ (.cons ⟨20, rfl, rfl⟩ .nil))
  obtain ⟨location, word, read, hlocation, hword, hread, heq⟩ := h _ _ hheld 2 _ rfl
  cases hword
  exact ⟨location, read, hlocation, hread, heq⟩

end Signature

end ForeignCall
