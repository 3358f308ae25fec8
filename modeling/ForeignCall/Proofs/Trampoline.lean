import ForeignCall.Proofs.Layout
import ForeignCall.Trampoline

namespace ForeignCall

-- Nothing is said about the high half of a location that carries an `f32`.
def ArgClass.Carries : ArgClass → UInt64 → UInt64 → Prop
  | .f32, word, held => held.toUInt32 = word.toUInt32
  | .int, word, held => held = word
  | .f64, word, held => held = word

namespace Frame

def Sized (frame : Frame) (taken : Tally) : Prop :=
  frame.ints.length = taken.ints ∧ frame.floats.length = taken.floats

theorem Sized.length_family {frame : Frame} {taken : Tally} (h : frame.Sized taken) (c : ArgClass) :
    (frame.family c).length = taken.next c := by
  cases c with
  | int => exact h.1
  | f32 | f64 => exact h.2

def word? (frame : Frame) (place : ArgClass × Nat) : Option UInt64 :=
  (frame.family place.1)[place.2]?

def Held (frame : Frame) (classes : List ArgClass) (held : List UInt64) : Prop :=
  List.Forall₂ (fun place w => ∃ word, frame.word? place = some word ∧ place.1.Carries word w)
    (Tally.empty.number classes) held

theorem Held.exists_getElem? {frame : Frame} {classes : List ArgClass} {held : List UInt64}
    {i : Nat} {place : ArgClass × Nat} (h : frame.Held classes held)
    (hi : (Tally.empty.number classes)[i]? = some place) :
    ∃ word w, frame.word? place = some word ∧ held[i]? = some w ∧ place.1.Carries word w := by
  obtain ⟨hlt, rfl⟩ := List.getElem?_eq_some_iff.1 hi
  have hlen : i < held.length := by
    rw [← h.length_eq]
    exact hlt
  obtain ⟨word, hword, hcarries⟩ := h.get hlt hlen
  exact ⟨word, held[i], hword, List.getElem?_eq_getElem hlen, hcarries⟩

end Frame

namespace Load

def ofPlace (place : ArgClass × Nat) : Load :=
  ⟨place.1, Int32.ofNat (8 * place.2)⟩

theorem ofNat_add_word (n : Nat) : Int32.ofNat (8 * n) + 8 = Int32.ofNat (8 * (n + 1)) := by
  rw [Nat.mul_succ, Int32.ofNat_add]
  rfl

theorem sequence_eq (taken : Tally) (classes : List ArgClass) :
    sequence (Int32.ofNat (8 * taken.ints)) (Int32.ofNat (8 * taken.floats)) classes =
      (taken.number classes).map ofPlace := by
  induction classes generalizing taken with
  | nil => rfl
  | cons c cs ih =>
      have hrest := ih (taken.add c)
      cases c with
      | int | f32 | f64 =>
          simp only [sequence, ArgClass.isFloat, ofNat_add_word, Bool.false_eq_true, if_true,
            if_false]
          exact congrArg (List.cons _) hrest

theorem word_ofPlace {frame : Frame} {place : ArgClass × Nat} {word : UInt64}
    (hword : frame.word? place = some word) (hrange : 8 * place.2 < 2147483648) :
    (ofPlace place).word frame = word := by
  have hoffset : (ofPlace place).offset.toNatClampNeg / 8 = place.2 := by
    rw [ofPlace, Int32.toNatClampNeg_ofNat_of_lt hrange]
    omega
  rw [Load.word, hoffset]
  change (frame.word? place).getD 0 = word
  rw [hword]
  rfl

theorem carries_fetch (load : Load) (frame : Frame) :
    load.argClass.Carries (load.word frame) (load.fetch frame) := by
  cases h : load.argClass with
  | int => simp only [fetch, h, ArgClass.Carries]
  | f32 => simp only [fetch, h, ArgClass.Carries, UInt32.toUInt32_toUInt64]
  | f64 => simp only [fetch, h, ArgClass.Carries]

end Load

namespace Shape

theorem loads_eq (shape : Shape) :
    shape.loads = (Tally.empty.number shape.params.declared).map Load.ofPlace :=
  Load.sequence_eq .empty shape.params.declared

def Fits (shape : Shape) (frame : Frame) : Prop :=
  frame.ints.length = shape.ints ∧ frame.floats.length = shape.floats

def tally (shape : Shape) : Tally :=
  ⟨shape.ints, shape.floats⟩

theorem Fits.sized {shape : Shape} {frame : Frame} (h : shape.Fits frame) :
    frame.Sized shape.tally :=
  h

theorem next_tally_le (shape : Shape) (c : ArgClass) : shape.tally.next c ≤ shape.frameWords := by
  cases c with
  | int => exact Nat.le_max_left _ _
  | f32 | f64 => exact Nat.le_max_right _ _

theorem lt_of_mem_number {shape : Shape} {place : ArgClass × Nat}
    (h : place ∈ Tally.empty.number shape.params.declared) :
    place.2 < shape.tally.next place.1 := by
  have hlt := (Tally.bounds_of_mem_number h).2
  rwa [Params.after_declared] at hlt

theorem Fits.exists_word {shape : Shape} {frame : Frame} (h : shape.Fits frame)
    {place : ArgClass × Nat} (hplace : place ∈ Tally.empty.number shape.params.declared) :
    place.2 < shape.frameWords ∧ ∃ word, frame.word? place = some word := by
  have hlt := lt_of_mem_number hplace
  refine ⟨Nat.lt_of_lt_of_le hlt (shape.next_tally_le place.1), ?_⟩
  rw [← h.sized.length_family] at hlt
  exact ⟨_, List.getElem?_eq_getElem hlt⟩

end Shape

namespace Trampoline

structure For (t : Trampoline) (shape : Shape) : Prop where
  shape_eq : t.shape = shape
  loads_eq : t.loads = shape.loads
  inRange : shape.frameWords * 8 ≤ 2147483647

theorem for_of_build {generator : Generator} {attempt : Nat} {shape : Shape} {t : Trampoline}
    (h : build generator attempt shape = .ok t) : t.For shape := by
  have ht := eq_of_build h
  subst ht
  refine ⟨rfl, rfl, ?_⟩
  unfold build at h
  split at h
  · cases h
  · omega

theorem For.exists_held {t : Trampoline} {shape : Shape} {frame : Frame} (ht : t.For shape)
    (hfits : shape.Fits frame) (registers : Registers) :
    ∃ held, frame.Held shape.params.declared held ∧
      t.pass registers frame = (registers.place shape.params.declared).zip held := by
  refine ⟨t.loads.map fun load => load.fetch frame, ?_, ?_⟩
  · rw [ht.loads_eq, shape.loads_eq, List.map_map, Frame.Held, List.forall₂_map_right_iff,
      List.forall₂_same]
    intro place hplace
    obtain ⟨hlt, word, hword⟩ := hfits.exists_word hplace
    have hrange : 8 * place.2 < 2147483648 := by
      have := ht.inRange
      omega
    refine ⟨word, hword, ?_⟩
    have hcarries := Load.carries_fetch (Load.ofPlace place) frame
    rw [Load.word_ofPlace hword hrange] at hcarries
    exact hcarries
  · have hclasses : t.loads.map Load.argClass = shape.params.declared := by
      rw [ht.loads_eq, Shape.loads, Load.map_argClass_sequence]
    rw [pass, hclasses]

end Trampoline

end ForeignCall
