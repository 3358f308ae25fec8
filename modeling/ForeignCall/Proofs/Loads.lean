import ForeignCall.Proofs.Density

namespace ForeignCall

structure Cursor where
  ints : Int32
  floats : Int32
  deriving DecidableEq, Repr

namespace Cursor

def zero : Cursor := ⟨0, 0⟩

def next (cursor : Cursor) (c : ArgClass) : Int32 :=
  if c.isFloat then cursor.floats else cursor.ints

def step (cursor : Cursor) (c : ArgClass) : Cursor :=
  if c.isFloat then { cursor with floats := cursor.floats + 8 }
  else { cursor with ints := cursor.ints + 8 }

def after (cursor : Cursor) (classes : List ArgClass) : Cursor :=
  classes.foldl step cursor

def behind (taken : Tally) : Cursor :=
  ⟨Int32.ofNat (8 * taken.ints), Int32.ofNat (8 * taken.floats)⟩

theorem next_behind (taken : Tally) (c : ArgClass) :
    (behind taken).next c = Int32.ofNat (8 * taken.next c) := by
  cases c <;> rfl

theorem step_behind (taken : Tally) (c : ArgClass) :
    (behind taken).step c = behind (taken.add c) := by
  cases c with
  | int | f32 | f64 =>
      simp only [step, behind, Tally.add, ArgClass.isFloat, Load.ofNat_add_word,
        Bool.false_eq_true, if_true, if_false]

theorem after_behind (taken : Tally) (classes : List ArgClass) :
    (behind taken).after classes = behind (taken.after classes) := by
  induction classes generalizing taken with
  | nil => rfl
  | cons c cs ih =>
      change ((behind taken).step c).after cs = behind ((taken.add c).after cs)
      rw [step_behind, ih]

theorem toInt_next_behind {taken : Tally} {c : ArgClass} (h : taken.next c < 2 ^ 28) :
    ((behind taken).next c).toInt = 8 * (taken.next c : Int) := by
  rw [next_behind, Int32.toInt_ofNat_of_lt (by omega)]
  rfl

end Cursor

namespace Load

theorem sequence_cons (cursor : Cursor) (c : ArgClass) (cs : List ArgClass) :
    sequence cursor.ints cursor.floats (c :: cs) =
      ⟨c, cursor.next c⟩ :: sequence (cursor.step c).ints (cursor.step c).floats cs := by
  cases c <;> rfl

theorem sequence_append (cursor : Cursor) (xs ys : List ArgClass) :
    sequence cursor.ints cursor.floats (xs ++ ys) =
      sequence cursor.ints cursor.floats xs ++
        sequence (cursor.after xs).ints (cursor.after xs).floats ys := by
  induction xs generalizing cursor with
  | nil => rfl
  | cons c cs ih =>
      rw [List.cons_append, sequence_cons, sequence_cons, ih]
      rfl

theorem length_sequence (i f : Int32) (classes : List ArgClass) :
    (sequence i f classes).length = classes.length := by
  rw [← List.length_map argClass, map_argClass_sequence]

end Load

namespace Shape

def offsets (shape : Shape) (float : Bool) : List Int :=
  (shape.loads.filter fun load => load.argClass.isFloat == float).map fun load => load.offset.toInt

def Addressable (shape : Shape) : Prop :=
  ∀ c, shape.tally.next c < 2 ^ 28

variable {shape : Shape}

theorem addressable_iff : shape.Addressable ↔ shape.ints < 2 ^ 28 ∧ shape.floats < 2 ^ 28 := by
  constructor
  · exact fun h => ⟨h .int, h .f64⟩
  · rintro ⟨hints, hfloats⟩ (_ | _ | _)
    · exact hints
    · exact hfloats
    · exact hfloats

theorem inRange_iff : shape.frameWords * 8 ≤ 2147483647 ↔ shape.Addressable := by
  rw [addressable_iff, frameWords]
  omega

theorem next_after_lt {before after : List ArgClass} {c : ArgClass}
    (h : shape.params.declared = before ++ c :: after) :
    (Tally.empty.after before).next c < shape.tally.next c := by
  have hmem : (c, (Tally.empty.after before).next c) ∈
      Tally.empty.number shape.params.declared := by
    rw [h, Tally.number_append]
    exact List.mem_append_right _ List.mem_cons_self
  exact lt_of_mem_number hmem

theorem toInt_offset_ofPlace (h : shape.Addressable) {place : ArgClass × Nat}
    (hplace : place ∈ Tally.empty.number shape.params.declared) :
    (Load.ofPlace place).offset.toInt = 8 * (place.2 : Int) := by
  have hlt := lt_of_mem_number hplace
  have hwords : shape.tally.next place.1 < 2 ^ 28 := h place.1
  rw [Load.ofPlace, Int32.toInt_ofNat_of_lt (by omega)]
  rfl

theorem offsets_eq (h : shape.Addressable) (c : ArgClass) :
    shape.offsets c.isFloat =
      (List.range (shape.tally.next c)).map fun (n : Nat) => 8 * (n : Int) := by
  have hcount : (shape.params.declared.countP fun d => d.isFloat == c.isFloat) =
      shape.tally.next c := by
    have hafter := Tally.next_after .empty shape.params.declared c
    rw [Params.after_declared, Tally.next_empty, Nat.zero_add] at hafter
    exact hafter.symm
  have hnumbers := Tally.numbers_family .empty shape.params.declared c
  rw [hcount, Tally.next_empty, ← List.range_eq_range'] at hnumbers
  rw [← hnumbers, List.map_map, offsets, loads_eq, List.filter_map, List.map_map]
  refine List.map_congr_left fun place hplace => ?_
  exact toInt_offset_ofPlace h (List.mem_of_mem_filter hplace)

section Cursor

variable {before after : List ArgClass} {c : ArgClass}

theorem getElem?_loads (hdeclared : shape.params.declared = before ++ c :: after) :
    shape.loads[before.length]? = some ⟨c, (Cursor.zero.after before).next c⟩ := by
  have hloads := Load.sequence_append Cursor.zero before (c :: after)
  have hlength := Load.length_sequence Cursor.zero.ints Cursor.zero.floats before
  rw [Load.sequence_cons, ← hdeclared] at hloads
  change shape.loads = _ at hloads
  rw [hloads, List.getElem?_append_right (Nat.le_of_eq hlength), hlength, Nat.sub_self]
  rfl

theorem toInt_next_step (h : shape.Addressable)
    (hdeclared : shape.params.declared = before ++ c :: after) :
    (((Cursor.zero.after before).step c).next c).toInt =
      ((Cursor.zero.after before).next c).toInt + 8 := by
  have hlt : (Tally.empty.after before).next c < shape.tally.next c := next_after_lt hdeclared
  have hwords : shape.tally.next c < 2 ^ 28 := h c
  have hself := Tally.next_add_self (Tally.empty.after before) (rfl : c.isFloat = c.isFloat)
  have hcursor : Cursor.zero.after before = Cursor.behind (Tally.empty.after before) :=
    Cursor.after_behind .empty before
  rw [hcursor, Cursor.step_behind, Cursor.toInt_next_behind (by omega),
    Cursor.toInt_next_behind (by omega), hself]
  omega

end Cursor

theorem Fits.load_inside {frame : Frame} (h : shape.Fits frame) (haddr : shape.Addressable)
    {load : Load} (hload : load ∈ shape.loads) :
    0 ≤ load.offset.toInt ∧
      load.offset.toInt + 8 ≤ 8 * ((frame.family load.argClass).length : Int) := by
  rw [loads_eq] at hload
  obtain ⟨place, hplace, rfl⟩ := List.mem_map.1 hload
  have hoffset := toInt_offset_ofPlace haddr hplace
  have hlt := lt_of_mem_number hplace
  have hlength := h.sized.length_family place.1
  change 0 ≤ (Load.ofPlace place).offset.toInt ∧
    (Load.ofPlace place).offset.toInt + 8 ≤ 8 * ((frame.family place.1).length : Int)
  omega

end Shape

namespace Trampoline

theorem build_of_addressable {generator : Generator} {attempt : Nat} {shape : Shape}
    (h : shape.Addressable) (hgenerator : generator attempt shape = none) :
    build generator attempt shape = .ok ⟨attempt, shape, shape.loads⟩ := by
  have hrange := Shape.inRange_iff.2 h
  rw [build, if_neg (by omega), hgenerator]

theorem fits_of_deliver {t : Trampoline} {callee : Signature} {frame : Frame}
    {received : List Value} (h : t.deliver callee frame = .ok received) : t.shape.Fits frame := by
  unfold deliver at h
  split at h
  · cases h
  · next hints =>
      split at h
      · cases h
      · next hfloats => exact ⟨of_not_not hints, of_not_not hfloats⟩

end Trampoline

structure Plan.Loaded (plan : Plan) : Prop where
  ints_declared : (plan.shape.params.declared.countP fun c => !c.isFloat) = plan.layout.ints
  floats_declared : plan.shape.params.declared.countP ArgClass.isFloat = plan.layout.floats
  ints_shape : plan.shape.ints = plan.layout.ints
  floats_shape : plan.shape.floats = plan.layout.floats
  one_each : plan.shape.loads.map Load.argClass = plan.shape.params.declared
  int_offsets : plan.shape.offsets false =
    (List.range plan.shape.ints).map fun (n : Nat) => 8 * (n : Int)
  float_offsets : plan.shape.offsets true =
    (List.range plan.shape.floats).map fun (n : Nat) => 8 * (n : Int)
  no_overflow : ∀ before c after, plan.shape.params.declared = before ++ c :: after →
    plan.shape.loads[before.length]? = some ⟨c, (Cursor.zero.after before).next c⟩ ∧
      (((Cursor.zero.after before).step c).next c).toInt =
        ((Cursor.zero.after before).next c).toInt + 8
  built : ∀ generator attempt, generator attempt plan.shape = none →
    Trampoline.build generator attempt plan.shape = .ok ⟨attempt, plan.shape, plan.shape.loads⟩
  inside : ∀ generator attempt t callee frame received,
    Trampoline.build generator attempt plan.shape = .ok t →
    t.deliver callee frame = .ok received → ∀ load ∈ t.loads, 0 ≤ load.offset.toInt ∧
      load.offset.toInt + 8 ≤ 8 * ((frame.family load.argClass).length : Int)

namespace Signature

theorem planFor_loaded {sig : Signature} {limits : Limits} {registers : Option Registers}
    {plan : Plan} (h : sig.planFor limits registers = .ok plan) (hints : plan.shape.ints < 2 ^ 28)
    (hfloats : plan.shape.floats < 2 ^ 28) : plan.Loaded := by
  have haddr : plan.shape.Addressable := Shape.addressable_iff.2 ⟨hints, hfloats⟩
  obtain ⟨-, rfl⟩ := planFor_eq_ok_iff.1 h
  have hints_shape := sig.ints_planOf registers
  have hfloats_shape := sig.floats_planOf registers
  refine ⟨(Params.countP_not_isFloat_declared _).trans hints_shape,
    (Params.countP_isFloat_declared _).trans hfloats_shape, hints_shape, hfloats_shape,
    Load.map_argClass_sequence 0 0 _, Shape.offsets_eq haddr .int, Shape.offsets_eq haddr .f64,
    fun before c after hdeclared =>
      ⟨Shape.getElem?_loads hdeclared, Shape.toInt_next_step haddr hdeclared⟩,
    fun generator attempt => Trampoline.build_of_addressable haddr, ?_⟩
  intro generator attempt t callee frame received hbuild hdeliver load hload
  have hfor := Trampoline.for_of_build hbuild
  have hfits := Trampoline.fits_of_deliver hdeliver
  rw [hfor.shape_eq] at hfits
  rw [hfor.loads_eq] at hload
  exact hfits.load_inside haddr hload

theorem planFor_loaded_spilled :
    let sig : Signature := ⟨[.f32, .i32, .f64, .u8], .void, by decide⟩
    ∃ plan, sig.planFor .standard (some ⟨1, 2⟩) = .ok plan ∧ plan.shape.ints < 2 ^ 28 ∧
      plan.shape.floats < 2 ^ 28 ∧ plan.Loaded ∧
      plan.shape.loads = [⟨.f32, 0⟩, ⟨.int, 0⟩, ⟨.f64, 8⟩, ⟨.int, 8⟩] := by
  intro sig
  have h : sig.planFor .standard (some ⟨1, 2⟩) = .ok (sig.planOf (some ⟨1, 2⟩)) := rfl
  have hints : (sig.planOf (some ⟨1, 2⟩)).shape.ints < 2 ^ 28 := by decide
  have hfloats : (sig.planOf (some ⟨1, 2⟩)).shape.floats < 2 ^ 28 := by decide
  exact ⟨_, h, hints, hfloats, planFor_loaded h hints hfloats, rfl⟩

end Signature

end ForeignCall
