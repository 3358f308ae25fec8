import ForeignCall.Proofs.Validation

namespace ForeignCall

theorem Tally.pairwise_number (taken : Tally) (classes : List ArgClass) :
    (taken.number classes).Pairwise fun p q => p.1.isFloat = q.1.isFloat → p.2 < q.2 := by
  induction classes generalizing taken with
  | nil => exact .nil
  | cons c cs ih =>
      refine .cons ?_ (ih (taken.add c))
      rintro ⟨d, n⟩ hmem hfamily
      have hlow := (bounds_of_mem_number hmem).1
      rw [next_add_self taken hfamily, ← next_congr taken hfamily] at hlow
      exact hlow

def Layout.Assigns (layout : Layout) (c : ArgClass) (n i : Nat) : Prop :=
  ∃ slot, layout.slots[i]? = some slot ∧ slot.argClass.isFloat = c.isFloat ∧ slot.index = n

namespace Signature

theorem number_of_slot {sig : Signature} {i : Nat} {slot : FrameSlot}
    (h : sig.layout.slots[i]? = some slot) :
    (Tally.empty.number sig.classes)[i]? = some (slot.argClass, slot.index) := by
  rw [← places_layout, List.getElem?_map, h]
  rfl

theorem exists_assigns {sig : Signature} {c : ArgClass} {n : Nat}
    (h : n < sig.layout.total.next c) : ∃ i, sig.layout.Assigns c n i := by
  have hlow : Tally.empty.next c ≤ n := by
    rw [Tally.next_empty]
    exact Nat.zero_le n
  obtain ⟨d, hfamily, hmem⟩ := Tally.exists_mem_number hlow h
  rw [← places_layout, List.mem_map] at hmem
  obtain ⟨slot, hslot, hplace⟩ := hmem
  obtain ⟨i, hi⟩ := List.getElem?_of_mem hslot
  rw [Prod.mk.injEq] at hplace
  exact ⟨i, slot, hi, by rw [hplace.1, hfamily], hplace.2⟩

theorem assigns_unique {sig : Signature} {c : ArgClass} {n i j : Nat}
    (hi : sig.layout.Assigns c n i) (hj : sig.layout.Assigns c n j) : i = j := by
  have hlater : ∀ i j, sig.layout.Assigns c n i → sig.layout.Assigns c n j → ¬i < j := by
    rintro i j ⟨slot, hslot, hfamily, hindex⟩ ⟨other, hother, hfamily', hindex'⟩ hlt
    obtain ⟨hi, hplace⟩ := List.getElem?_eq_some_iff.1 (number_of_slot hslot)
    obtain ⟨hj, hplace'⟩ := List.getElem?_eq_some_iff.1 (number_of_slot hother)
    have hpair := List.pairwise_iff_getElem.1 (Tally.pairwise_number .empty sig.classes) i j hi hj hlt
    rw [hplace, hplace'] at hpair
    have := hpair (hfamily.trans hfamily'.symm)
    omega
  exact Nat.le_antisymm (Nat.not_lt.1 (hlater j i hj hi)) (Nat.not_lt.1 (hlater i j hi hj))

end Signature

structure Frame.Keeps (frame : Frame) (layout : Layout) (args : List Value) : Prop where
  ints_eq : frame.ints.length = layout.ints
  floats_eq : frame.floats.length = layout.floats
  length_eq : args.length = layout.arity
  kept : ∀ (i : Nat) (v : Value), args[i]? = some v → ∃ slot, layout.slots[i]? = some slot ∧
    (frame.family slot.argClass)[slot.index]? = some v.toWord ∧
    Value.ofWord slot.type v.toWord = v
  owned : ∀ c n, n < (frame.family c).length → ∃! i, layout.Assigns c n i

theorem Frame.Keeps.unique {frame : Frame} {layout : Layout} {args other : List Value}
    (h : frame.Keeps layout args) (h' : frame.Keeps layout other) : other = args := by
  apply List.ext_getElem?
  intro i
  cases hv : args[i]? with
  | none =>
      rw [List.getElem?_eq_none_iff] at hv ⊢
      rwa [h'.length_eq, ← h.length_eq]
  | some v =>
      obtain ⟨w, hw⟩ : ∃ w, other[i]? = some w := by
        have hlt := (List.getElem?_eq_some_iff.1 hv).1
        rw [h.length_eq, ← h'.length_eq] at hlt
        exact ⟨_, List.getElem?_eq_getElem hlt⟩
      obtain ⟨slot, hslot, hword, hvalue⟩ := h.kept i v hv
      obtain ⟨slot', hslot', hword', hvalue'⟩ := h'.kept i w hw
      obtain rfl : slot = slot' := Option.some.inj (hslot.symm.trans hslot')
      have hsame : v.toWord = w.toWord := Option.some.inj (hword.symm.trans hword')
      rw [hw, ← hvalue', ← hsame, hvalue]

namespace Signature

variable {sig : Signature} {args : List Value}

theorem keeps_frameOf (h : args.map Value.type = sig.args) :
    (sig.frameOf args).Keeps sig.layout args where
  ints_eq := (sized_frameOf h).1
  floats_eq := (sized_frameOf h).2
  length_eq := (length_args h).trans sig.length_slots.symm
  kept := by
    intro i v hv
    have htype : sig.args[i]? = some v.type := by
      rw [← h, List.getElem?_map, hv]
      rfl
    obtain ⟨c, n, -, -, -, hslot⟩ := exists_slot htype
    exact ⟨_, hslot, word_frameOf h hslot hv, v.ofWord_toWord⟩
  owned := by
    intro c n hn
    rw [(sized_frameOf h).length_family] at hn
    obtain ⟨i, hi⟩ := exists_assigns hn
    exact ⟨i, hi, fun j hj => assigns_unique hj hi⟩

theorem ofArgs_keeps {limits : Limits} {registers : Option Registers} {plan : Plan}
    (hplan : sig.planFor limits registers = .ok plan) (htypes : args.map Value.type = sig.args) :
    ∃ frame, Frame.ofArgs plan.layout args = .ok frame ∧ frame.Keeps plan.layout args ∧
      ∀ other, Frame.ofArgs plan.layout other = .ok frame → other = args := by
  obtain ⟨-, rfl⟩ := planFor_eq_ok_iff.1 hplan
  have hkeeps := keeps_frameOf htypes
  refine ⟨_, ofArgs_of_types htypes, hkeeps, ?_⟩
  intro other hother
  obtain ⟨htypes', hframe⟩ := ofArgs_eq_ok_iff.1 hother
  have hkeeps' := keeps_frameOf htypes'
  rw [hframe] at hkeeps'
  exact hkeeps.unique hkeeps'

theorem ofArgs_keeps_nan :
    let sig : Signature := ⟨[.f32, .i8, .f64], .void, by decide⟩
    let args : List Value := [.f32 0x7fa00001, .i8 (-2), .f64 0x8000000000000000]
    ∃ plan frame, sig.planFor .standard none = .ok plan ∧ args.map Value.type = sig.args ∧
      Frame.ofArgs plan.layout args = .ok frame ∧ frame.Keeps plan.layout args ∧
      frame = ⟨[0xfffffffffffffffe], [0x7fa00001, 0x8000000000000000]⟩ := by
  intro sig args
  have hplan : sig.planFor .standard none = .ok (sig.planOf none) := rfl
  have htypes : args.map Value.type = sig.args := rfl
  obtain ⟨frame, hframe, hkeeps, -⟩ := ofArgs_keeps hplan htypes
  have heq : frame = ⟨[0xfffffffffffffffe], [0x7fa00001, 0x8000000000000000]⟩ :=
    Except.ok.inj (hframe.symm.trans rfl)
  exact ⟨_, frame, hplan, htypes, hframe, hkeeps, heq⟩

end Signature

end ForeignCall
