import ForeignCall.Proofs.Convention
import ForeignCall.Proofs.Value

namespace ForeignCall

namespace Frame

theorem Sized.push {frame : Frame} {taken : Tally} (h : frame.Sized taken) (c : ArgClass)
    (word : UInt64) : (frame.push c word).Sized (taken.add c) := by
  obtain ⟨hints, hfloats⟩ := h
  cases c <;> simp [Sized, Frame.push, Tally.add, ArgClass.isFloat, hints, hfloats]

theorem Sized.fill {frame : Frame} {taken : Tally} (h : frame.Sized taken)
    (rows : List (FrameSlot × Value)) :
    (frame.fill rows).Sized (taken.after (rows.map fun row => row.1.argClass)) := by
  induction rows generalizing frame taken with
  | nil => exact h
  | cons row rows ih => exact ih (h.push row.1.argClass row.2.toWord)

theorem family_prefix_push (frame : Frame) (c d : ArgClass) (word : UInt64) :
    frame.family d <+: (frame.push c word).family d := by
  by_cases h : d.isFloat = c.isFloat
  · have hsame : ∀ frame : Frame, frame.family d = frame.family c := by
      intro frame
      simp [family, h]
    rw [hsame, hsame, family_push_self]
    exact List.prefix_append ..
  · exact ⟨[], by rw [List.append_nil, family_push_of_ne frame word h]⟩

theorem family_prefix_fill (frame : Frame) (rows : List (FrameSlot × Value)) (d : ArgClass) :
    frame.family d <+: (frame.fill rows).family d := by
  induction rows generalizing frame with
  | nil => exact List.prefix_refl _
  | cons row rows ih =>
      exact (frame.family_prefix_push row.1.argClass d row.2.toWord).trans (ih _)

theorem length_family_fill {frame : Frame} {taken : Tally} {before after : List (FrameSlot × Value)}
    {slot : FrameSlot} {v : Value} (hsized : frame.Sized taken)
    (hnumbered : (before ++ (slot, v) :: after).map (fun row => (row.1.argClass, row.1.index)) =
      taken.number ((before ++ (slot, v) :: after).map fun row => row.1.argClass)) :
    ((frame.fill before).family slot.argClass).length = slot.index := by
  rw [(hsized.fill before).length_family]
  rw [List.map_append, List.map_append, Tally.number_append] at hnumbered
  have hlen : (before.map fun row => (row.1.argClass, row.1.index)).length =
      (taken.number (before.map fun row => row.1.argClass)).length := by simp
  obtain ⟨-, hrest⟩ := List.append_inj hnumbered hlen
  injection hrest with hplace
  exact (congrArg Prod.snd hplace).symm

theorem word_fill {frame : Frame} {taken : Tally} {rows : List (FrameSlot × Value)}
    (hsized : frame.Sized taken)
    (hnumbered : rows.map (fun row => (row.1.argClass, row.1.index)) =
      taken.number (rows.map fun row => row.1.argClass))
    {slot : FrameSlot} {v : Value} (hmem : (slot, v) ∈ rows) :
    (frame.fill rows).word? (slot.argClass, slot.index) = some v.toWord := by
  obtain ⟨before, after, rfl⟩ := List.append_of_mem hmem
  have hindex := length_family_fill hsized hnumbered
  have hfilled := ((frame.fill before).push slot.argClass v.toWord).family_prefix_fill after
    slot.argClass
  rw [family_push_self] at hfilled
  obtain ⟨rest, hrest⟩ := hfilled
  rw [fill_append, fill, word?, ← hrest, ← hindex]
  simp

theorem firstMismatch?_of_types {slots : List FrameSlot} {args : List Value} (index : Nat)
    (h : args.map Value.type = slots.map FrameSlot.type) :
    firstMismatch? index slots args = none := by
  induction slots generalizing args index with
  | nil => rw [firstMismatch?]; simp
  | cons slot slots ih =>
      cases args with
      | nil => cases h
      | cons v args =>
          injection h with hv hargs
          rw [firstMismatch?, if_pos hv]
          exact ih (index + 1) hargs

end Frame

namespace Signature

def frameOf (sig : Signature) (args : List Value) : Frame :=
  Frame.empty.fill (sig.layout.slots.zip args)

theorem types_layout (sig : Signature) : sig.layout.slots.map FrameSlot.type = sig.args :=
  Layout.map_type_slots_of_place sig.place_args

theorem ints_planOf (sig : Signature) (file : Option Registers) :
    (sig.planOf file).shape.ints = sig.layout.ints := by
  change (sig.layout.params file).ints = sig.layout.ints
  rw [Layout.params]
  split
  · rfl
  · rw [Params.ints, classes_layout, ints_layout]

theorem floats_planOf (sig : Signature) (file : Option Registers) :
    (sig.planOf file).shape.floats = sig.layout.floats := by
  change (sig.layout.params file).floats = sig.layout.floats
  rw [Layout.params]
  split
  · rfl
  · rw [Params.floats, classes_layout, floats_layout]

variable {sig : Signature} {args : List Value}

theorem length_args (h : args.map Value.type = sig.args) : args.length = sig.arity := by
  rw [arity, ← h, List.length_map]

theorem map_fst_zip_slots (h : args.map Value.type = sig.args) {α : Type} (f : FrameSlot → α) :
    (sig.layout.slots.zip args).map (fun row => f row.1) = sig.layout.slots.map f := by
  have hlen : sig.layout.slots.length ≤ args.length :=
    Nat.le_of_eq (sig.length_slots.trans (length_args h).symm)
  have hslots := congrArg (List.map f) (List.map_fst_zip hlen)
  rw [List.map_map] at hslots
  exact hslots

theorem ofArgs_of_types (h : args.map Value.type = sig.args) :
    Frame.ofArgs sig.layout args = .ok (sig.frameOf args) := by
  have hlen : args.length = sig.layout.arity := by
    rw [Layout.arity, length_slots, length_args h]
  have hmatch : Frame.firstMismatch? 0 sig.layout.slots args = none :=
    Frame.firstMismatch?_of_types 0 (h.trans sig.types_layout.symm)
  rw [Frame.ofArgs, if_neg (not_not_intro hlen), hmatch]
  rfl

theorem sized_frameOf (h : args.map Value.type = sig.args) :
    (sig.frameOf args).Sized sig.layout.total := by
  have hempty : Frame.empty.Sized Tally.empty := ⟨rfl, rfl⟩
  have hsized := hempty.fill (sig.layout.slots.zip args)
  rw [map_fst_zip_slots h FrameSlot.argClass] at hsized
  change (sig.frameOf args).Sized (Tally.empty.after sig.layout.classes) at hsized
  rw [classes_layout] at hsized
  exact hsized

theorem fits_frameOf (h : args.map Value.type = sig.args) (file : Option Registers) :
    (sig.planOf file).shape.Fits (sig.frameOf args) :=
  ⟨(sized_frameOf h).1.trans (sig.ints_planOf file).symm,
    (sized_frameOf h).2.trans (sig.floats_planOf file).symm⟩

theorem rows_numbered (h : args.map Value.type = sig.args) :
    (sig.layout.slots.zip args).map (fun row => (row.1.argClass, row.1.index)) =
      Tally.empty.number ((sig.layout.slots.zip args).map fun row => row.1.argClass) := by
  rw [map_fst_zip_slots h (fun slot => (slot.argClass, slot.index)),
    map_fst_zip_slots h FrameSlot.argClass, places_layout]
  exact congrArg _ sig.classes_layout.symm

theorem word_frameOf (h : args.map Value.type = sig.args) {i : Nat} {slot : FrameSlot} {v : Value}
    (hslot : sig.layout.slots[i]? = some slot) (hv : args[i]? = some v) :
    (sig.frameOf args).word? (slot.argClass, slot.index) = some v.toWord := by
  have hempty : Frame.empty.Sized Tally.empty := ⟨rfl, rfl⟩
  have hrow : (slot, v) ∈ sig.layout.slots.zip args :=
    List.mem_of_getElem? (List.getElem?_zip_eq_some.2 ⟨hslot, hv⟩)
  exact Frame.word_fill hempty (rows_numbered h) hrow

end Signature

theorem Value.ofWord_of_carries {v : Value} {c : ArgClass} {word : UInt64}
    (hof : ArgClass.of? v.type = some c) (h : c.Carries v.toWord word) :
    Value.ofWord v.type word = v := by
  have hv := v.ofWord_toWord
  cases c with
  | f32 =>
      have htype : v.type = .f32 := by
        cases htype : v.type <;> rw [htype] at hof <;> first | rfl | cases hof
      rw [htype] at hv ⊢
      exact (Value.ofWord_f32_congr h).trans hv
  | int | f64 =>
      obtain rfl : word = v.toWord := h
      exact hv

namespace Trampoline

variable {t u : Trampoline} {sig : Signature} {args : List Value}

theorem deliver_frameOf (ht : t.For (sig.planOf (some .host)).shape)
    (h : args.map Value.type = sig.args) : t.deliver sig (sig.frameOf args) = .ok args := by
  have hfits := Signature.fits_frameOf h (some .host)
  obtain ⟨held, hheld, hpass⟩ := ht.exists_held hfits .host
  rw [← ht.shape_eq] at hfits
  rw [deliver, if_neg (not_not_intro hfits.1), if_neg (not_not_intro hfits.2), hpass,
    Except.ok.injEq]
  apply List.ext_getElem?
  intro i
  rw [Signature.receive, List.getElem?_zipWith]
  cases hv : args[i]? with
  | none =>
      have hlen : sig.arity ≤ i := by
        rw [← Signature.length_args h]
        exact List.getElem?_eq_none_iff.1 hv
      rw [List.getElem?_eq_none (l := sig.args) hlen]
  | some v =>
      have htype : sig.args[i]? = some v.type := by
        rw [← h, List.getElem?_map, hv]
        rfl
      obtain ⟨c, n, hof, -, hnumber, hslot⟩ := Signature.exists_slot htype
      have hword := Signature.word_frameOf h hslot hv
      obtain ⟨location, word, read, hlocation, hword', hread, hcarries⟩ :=
        Signature.passes_argument (.inl rfl) hheld hnumber
      obtain rfl : word = v.toWord := Option.some.inj (hword'.symm.trans hword)
      have hvalue := Value.ofWord_of_carries hof hcarries
      rw [htype, hlocation]
      change some (Value.ofWord v.type (Passed.read _ location)) = some v
      rw [Passed.read, hread]
      exact congrArg some hvalue

theorem ofWord_collect (ht : t.For (sig.planOf (some .host)).shape) (word : UInt64) :
    Value.ofWord sig.ret (t.collect sig word) = Value.ofWord sig.ret word := by
  have hret : t.shape.ret = ResultClass.of sig.ret := by
    rw [ht.shape_eq]
    rfl
  rw [collect, hret]
  cases h : sig.ret <;> rfl

theorem For.deliver_congr {shape : Shape} (ht : t.For shape) (hu : u.For shape) :
    t.deliver = u.deliver := by
  funext callee frame
  rw [deliver, deliver, pass, pass, ht.shape_eq, hu.shape_eq, ht.loads_eq, hu.loads_eq]

theorem For.collect_congr {shape : Shape} (ht : t.For shape) (hu : u.For shape) :
    t.collect = u.collect := by
  funext callee word
  rw [collect, collect, ht.shape_eq, hu.shape_eq]

end Trampoline

end ForeignCall
