import ForeignCall.Proofs.Calls

namespace ForeignCall

namespace State

variable {ω σ : Type}

theorem frame_fits_cached (limits : Limits) (generator : Generator) (world : ω) (sinks : σ)
    (operations : List (Operation ω σ)) {bound : Limits} {registers : Option Registers}
    {sig : Signature} {args : List Value} {plan : Plan} {frame : Frame}
    (hplan : sig.planFor bound registers = .ok plan)
    (hframe : Frame.ofArgs plan.layout args = .ok frame) :
    let s := (start limits generator world sinks).after operations
    (∀ t, s.dispatcher.cache.find? plan.shape = some t ∨
        (∃ outcome, (s.dispatcher.lookup plan.shape).1 = .ok (t, outcome)) →
      frame.ints.length = t.shape.ints ∧ frame.floats.length = t.shape.floats ∧
        ∀ callee, ∃ received, t.deliver callee frame = .ok received) ∧
    (∀ before slot v after, plan.layout.slots.zip args = before ++ (slot, v) :: after →
      ((Frame.empty.fill before).family slot.argClass).length = slot.index) ∧
    ∀ (program : Program ω σ) (e : WordCountMismatch),
      .error (.wordCount e) ∉ (program.trace s).results := by
  intro s
  have hs : s.dispatcher.Made limits generator :=
    made_after limits generator world sinks operations
  obtain ⟨-, rfl⟩ := Signature.planFor_eq_ok_iff.1 hplan
  obtain ⟨htypes, rfl⟩ := Signature.ofArgs_eq_ok_iff.1 hframe
  have hfits := Signature.fits_frameOf htypes registers
  refine ⟨?_, ?_, wordCount_not_mem_results hs⟩
  · intro t ht
    have hfor : t.For (sig.planOf registers).shape := by
      rcases ht with hfound | ⟨outcome, hlookup⟩
      · exact hs.sound.made _ _ hfound
      · exact (hs.lookup_eq_ok hlookup).1
    rw [hfor.shape_eq]
    exact ⟨hfits.1, hfits.2, fun callee => ⟨_, hfor.deliver_of_fits hfits callee⟩⟩
  · intro before slot v after hsplit
    have hnumbered := Signature.rows_numbered htypes
    have hempty : Frame.empty.Sized Tally.empty := ⟨rfl, rfl⟩
    change sig.layout.slots.zip args = _ at hsplit
    rw [hsplit] at hnumbered
    exact Frame.length_family_fill hempty hnumbered

theorem frame_fits_cached_reordered :
    let sig : Signature := ⟨[.f32, .u64, .f64], .i8, by decide⟩
    let earlier : Signature := ⟨[.f64, .f32, .i16], .u32, by decide⟩
    let s : State Unit Unit := (start .standard .reliable () ()).after [.warm earlier]
    ∃ plan frame t, sig.planFor .standard (some .host) = .ok plan ∧
      Frame.ofArgs plan.layout [.f32 0x7fa00001, .u64 7, .f64 0] = .ok frame ∧
      s.dispatcher.cache.find? plan.shape = some t ∧
      frame.ints.length = t.shape.ints ∧ frame.floats.length = t.shape.floats := by
  intro sig earlier s
  let plan := sig.planOf (some .host)
  let args : List Value := [.f32 0x7fa00001, .u64 7, .f64 0]
  have hplan : sig.planFor .standard (some .host) = .ok plan := rfl
  have hframe : Frame.ofArgs plan.layout args = .ok (sig.frameOf args) := rfl
  have hfound : s.dispatcher.cache.find? plan.shape = some ⟨0, plan.shape, plan.shape.loads⟩ := by
    decide
  obtain ⟨hfits, -, -⟩ :=
    frame_fits_cached .standard .reliable () () [.warm earlier] hplan hframe
  obtain ⟨hints, hfloats, -⟩ := hfits _ (.inl hfound)
  exact ⟨plan, sig.frameOf args, _, hplan, hframe, hfound, hints, hfloats⟩

end State

end ForeignCall
