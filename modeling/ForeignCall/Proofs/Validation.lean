import ForeignCall.Dispatcher
import ForeignCall.Proofs.Delivery

namespace ForeignCall

namespace Frame

inductive Mismatched (types : List NativeType) (args : List Value) : Mismatch → Prop where
  | arity (differ : args.length ≠ types.length) :
      Mismatched types args (.arity types.length args.length)
  | type {i : Nat} {expected : NativeType} {v : Value} (agree : args.length = types.length)
      (declared : types[i]? = some expected) (given : args[i]? = some v)
      (differ : v.type ≠ expected) (least : ∀ j < i, (args[j]?).map Value.type = types[j]?) :
      Mismatched types args (.type i expected v.type)

theorem firstMismatch?_eq_some_iff (index : Nat) (slots : List FrameSlot) (args : List Value)
    {e : Mismatch} :
    firstMismatch? index slots args = some e ↔
      ∃ i expected v, (slots.map FrameSlot.type)[i]? = some expected ∧ args[i]? = some v ∧
        v.type ≠ expected ∧
        (∀ j < i, (args[j]?).map Value.type = (slots.map FrameSlot.type)[j]?) ∧
        e = .type (index + i) expected v.type := by
  induction slots generalizing args index with
  | nil => simp [firstMismatch?]
  | cons slot slots ih =>
      cases args with
      | nil => simp [firstMismatch?]
      | cons v args =>
          rw [firstMismatch?]
          split
          · next hv =>
              rw [ih]
              constructor
              · rintro ⟨i, expected, w, hexpected, hw, hne, hleast, rfl⟩
                rw [Nat.add_right_comm]
                refine ⟨i + 1, expected, w, hexpected, hw, hne, ?_, rfl⟩
                rintro (_ | j) hj
                · exact congrArg some hv
                · exact hleast j (Nat.lt_of_succ_lt_succ hj)
              · rintro ⟨_ | i, expected, w, hexpected, hw, hne, hleast, rfl⟩
                · cases hexpected
                  cases hw
                  exact absurd hv hne
                · refine ⟨i, expected, w, hexpected, hw, hne, ?_, ?_⟩
                  · intro j hj
                    exact hleast (j + 1) (Nat.succ_lt_succ hj)
                  · rw [Nat.add_right_comm]
                    rfl
          · next hv =>
              constructor
              · rintro ⟨⟩
                exact ⟨0, _, _, rfl, rfl, hv, fun _ h => absurd h (Nat.not_lt_zero _), rfl⟩
              · rintro ⟨_ | i, expected, w, hexpected, hw, hne, hleast, rfl⟩
                · cases hexpected
                  cases hw
                  rfl
                · exact absurd (Option.some.inj (hleast 0 (Nat.succ_pos i))) hv

theorem types_of_firstMismatch? {slots : List FrameSlot} {args : List Value} {index : Nat}
    (hlen : args.length = slots.length) (h : firstMismatch? index slots args = none) :
    args.map Value.type = slots.map FrameSlot.type := by
  induction slots generalizing args index with
  | nil => rw [List.length_eq_zero_iff.1 hlen]; rfl
  | cons slot slots ih =>
      cases args with
      | nil => cases hlen
      | cons v args =>
          rw [firstMismatch?] at h
          split at h
          · next hv => exact congrArg₂ List.cons hv (ih (Nat.succ.inj hlen) h)
          · cases h

end Frame

namespace Signature

variable {sig : Signature} {limits : Limits} {args : List Value}

theorem ofArgs_eq_error_iff {e : Frame.Mismatch} :
    Frame.ofArgs sig.layout args = .error e ↔ Frame.Mismatched sig.args args e := by
  have harity : sig.layout.arity = sig.args.length := sig.length_slots
  have hsearch := Frame.firstMismatch?_eq_some_iff 0 sig.layout.slots args (e := e)
  rw [types_layout] at hsearch
  rw [Frame.ofArgs, harity]
  split
  · next hne =>
      constructor
      · rintro ⟨⟩
        exact .arity hne
      · rintro (_ | ⟨agree⟩)
        · rfl
        · exact absurd agree hne
  · next heq =>
      rw [not_not] at heq
      constructor
      · intro h
        split at h
        · next hsome =>
            cases h
            obtain ⟨i, expected, v, hexpected, hv, hne, hleast, rfl⟩ := hsearch.1 hsome
            rw [Nat.zero_add]
            exact .type heq hexpected hv hne hleast
        · cases h
      · rintro (hne | ⟨-, hexpected, hv, hne, hleast⟩)
        · exact absurd heq hne
        · rw [hsearch.2 ⟨_, _, _, hexpected, hv, hne, hleast, by rw [Nat.zero_add]⟩]

theorem types_of_ofArgs {frame : Frame} (h : Frame.ofArgs sig.layout args = .ok frame) :
    args.map Value.type = sig.args := by
  rw [Frame.ofArgs] at h
  split at h
  · cases h
  · next heq =>
      split at h
      · cases h
      · next hnone =>
          rw [← types_layout]
          exact Frame.types_of_firstMismatch? (not_not.1 heq) hnone

theorem ofArgs_eq_ok_iff {frame : Frame} :
    Frame.ofArgs sig.layout args = .ok frame ↔
      args.map Value.type = sig.args ∧ sig.frameOf args = frame := by
  constructor
  · intro h
    have htypes := types_of_ofArgs h
    exact ⟨htypes, Except.ok.inj ((ofArgs_of_types htypes).symm.trans h)⟩
  · rintro ⟨htypes, rfl⟩
    exact ofArgs_of_types htypes

theorem planFor_eq_ok_iff {registers : Option Registers} {plan : Plan} :
    sig.planFor limits registers = .ok plan ↔
      sig.arity ≤ limits.maxArity ∧ sig.planOf registers = plan := by
  rcases Nat.lt_or_ge limits.maxArity sig.arity with hlt | hge
  · rw [planFor_of_lt hlt]
    constructor
    · rintro ⟨⟩
    · rintro ⟨hge, -⟩
      exact absurd hlt (Nat.not_lt.2 hge)
  · rw [planFor_of_le hge, Except.ok.injEq]
    exact (and_iff_right hge).symm

def Accepts (sig : Signature) (limits : Limits) (args : List Value) : Prop :=
  sig.arity ≤ limits.maxArity ∧ args.map Value.type = sig.args

instance (sig : Signature) (limits : Limits) (args : List Value) :
    Decidable (sig.Accepts limits args) :=
  inferInstanceAs (Decidable (_ ∧ _))

inductive Rejects (sig : Signature) (limits : Limits) (args : List Value) : Rejection → Prop where
  | tooMany (beyond : limits.maxArity < sig.arity) :
      Rejects sig limits args (.signature (.tooManyArguments sig.arity limits.maxArity))
  | mismatched {e : Frame.Mismatch} (within : sig.arity ≤ limits.maxArity)
      (mismatched : Frame.Mismatched sig.args args e) : Rejects sig limits args (.argument e)

def rejection? (sig : Signature) (limits : Limits) (args : List Value) : Option Rejection :=
  match sig.plan limits with
  | .error e => some (.signature e)
  | .ok plan =>
      match Frame.ofArgs plan.layout args with
      | .error e => some (.argument e)
      | .ok _ => none

theorem rejection?_of_lt (beyond : limits.maxArity < sig.arity) :
    sig.rejection? limits args =
      some (.signature (.tooManyArguments sig.arity limits.maxArity)) := by
  rw [rejection?, plan, planFor_of_lt beyond]

theorem rejection?_of_le (within : sig.arity ≤ limits.maxArity) :
    sig.rejection? limits args =
      match Frame.ofArgs sig.layout args with
      | .error e => some (.argument e)
      | .ok _ => none := by
  rw [rejection?, plan, planFor_of_le within]
  rfl

theorem rejection?_eq_some_iff {e : Rejection} :
    sig.rejection? limits args = some e ↔ sig.Rejects limits args e := by
  rcases Nat.lt_or_ge limits.maxArity sig.arity with beyond | within
  · rw [rejection?_of_lt beyond]
    constructor
    · rintro ⟨⟩
      exact .tooMany beyond
    · rintro (_ | ⟨within, _⟩)
      · rfl
      · exact absurd beyond (Nat.not_lt.2 within)
  · rw [rejection?_of_le within]
    constructor
    · intro h
      split at h
      · next hframe =>
          cases h
          exact .mismatched within (ofArgs_eq_error_iff.1 hframe)
      · cases h
    · rintro (beyond | ⟨_, mismatched⟩)
      · exact absurd beyond (Nat.not_lt.2 within)
      · rw [ofArgs_eq_error_iff.2 mismatched]

example :
    let sig : Signature := ⟨[.u8, .i32], .void, by decide⟩
    sig.rejection? .standard [.i8 0, .u32 0] = some (.argument (.type 0 .u8 .i8)) := by
  decide

theorem rejection?_eq_none_iff : sig.rejection? limits args = none ↔ sig.Accepts limits args := by
  rcases Nat.lt_or_ge limits.maxArity sig.arity with beyond | within
  · rw [rejection?_of_lt beyond]
    constructor
    · rintro ⟨⟩
    · rintro ⟨within, -⟩
      exact absurd beyond (Nat.not_lt.2 within)
  · rw [rejection?_of_le within]
    constructor
    · intro h
      split at h
      · cases h
      · next hframe => exact ⟨within, types_of_ofArgs hframe⟩
    · rintro ⟨-, htypes⟩
      rw [ofArgs_of_types htypes]

theorem accepts_or_rejects (sig : Signature) (limits : Limits) (args : List Value) :
    sig.Accepts limits args ∨ ∃ e, sig.Rejects limits args e := by
  cases h : sig.rejection? limits args with
  | none => exact .inl (rejection?_eq_none_iff.1 h)
  | some e => exact .inr ⟨e, rejection?_eq_some_iff.1 h⟩

theorem Accepts.not_rejects {e : Rejection} (h : sig.Accepts limits args) :
    ¬sig.Rejects limits args e := by
  intro hrejects
  have hsome := rejection?_eq_some_iff.2 hrejects
  rw [rejection?_eq_none_iff.2 h] at hsome
  cases hsome

theorem Rejects.unique {e e' : Rejection} (h : sig.Rejects limits args e)
    (h' : sig.Rejects limits args e') : e = e' :=
  Option.some.inj ((rejection?_eq_some_iff.2 h).symm.trans (rejection?_eq_some_iff.2 h'))

end Signature

end ForeignCall
