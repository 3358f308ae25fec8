import ForeignCall.Profile.Label
import ForeignCall.Proofs.Naming

namespace ForeignCall

theorem Text.eq_of_first_cut {c : Char} {xs ys xs' ys' : List Char} (hxs : c ∉ xs) (hxs' : c ∉ xs')
    (h : xs ++ c :: ys = xs' ++ c :: ys') : xs = xs' ∧ ys = ys' := by
  have hfirst (front back : List Char) (hfront : c ∉ front) :
      (front ++ c :: back).takeWhile (· ≠ c) = front := by
    have hall : ∀ d ∈ front, decide (d ≠ c) = true := by
      intro d hd
      refine decide_eq_true ?_
      rintro rfl
      exact hfront hd
    rw [List.takeWhile_append_of_pos hall, List.takeWhile_cons_of_neg (by simp), List.append_nil]
  have hcut : xs = xs' := by
    rw [← hfirst xs ys hxs, h, hfirst xs' ys' hxs']
  subst hcut
  exact ⟨rfl, (List.cons.inj (List.append_cancel_left h)).2⟩

namespace Address

theorem toList_text (a : Address) :
    a.text.toList = '0' :: 'x' :: Nat.toDigits 16 a.word.toNat := by
  simp [text]

theorem blank_not_mem_text (a : Address) : ' ' ∉ a.text.toList := by
  simp [toList_text, not_mem_toDigits]

theorem eq_of_text {a b : Address} (h : a.text.toList = b.text.toList) : a = b := by
  rw [toList_text, toList_text] at h
  have hdigits := (List.cons.inj (List.cons.inj h).2).2
  have hword : a.word.toNat = b.word.toNat :=
    toDigits_injective (by decide) (by decide) hdigits
  rw [mk.injEq]
  exact UInt64.toNat_inj.1 hword

end Address

namespace Profile

theorem toList_addressLabel (callee : Address) (sig : Signature) :
    (addressLabel callee sig).toList =
      "native:".toList ++ (callee.text.toList ++ ' ' :: sig.text.toList) := by
  simp [addressLabel]

theorem addressLabel_eq_iff (a b : Address) (s t : Signature) :
    addressLabel a s = addressLabel b t ↔ a = b ∧ s = t := by
  constructor
  · intro h
    have hlists := congrArg String.toList h
    rw [toList_addressLabel, toList_addressLabel] at hlists
    obtain ⟨haddress, hsig⟩ := Text.eq_of_first_cut a.blank_not_mem_text b.blank_not_mem_text
      (List.append_cancel_left hlists)
    exact ⟨Address.eq_of_text haddress, Signature.eq_of_text (String.toList_inj.1 hsig)⟩
  · rintro ⟨rfl, rfl⟩
    rfl

example : addressLabel ⟨0x1f, by decide⟩ ⟨[], .void, by decide⟩ = "native:0x1f () -> void" := by
  decide

end Profile

end ForeignCall
