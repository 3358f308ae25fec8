import ForeignCall.Cache
import ForeignCall.Proofs.Trampoline
import Mathlib.Data.List.Nodup

namespace ForeignCall.Cache

def shapes (cache : Cache) : List Shape :=
  cache.slots.map CacheSlot.shape

theorem slotOf?_eq (cache : Cache) (shape : Shape) :
    cache.slotOf? shape = cache.shapes.idxOf? shape := by
  rw [slotOf?, shapes, List.idxOf?, List.findIdx?_map]
  rfl

theorem slotOf?_eq_none_iff {cache : Cache} {shape : Shape} :
    cache.slotOf? shape = none ↔ shape ∉ cache.shapes := by
  rw [slotOf?_eq, List.idxOf?_eq_none_iff]

theorem shape_of_slotOf? {cache : Cache} {shape : Shape} {slot : Nat}
    (h : cache.slotOf? shape = some slot) : cache.shapes[slot]? = some shape := by
  rw [slotOf?_eq, List.idxOf?] at h
  obtain ⟨hlt, heq, -⟩ := List.findIdx?_eq_some_iff_getElem.1 h
  rw [List.getElem?_eq_getElem hlt, beq_iff_eq.1 heq]

theorem shape_unique {cache : Cache} {shape other : Shape} {slot : Nat}
    (h : cache.slotOf? shape = some slot) (hother : cache.slotOf? other = some slot) :
    shape = other :=
  Option.some.inj ((shape_of_slotOf? h).symm.trans (shape_of_slotOf? hother))

theorem find?_of_slotOf? {cache : Cache} {shape : Shape} {slot : Nat}
    (h : cache.slotOf? shape = some slot) : cache.find? shape = cache.ready? slot := by
  simp [find?, h]

theorem find?_of_not_mem {cache : Cache} {shape : Shape} (h : shape ∉ cache.shapes) :
    cache.find? shape = none := by
  simp [find?, slotOf?_eq_none_iff.2 h]

theorem mem_shapes_of_find? {cache : Cache} {shape : Shape} {t : Trampoline}
    (h : cache.find? shape = some t) : shape ∈ cache.shapes := by
  by_contra hmem
  rw [find?_of_not_mem hmem] at h
  cases h

theorem size_eq_length_shapes (cache : Cache) : cache.size = cache.shapes.length := by
  simp [size, shapes]

theorem claim_of_some {cache : Cache} {shape : Shape} {slot : Nat}
    (h : cache.slotOf? shape = some slot) : cache.claim shape = (slot, cache) := by
  simp only [claim, h]

theorem claim_of_none {cache : Cache} {shape : Shape} (h : cache.slotOf? shape = none) :
    cache.claim shape =
      (cache.size, { cache with slots := cache.slots ++ [⟨shape, none⟩] }) := by
  simp only [claim, h]

section Counters

variable (cache : Cache) (shape : Shape)

@[simp]
theorem generator_claim : (cache.claim shape).2.generator = cache.generator := by
  unfold claim
  split <;> rfl

@[simp]
theorem builds_claim : (cache.claim shape).2.builds = cache.builds := by
  unfold claim
  split <;> rfl

@[simp]
theorem hits_claim : (cache.claim shape).2.hits = cache.hits := by
  unfold claim
  split <;> rfl

@[simp]
theorem attempts_claim : (cache.claim shape).2.attempts = cache.attempts := by
  unfold claim
  split <;> rfl

end Counters

theorem shapes_claim (cache : Cache) (shape : Shape) :
    (cache.claim shape).2.shapes =
      if shape ∈ cache.shapes then cache.shapes else cache.shapes ++ [shape] := by
  cases h : cache.slotOf? shape with
  | some slot =>
      have hmem : shape ∈ cache.shapes := List.mem_of_getElem? (shape_of_slotOf? h)
      rw [claim_of_some h, if_pos hmem]
  | none =>
      rw [claim_of_none h, if_neg (slotOf?_eq_none_iff.1 h)]
      simp [shapes]

theorem mem_shapes_claim {cache : Cache} {shape other : Shape} :
    other ∈ (cache.claim shape).2.shapes ↔ other = shape ∨ other ∈ cache.shapes := by
  rw [shapes_claim]
  split
  · next hmem =>
      refine ⟨Or.inr, ?_⟩
      rintro (rfl | h)
      · exact hmem
      · exact h
  · rw [List.mem_append, List.mem_singleton, or_comm]

theorem nodup_shapes_claim {cache : Cache} (shape : Shape) (h : cache.shapes.Nodup) :
    (cache.claim shape).2.shapes.Nodup := by
  rw [shapes_claim]
  split
  · exact h
  · next hmem =>
      rw [List.nodup_append]
      refine ⟨h, by simp, ?_⟩
      intro a ha b hb
      rw [List.mem_singleton] at hb
      rintro rfl
      exact hmem (hb ▸ ha)

theorem slotOf?_claim_self (cache : Cache) (shape : Shape) :
    (cache.claim shape).2.slotOf? shape = some (cache.claim shape).1 := by
  cases h : cache.slotOf? shape with
  | some slot => rw [claim_of_some h, h]
  | none =>
      rw [claim_of_none h]
      rw [slotOf?] at h
      simp [slotOf?, List.findIdx?_append, h, size]

theorem slotOf?_claim {cache : Cache} {other : Shape} {slot : Nat} (shape : Shape)
    (hother : cache.slotOf? other = some slot) :
    (cache.claim shape).2.slotOf? other = some slot := by
  cases h : cache.slotOf? shape with
  | some _ => rwa [claim_of_some h]
  | none =>
      rw [claim_of_none h]
      rw [slotOf?] at hother
      simp [slotOf?, List.findIdx?_append, hother]

@[simp]
theorem ready?_claim (cache : Cache) (shape : Shape) (slot : Nat) :
    (cache.claim shape).2.ready? slot = cache.ready? slot := by
  cases h : cache.slotOf? shape with
  | some _ => rw [claim_of_some h]
  | none =>
      rw [claim_of_none h]
      simp only [ready?, List.getElem?_append]
      split
      · rfl
      · next hge =>
          rw [List.getElem?_eq_none (Nat.le_of_not_lt hge)]
          cases slot - cache.slots.length <;> rfl

@[simp]
theorem find?_claimed (cache : Cache) (shape other : Shape) :
    (cache.claim shape).2.find? other = cache.find? other := by
  by_cases hother : other = shape
  · subst hother
    rw [find?_of_slotOf? (cache.slotOf?_claim_self other), find?_claim]
  · cases h : cache.slotOf? other with
    | some slot =>
        rw [find?_of_slotOf? (slotOf?_claim shape h), find?_of_slotOf? h, ready?_claim]
    | none =>
        have hmem : other ∉ (cache.claim shape).2.shapes := by
          rw [mem_shapes_claim, not_or]
          exact ⟨hother, slotOf?_eq_none_iff.1 h⟩
        rw [find?_of_not_mem hmem, find?_of_not_mem (slotOf?_eq_none_iff.1 h)]

@[simp]
theorem shapes_fill (cache : Cache) (slot : Nat) (t : Trampoline) :
    (cache.fill slot t).shapes = cache.shapes := by
  apply List.ext_getElem?
  intro i
  simp only [fill, shapes, List.getElem?_map, List.getElem?_modify]
  split <;> cases cache.slots[i]? <;> rfl

@[simp]
theorem slotOf?_fill (cache : Cache) (slot : Nat) (t : Trampoline) (shape : Shape) :
    (cache.fill slot t).slotOf? shape = cache.slotOf? shape := by
  rw [slotOf?_eq, slotOf?_eq, shapes_fill]

theorem ready?_fill_self {cache : Cache} {slot : Nat} {shape : Shape} (t : Trampoline)
    (h : cache.slotOf? shape = some slot) :
    (cache.fill slot t).ready? slot = (cache.ready? slot).or (some t) := by
  obtain ⟨hlt, -⟩ := List.getElem?_eq_some_iff.1 (shape_of_slotOf? h)
  rw [shapes, List.length_map] at hlt
  simp [fill, ready?, List.getElem?_eq_getElem hlt]

theorem ready?_fill_of_ne {cache : Cache} {slot other : Nat} (t : Trampoline)
    (h : other ≠ slot) : (cache.fill slot t).ready? other = cache.ready? other := by
  simp [fill, ready?, Ne.symm h]

theorem find?_fill_self {cache : Cache} {slot : Nat} {shape : Shape} (t : Trampoline)
    (h : cache.slotOf? shape = some slot) :
    (cache.fill slot t).find? shape = (cache.find? shape).or (some t) := by
  rw [find?_of_slotOf? ((cache.slotOf?_fill slot t shape).trans h), ready?_fill_self t h,
    find?_of_slotOf? h]

theorem find?_fill_of_ne {cache : Cache} {slot : Nat} {shape other : Shape} (t : Trampoline)
    (h : cache.slotOf? shape = some slot) (hne : other ≠ shape) :
    (cache.fill slot t).find? other = cache.find? other := by
  cases hother : cache.slotOf? other with
  | some i =>
      have hi : i ≠ slot := by
        rintro rfl
        exact hne (shape_unique hother h)
      rw [find?_of_slotOf? ((cache.slotOf?_fill slot t other).trans hother),
        ready?_fill_of_ne t hi, find?_of_slotOf? hother]
  | none =>
      have hmem := slotOf?_eq_none_iff.1 hother
      rw [find?_of_not_mem hmem, find?_of_not_mem (by rwa [shapes_fill])]

theorem find?_of_mem {cache : Cache} {slot : CacheSlot} (hnodup : cache.shapes.Nodup)
    (hslot : slot ∈ cache.slots) : cache.find? slot.shape = slot.ready := by
  obtain ⟨i, hlt, rfl⟩ := List.getElem_of_mem hslot
  have hi : i < cache.shapes.length := by
    rw [← size_eq_length_shapes]
    exact hlt
  have hshape : cache.shapes[i] = cache.slots[i].shape := by
    simp [shapes]
  have howner : cache.slotOf? cache.slots[i].shape = some i := by
    rw [slotOf?_eq, ← hshape, List.idxOf?_eq_some_iff]
    exact ⟨hi, by simp, fun j hj => by simpa using hnodup.getElem_inj_iff.not.2 (Nat.ne_of_lt hj)⟩
  rw [find?_of_slotOf? howner, ready?, List.getElem?_eq_getElem hlt]
  rfl

theorem exists_slotOf? {cache : Cache} {shape : Shape} {t : Trampoline}
    (h : cache.find? shape = some t) :
    ∃ slot, cache.slotOf? shape = some slot ∧ cache.ready? slot = some t := by
  obtain ⟨slot, hslot⟩ := Option.ne_none_iff_exists'.1 (fun hnone =>
    slotOf?_eq_none_iff.1 hnone (mem_shapes_of_find? h))
  rw [find?_of_slotOf? hslot] at h
  exact ⟨slot, hslot, h⟩

theorem lookup_of_find? {cache : Cache} {shape : Shape} {t : Trampoline}
    (h : cache.find? shape = some t) :
    cache.lookup shape = (.ok (t, .hit), cache.countHit) := by
  obtain ⟨slot, hslot, hready⟩ := exists_slotOf? h
  simp only [lookup, claim_of_some hslot, hready]

def tried (cache : Cache) (shape : Shape) : Cache :=
  ((cache.claim shape).2.attempt shape).2

theorem lookup_of_absent {cache : Cache} {shape : Shape} (h : cache.find? shape = none) :
    cache.lookup shape =
      match Trampoline.build cache.generator cache.attempts shape with
      | .error e => (.error e, cache.tried shape)
      | .ok t =>
          (.ok (t, .built), ((cache.tried shape).fill (cache.claim shape).1 t).countBuild) := by
  have hready := cache.find?_claim shape
  rw [h] at hready
  have hattempt : (cache.claim shape).2.attempt shape =
      (Trampoline.build cache.generator cache.attempts shape, cache.tried shape) := by
    rw [tried, attempt, generator_claim, attempts_claim]
  simp only [lookup, hready, hattempt]
  cases Trampoline.build cache.generator cache.attempts shape <;> rfl

structure Attempted (cache : Cache) (shape : Shape) (built : Option Trampoline) (after : Cache) :
    Prop where
  generator_eq : after.generator = cache.generator
  shapes_eq : after.shapes =
    if shape ∈ cache.shapes then cache.shapes else cache.shapes ++ [shape]
  find?_self : after.find? shape = built
  find?_of_ne : ∀ other, other ≠ shape → after.find? other = cache.find? other
  attempts_eq : after.attempts = cache.attempts + 1
  builds_eq : after.builds = cache.builds + if built.isSome then 1 else 0
  hits_eq : after.hits = cache.hits

theorem attempted_tried {cache : Cache} {shape : Shape} (h : cache.find? shape = none) :
    cache.Attempted shape none (cache.tried shape) where
  generator_eq := generator_claim cache shape
  shapes_eq := shapes_claim cache shape
  find?_self := (find?_claimed cache shape shape).trans h
  find?_of_ne := fun other _ => find?_claimed cache shape other
  attempts_eq := congrArg (· + 1) (attempts_claim cache shape)
  builds_eq := builds_claim cache shape
  hits_eq := hits_claim cache shape

theorem Attempted.fill {cache after : Cache} {shape : Shape} {slot : Nat} (t : Trampoline)
    (h : cache.Attempted shape none after) (hslot : after.slotOf? shape = some slot) :
    cache.Attempted shape (some t) (after.fill slot t).countBuild where
  generator_eq := h.generator_eq
  shapes_eq := (shapes_fill after slot t).trans h.shapes_eq
  find?_self := by
    have hfill := find?_fill_self t hslot
    rw [h.find?_self] at hfill
    exact hfill
  find?_of_ne := by
    intro other hne
    exact (find?_fill_of_ne t hslot hne).trans (h.find?_of_ne other hne)
  attempts_eq := h.attempts_eq
  builds_eq := congrArg (· + 1) h.builds_eq
  hits_eq := h.hits_eq

inductive Looked (cache : Cache) (shape : Shape) :
    Except BuildError (Trampoline × Outcome) × Cache → Prop where
  | hit {t : Trampoline} (found : cache.find? shape = some t) :
      Looked cache shape (.ok (t, .hit), cache.countHit)
  | built {t : Trampoline} {after : Cache} (absent : cache.find? shape = none)
      (build : Trampoline.build cache.generator cache.attempts shape = .ok t)
      (attempted : cache.Attempted shape (some t) after) :
      Looked cache shape (.ok (t, .built), after)
  | failed {e : BuildError} {after : Cache} (absent : cache.find? shape = none)
      (build : Trampoline.build cache.generator cache.attempts shape = .error e)
      (attempted : cache.Attempted shape none after) :
      Looked cache shape (.error e, after)

theorem looked (cache : Cache) (shape : Shape) :
    cache.Looked shape (cache.lookup shape) := by
  cases hfound : cache.find? shape with
  | some t =>
      rw [lookup_of_find? hfound]
      exact .hit hfound
  | none =>
      rw [lookup_of_absent hfound]
      cases hbuild : Trampoline.build cache.generator cache.attempts shape with
      | error e => exact .failed hfound hbuild (attempted_tried hfound)
      | ok t =>
          exact .built hfound hbuild
            ((attempted_tried hfound).fill t (cache.slotOf?_claim_self shape))

theorem Attempted.find?_eq_some_iff {cache after : Cache} {shape other : Shape}
    {built : Option Trampoline} {t : Trampoline} (h : cache.Attempted shape built after)
    (absent : cache.find? shape = none) :
    after.find? other = some t ↔
      cache.find? other = some t ∨ other = shape ∧ built = some t := by
  by_cases hother : other = shape
  · subst hother
    rw [h.find?_self, absent]
    simp
  · rw [h.find?_of_ne other hother]
    simp [hother]

theorem Attempted.mem_shapes {cache after : Cache} {shape other : Shape}
    {built : Option Trampoline} (h : cache.Attempted shape built after) :
    other ∈ after.shapes ↔ other = shape ∨ other ∈ cache.shapes := by
  rw [h.shapes_eq, ← shapes_claim, mem_shapes_claim]

theorem mem_shapes_lookup {cache : Cache} {shape other : Shape} :
    other ∈ (cache.lookup shape).2.shapes ↔ other = shape ∨ other ∈ cache.shapes := by
  have hlooked := cache.looked shape
  generalize cache.lookup shape = looked at hlooked ⊢
  cases hlooked with
  | hit found =>
      refine ⟨Or.inr, ?_⟩
      rintro (rfl | h)
      · exact mem_shapes_of_find? found
      · exact h
  | built _ _ attempted | failed _ _ attempted => exact attempted.mem_shapes

theorem Attempted.nodup_shapes {cache after : Cache} {shape : Shape} {built : Option Trampoline}
    (h : cache.Attempted shape built after) (hnodup : cache.shapes.Nodup) :
    after.shapes.Nodup := by
  rw [h.shapes_eq, ← shapes_claim]
  exact nodup_shapes_claim shape hnodup

-- Holds of every cache that lookups have made: each trampoline was built for the shape that it is
-- stored under, by an attempt of its own.
structure Sound (cache : Cache) : Prop where
  nodup : cache.shapes.Nodup
  made : ∀ shape t, cache.find? shape = some t → t.For shape
  issued : ∀ shape t, cache.find? shape = some t → t.serial < cache.attempts
  distinct : ∀ shape other t u, cache.find? shape = some t → cache.find? other = some u →
    t.serial = u.serial → shape = other

theorem sound_empty (generator : Generator) : (empty generator).Sound where
  nodup := List.nodup_nil
  made := fun _ _ h => nomatch h
  issued := fun _ _ h => nomatch h
  distinct := fun _ _ _ _ h => nomatch h

theorem Sound.countHit {cache : Cache} (h : cache.Sound) : cache.countHit.Sound :=
  ⟨h.nodup, h.made, h.issued, h.distinct⟩

theorem Sound.attempted {cache after : Cache} {shape : Shape} {built : Option Trampoline}
    (hsound : cache.Sound) (absent : cache.find? shape = none)
    (h : cache.Attempted shape built after) (hmade : ∀ t, built = some t → t.For shape)
    (hserial : ∀ t, built = some t → t.serial = cache.attempts) : after.Sound where
  nodup := h.nodup_shapes hsound.nodup
  made := by
    intro other t ht
    rcases (h.find?_eq_some_iff absent).1 ht with hold | ⟨rfl, hbuilt⟩
    · exact hsound.made other t hold
    · exact hmade t hbuilt
  issued := by
    intro other t ht
    rw [h.attempts_eq]
    rcases (h.find?_eq_some_iff absent).1 ht with hold | ⟨-, hbuilt⟩
    · exact Nat.lt_succ_of_lt (hsound.issued other t hold)
    · exact Nat.lt_succ_of_le (Nat.le_of_eq (hserial t hbuilt))
  distinct := by
    intro other another t u ht hu hserials
    rcases (h.find?_eq_some_iff absent).1 ht with hold | ⟨rfl, hbuilt⟩ <;>
      rcases (h.find?_eq_some_iff absent).1 hu with hold' | ⟨rfl, hbuilt'⟩
    · exact hsound.distinct other another t u hold hold' hserials
    · have := hsound.issued other t hold
      have := hserial u hbuilt'
      omega
    · have := hsound.issued another u hold'
      have := hserial t hbuilt
      omega
    · rfl

theorem Sound.lookup {cache : Cache} (h : cache.Sound) (shape : Shape) :
    (cache.lookup shape).2.Sound := by
  have hlooked := cache.looked shape
  generalize cache.lookup shape = looked at hlooked ⊢
  cases hlooked with
  | hit _ => exact h.countHit
  | built absent hbuild hattempted =>
      refine h.attempted absent hattempted ?_ ?_
      · rintro _ ⟨⟩
        exact Trampoline.for_of_build hbuild
      · rintro _ ⟨⟩
        rw [Trampoline.eq_of_build hbuild]
  | failed absent _ hattempted =>
      exact h.attempted absent hattempted (fun _ h => nomatch h) (fun _ h => nomatch h)

end ForeignCall.Cache
