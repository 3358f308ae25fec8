import ForeignCall.Proofs.Cache
import Mathlib.Data.Finset.Card

namespace ForeignCall.Cache

inductive Operation where
  | lookup (shape : Shape)
  | find (shape : Shape)
  | size
  | isEmpty
  | counters
  deriving DecidableEq, Repr

inductive Entry where
  | lookup (shape : Shape) (result : Except BuildError (Trampoline × Outcome))
  | find (shape : Shape) (found : Option Trampoline)
  | size (shapes : Nat)
  | isEmpty (empty : Bool)
  | counters (shown : Counters)

def perform (cache : Cache) : Operation → Entry × Cache
  | .lookup shape => (.lookup shape (cache.lookup shape).1, (cache.lookup shape).2)
  | .find shape => (.find shape (cache.find? shape), cache)
  | .size => (.size cache.size, cache)
  | .isEmpty => (.isEmpty cache.isEmpty, cache)
  | .counters => (.counters cache.counters, cache)

def record (cache : Cache) : List Operation → List Entry × Cache
  | [] => ([], cache)
  | operation :: operations =>
      let (entry, cache) := cache.perform operation
      let (log, cache) := cache.record operations
      (entry :: log, cache)

section Log

def Entry.attempted? : Entry → Option Shape
  | .lookup shape _ => some shape
  | _ => none

def Entry.succeeded? : Entry → Option Shape
  | .lookup shape (.ok _) => some shape
  | _ => none

def Entry.missed : Entry → Bool
  | .lookup _ (.ok (_, .hit)) => false
  | .lookup _ _ => true
  | _ => false

def attempted (log : List Entry) : List Shape :=
  log.filterMap Entry.attempted?

def succeeded (log : List Entry) : List Shape :=
  log.filterMap Entry.succeeded?

def misses (log : List Entry) : Nat :=
  log.countP Entry.missed

def Returned (log : List Entry) (shape : Shape) (t : Trampoline) : Prop :=
  (∃ outcome, .lookup shape (.ok (t, outcome)) ∈ log) ∨ .find shape (some t) ∈ log

def Counted (log : List Entry) (shown : Counters) : Prop :=
  shown.shapes = (attempted log).toFinset.card ∧
    shown.builds.toNat = (succeeded log).toFinset.card ∧
    shown.builds.toNat + shown.hits.toNat = (succeeded log).length

theorem length_succeeded_le (log : List Entry) :
    (succeeded log).length ≤ (attempted log).length := by
  induction log with
  | nil => exact Nat.le_refl 0
  | cons entry log ih =>
      rcases entry with ⟨shape, _ | _⟩ | _ | _ | _ | _ <;>
        simp only [succeeded, attempted, List.filterMap_cons, Entry.succeeded?,
          Entry.attempted?, List.length_cons] at ih ⊢ <;> omega

theorem attempted_append (log : List Entry) (entry : Entry) :
    attempted (log ++ [entry]) = attempted log ++ entry.attempted?.toList := by
  rw [attempted, attempted, List.filterMap_append]
  rfl

theorem succeeded_append (log : List Entry) (entry : Entry) :
    succeeded (log ++ [entry]) = succeeded log ++ entry.succeeded?.toList := by
  rw [succeeded, succeeded, List.filterMap_append]
  rfl

theorem misses_append (log : List Entry) (entry : Entry) :
    misses (log ++ [entry]) = misses log + if entry.missed then 1 else 0 := by
  rw [misses, misses, List.countP_append, List.countP_singleton]

theorem returned_append {log : List Entry} {entry : Entry} {shape : Shape} {t : Trampoline} :
    Returned (log ++ [entry]) shape t ↔ Returned log shape t ∨ Returned [entry] shape t := by
  simp only [Returned, List.mem_append]
  constructor
  · rintro (⟨outcome, h | h⟩ | h | h)
    · exact Or.inl (Or.inl ⟨outcome, h⟩)
    · exact Or.inr (Or.inl ⟨outcome, h⟩)
    · exact Or.inl (Or.inr h)
    · exact Or.inr (Or.inr h)
  · rintro ((⟨outcome, h⟩ | h) | ⟨outcome, h⟩ | h)
    · exact Or.inl ⟨outcome, Or.inl h⟩
    · exact Or.inr (Or.inl h)
    · exact Or.inl ⟨outcome, Or.inr h⟩
    · exact Or.inr (Or.inr h)

theorem returned_lookup {shape other : Shape} {t : Trampoline}
    {result : Except BuildError (Trampoline × Outcome)} :
    Returned [.lookup shape result] other t ↔
      other = shape ∧ ∃ outcome, result = .ok (t, outcome) := by
  simp [Returned, eq_comm]

theorem card_toFinset_append (shapes : List Shape) (shape : Shape) :
    (shapes ++ [shape]).toFinset.card =
      shapes.toFinset.card + if shape ∈ shapes then 0 else 1 := by
  have hinsert : (shapes ++ [shape]).toFinset = insert shape shapes.toFinset := by
    ext other
    simp
  rw [hinsert]
  split
  · next hmem => rw [Finset.insert_eq_of_mem (List.mem_toFinset.2 hmem), Nat.add_zero]
  · next hmem => rw [Finset.card_insert_of_notMem (by rwa [List.mem_toFinset])]

theorem mem_succeeded_lookup {shape other : Shape}
    {result : Except BuildError (Trampoline × Outcome)} :
    other ∈ (Entry.lookup shape result).succeeded?.toList ↔
      other = shape ∧ ∃ t outcome, result = .ok (t, outcome) := by
  rcases result with e | ⟨t, outcome⟩ <;> simp [Entry.succeeded?]

end Log

section Reply

def Entry.Explained (generator : Generator) (past : List Entry) : Entry → Prop
  | .lookup shape result =>
      (shape ∈ succeeded past → ∃ t, Returned past shape t ∧ result = .ok (t, .hit)) ∧
        (shape ∉ succeeded past →
          result = (Trampoline.build generator (misses past) shape).map fun t => (t, .built))
  | .find shape found =>
      (found.isSome ↔ shape ∈ succeeded past) ∧ ∀ t, found = some t → Returned past shape t
  | .size shapes => shapes = (attempted past).toFinset.card
  | .isEmpty empty => empty = true ↔ attempted past = []
  | .counters shown => Counted past shown

structure Tracked (generator : Generator) (log : List Entry) (cache : Cache) : Prop where
  generator_eq : cache.generator = generator
  sound : cache.Sound
  mem_shapes : ∀ shape, shape ∈ cache.shapes ↔ shape ∈ attempted log
  mem_succeeded : ∀ shape, shape ∈ succeeded log ↔ ∃ t, cache.find? shape = some t
  find?_iff : ∀ shape t, cache.find? shape = some t ↔ Returned log shape t
  attempts_eq : cache.attempts = misses log
  builds_eq : cache.builds = (succeeded log).toFinset.card
  hits_eq : cache.builds + cache.hits = (succeeded log).length

variable {generator : Generator} {log : List Entry} {cache : Cache}

theorem tracked_empty (generator : Generator) : Tracked generator [] (empty generator) where
  generator_eq := rfl
  sound := sound_empty generator
  mem_shapes := fun _ => Iff.rfl
  mem_succeeded := by simp [succeeded, find?_empty]
  find?_iff := by simp [Returned, find?_empty]
  attempts_eq := rfl
  builds_eq := rfl
  hits_eq := rfl

namespace Tracked

theorem size_eq (h : Tracked generator log cache) :
    cache.size = (attempted log).toFinset.card := by
  rw [size_eq_length_shapes, ← List.toFinset_card_of_nodup h.sound.nodup]
  congr 1
  ext shape
  rw [List.mem_toFinset, List.mem_toFinset, h.mem_shapes]

theorem counted (h : Tracked generator log cache) (hfew : (attempted log).length < UInt64.size) :
    Counted log cache.counters := by
  have hsize : (succeeded log).length < UInt64.size :=
    Nat.lt_of_le_of_lt (length_succeeded_le log) hfew
  have hbuilds := h.builds_eq
  have hhits := h.hits_eq
  have hbuildsWord : cache.counters.builds.toNat = cache.builds :=
    UInt64.toNat_ofNat_of_lt' (by omega)
  have hhitsWord : cache.counters.hits.toNat = cache.hits :=
    UInt64.toNat_ofNat_of_lt' (by omega)
  exact ⟨h.size_eq, hbuildsWord.trans hbuilds, by rw [hbuildsWord, hhitsWord, hhits]⟩

theorem not_mem_succeeded (h : Tracked generator log cache) {shape : Shape}
    (absent : cache.find? shape = none) : shape ∉ succeeded log := by
  intro hmem
  obtain ⟨t, ht⟩ := (h.mem_succeeded shape).1 hmem
  rw [absent] at ht
  cases ht

theorem explained (h : Tracked generator log cache) (hfew : (attempted log).length < UInt64.size)
    (operation : Operation) : (cache.perform operation).1.Explained generator log := by
  cases operation with
  | lookup shape =>
      change Entry.Explained generator log (.lookup shape (cache.lookup shape).1)
      have hlooked := cache.looked shape
      generalize cache.lookup shape = looked at hlooked ⊢
      cases hlooked with
      | hit found =>
          refine ⟨fun _ => ⟨_, (h.find?_iff ..).1 found, rfl⟩, fun hnot => ?_⟩
          exact absurd ((h.mem_succeeded shape).2 ⟨_, found⟩) hnot
      | built absent build _ | failed absent build _ =>
          refine ⟨fun hmem => absurd hmem (h.not_mem_succeeded absent), fun _ => ?_⟩
          rw [← h.generator_eq, ← h.attempts_eq, build]
          rfl
  | find shape =>
      refine ⟨?_, fun t ht => (h.find?_iff ..).1 ht⟩
      rw [h.mem_succeeded, Option.isSome_iff_exists]
  | size => exact h.size_eq
  | isEmpty =>
      change cache.slots.isEmpty = true ↔ attempted log = []
      rw [List.isEmpty_iff, ← List.map_eq_nil_iff (f := CacheSlot.shape),
        List.eq_nil_iff_forall_not_mem, List.eq_nil_iff_forall_not_mem]
      exact forall_congr' fun shape => not_congr (h.mem_shapes shape)
  | counters => exact h.counted hfew

theorem quiet (h : Tracked generator log cache) {entry : Entry}
    (hattempted : entry.attempted? = none) (hsucceeded : entry.succeeded? = none)
    (hmissed : entry.missed = false)
    (hreturned : ∀ shape t, Returned [entry] shape t → cache.find? shape = some t) :
    Tracked generator (log ++ [entry]) cache where
  generator_eq := h.generator_eq
  sound := h.sound
  mem_shapes := by simpa [attempted_append, hattempted] using h.mem_shapes
  mem_succeeded := by simpa [succeeded_append, hsucceeded] using h.mem_succeeded
  find?_iff := by
    intro shape t
    rw [returned_append, ← h.find?_iff]
    exact ⟨Or.inl, fun h => h.elim id (hreturned shape t)⟩
  attempts_eq := by simpa [misses_append, hmissed] using h.attempts_eq
  builds_eq := by simpa [succeeded_append, hsucceeded] using h.builds_eq
  hits_eq := by simpa [succeeded_append, hsucceeded] using h.hits_eq

theorem append (h : Tracked generator log cache) {shape : Shape}
    {result : Except BuildError (Trampoline × Outcome)} {after : Cache}
    (hgenerator : after.generator = cache.generator) (hsound : after.Sound)
    (hshapes : ∀ other, other ∈ after.shapes ↔ other = shape ∨ other ∈ cache.shapes)
    (hfind : ∀ other t, after.find? other = some t ↔
      cache.find? other = some t ∨ other = shape ∧ ∃ outcome, result = .ok (t, outcome))
    (hattempts : after.attempts = misses (log ++ [.lookup shape result]))
    (hbuilds : after.builds = (succeeded (log ++ [.lookup shape result])).toFinset.card)
    (hhits : after.builds + after.hits = (succeeded (log ++ [.lookup shape result])).length) :
    Tracked generator (log ++ [.lookup shape result]) after where
  generator_eq := hgenerator.trans h.generator_eq
  sound := hsound
  mem_shapes := by
    intro other
    rw [hshapes, h.mem_shapes, attempted_append, List.mem_append, or_comm]
    exact or_congr_right List.mem_singleton.symm
  mem_succeeded := by
    intro other
    simp only [succeeded_append, List.mem_append, mem_succeeded_lookup, h.mem_succeeded, hfind,
      exists_or, exists_and_left]
  find?_iff := by
    intro other t
    rw [hfind, h.find?_iff, returned_append, returned_lookup]
  attempts_eq := hattempts
  builds_eq := hbuilds
  hits_eq := hhits

theorem lookup (h : Tracked generator log cache) (shape : Shape) :
    Tracked generator (log ++ [.lookup shape (cache.lookup shape).1]) (cache.lookup shape).2 := by
  have hsound := h.sound.lookup shape
  have hlooked := cache.looked shape
  generalize cache.lookup shape = looked at hsound hlooked ⊢
  cases hlooked with
  | @hit t found =>
      refine h.append rfl hsound ?_ ?_ ?_ ?_ ?_
      · intro other
        refine ⟨Or.inr, fun hmem => hmem.elim ?_ id⟩
        rintro rfl
        exact mem_shapes_of_find? found
      · intro other u
        refine ⟨Or.inl, fun hmem => hmem.elim id ?_⟩
        rintro ⟨rfl, outcome, ⟨⟩⟩
        exact found
      · rw [misses_append]
        exact h.attempts_eq
      · have hmem : shape ∈ succeeded log := (h.mem_succeeded shape).2 ⟨t, found⟩
        rw [succeeded_append, Entry.succeeded?, Option.toList, card_toFinset_append, if_pos hmem]
        exact h.builds_eq
      · rw [succeeded_append, List.length_append, ← h.hits_eq]
        rfl
  | built absent _ hattempted =>
      refine h.append hattempted.generator_eq hsound (fun _ => hattempted.mem_shapes) ?_ ?_ ?_ ?_
      · intro other u
        rw [hattempted.find?_eq_some_iff absent]
        simp
      · rw [misses_append, ← h.attempts_eq]
        exact hattempted.attempts_eq
      · rw [succeeded_append, Entry.succeeded?, Option.toList, card_toFinset_append,
          if_neg (h.not_mem_succeeded absent), ← h.builds_eq]
        exact hattempted.builds_eq
      · rw [succeeded_append, List.length_append, ← h.hits_eq, hattempted.builds_eq,
          hattempted.hits_eq]
        exact Nat.add_right_comm ..
  | failed absent _ hattempted =>
      refine h.append hattempted.generator_eq hsound (fun _ => hattempted.mem_shapes) ?_ ?_ ?_ ?_
      · intro other u
        rw [hattempted.find?_eq_some_iff absent]
        simp
      · rw [misses_append, ← h.attempts_eq]
        exact hattempted.attempts_eq
      · rw [succeeded_append]
        change _ = (succeeded log ++ []).toFinset.card
        rw [List.append_nil, ← h.builds_eq]
        exact hattempted.builds_eq
      · rw [succeeded_append, List.length_append, ← h.hits_eq, hattempted.builds_eq,
          hattempted.hits_eq]
        rfl

theorem perform (h : Tracked generator log cache) (operation : Operation) :
    Tracked generator (log ++ [(cache.perform operation).1]) (cache.perform operation).2 := by
  cases operation with
  | lookup shape => exact h.lookup shape
  | find shape =>
      refine h.quiet rfl rfl rfl ?_
      rintro other t (⟨_, hmem⟩ | hmem)
      · cases List.mem_singleton.1 hmem
      · injection List.mem_singleton.1 hmem with hshape hfound
        rw [hshape, ← hfound]
  | size | isEmpty | counters =>
      refine h.quiet rfl rfl rfl ?_
      rintro other t (⟨_, hmem⟩ | hmem)
      · cases List.mem_singleton.1 hmem
      · cases List.mem_singleton.1 hmem

theorem record (h : Tracked generator log cache) (operations : List Operation) :
    Tracked generator (log ++ (cache.record operations).1) (cache.record operations).2 := by
  induction operations generalizing log cache with
  | nil =>
      rw [Cache.record, List.append_nil]
      exact h
  | cons operation operations ih =>
      have hrest := ih (h.perform operation)
      rw [List.append_assoc] at hrest
      exact hrest

end Tracked

theorem tracked_record (generator : Generator) (operations : List Operation) :
    Tracked generator ((empty generator).record operations).1
      ((empty generator).record operations).2 := by
  have h := (tracked_empty generator).record operations
  rwa [List.nil_append] at h

theorem exists_of_record {cache : Cache} {operations : List Operation} {past future : List Entry}
    {entry : Entry} (h : (cache.record operations).1 = past ++ entry :: future) :
    ∃ before operation, (cache.record before).1 = past ∧
      ((cache.record before).2.perform operation).1 = entry := by
  induction past generalizing cache operations with
  | nil =>
      cases operations with
      | nil => cases h
      | cons operation operations =>
          injection h with hentry _
          exact ⟨[], operation, rfl, hentry⟩
  | cons first past ih =>
      cases operations with
      | nil => cases h
      | cons operation operations =>
          injection h with hfirst hrest
          obtain ⟨before, next, hbefore, hnext⟩ := ih hrest
          exact ⟨operation :: before, next, congrArg₂ List.cons hfirst hbefore, hnext⟩

-- What holds of the log and of the cache after any run. A trampoline is known by its serial, the
-- number of the attempt that built it; a failed lookup may still have made an empty slot.
structure Lawful (generator : Generator) (log : List Entry) (cache : Cache) : Prop where
  keyed : ∀ slot ∈ cache.slots, ∀ t, slot.ready = some t → t.shape = slot.shape
  stored : ∀ shape t, cache.find? shape = some t ↔ Returned log shape t
  identity : ∀ shape other t u, Returned log shape t → Returned log other u →
    (t.serial = u.serial ↔ shape = other) ∧ (t = u ↔ shape = other)
  explained : ∀ past entry future, log = past ++ entry :: future → entry.Explained generator past
  quiet : ∀ operation, (∀ shape, operation ≠ .lookup shape) → (cache.perform operation).2 = cache
  failed : ∀ shape e, (cache.lookup shape).1 = .error e →
    (cache.lookup shape).2.builds = cache.builds ∧ (cache.lookup shape).2.hits = cache.hits ∧
      ∀ other, (cache.lookup shape).2.find? other = cache.find? other
  size_eq : cache.size = (attempted log).toFinset.card
  counted : Counted log cache.counters

theorem lawful_record (generator : Generator) (operations : List Operation)
    (hfew : (attempted ((empty generator).record operations).1).length < UInt64.size) :
    Lawful generator ((empty generator).record operations).1
      ((empty generator).record operations).2 := by
  have h := tracked_record generator operations
  generalize hlog : ((empty generator).record operations).1 = log at h hfew ⊢
  generalize ((empty generator).record operations).2 = cache at h ⊢
  refine ⟨?_, h.find?_iff, ?_, ?_, ?_, ?_, h.size_eq, h.counted hfew⟩
  · intro slot hslot t ht
    exact (h.sound.made slot.shape t ((find?_of_mem h.sound.nodup hslot).trans ht)).shape_eq
  · intro shape other t u ht hu
    have hfound := (h.find?_iff shape t).2 ht
    have hfound' := (h.find?_iff other u).2 hu
    have hserial := h.sound.distinct shape other t u hfound hfound'
    have heq : shape = other → t = u := by
      rintro rfl
      exact Option.some.inj (hfound.symm.trans hfound')
    exact ⟨⟨hserial, fun hshape => congrArg Trampoline.serial (heq hshape)⟩,
      ⟨fun htu => hserial (congrArg Trampoline.serial htu), heq⟩⟩
  · intro past entry future hsplit
    obtain ⟨before, operation, rfl, rfl⟩ := exists_of_record (hlog.trans hsplit)
    refine (tracked_record generator before).explained ?_ operation
    refine Nat.lt_of_le_of_lt ?_ hfew
    rw [hsplit, attempted, attempted, List.filterMap_append, List.length_append]
    exact Nat.le_add_right ..
  · intro operation hquiet
    cases operation with
    | lookup shape => exact absurd rfl (hquiet shape)
    | find | size | isEmpty | counters => rfl
  · intro shape e hfailed
    have hlooked := cache.looked shape
    generalize cache.lookup shape = looked at hlooked hfailed ⊢
    cases hlooked with
    | hit _ => cases hfailed
    | built _ _ _ => cases hfailed
    | failed absent _ hattempted =>
        refine ⟨hattempted.builds_eq, hattempted.hits_eq, fun other => ?_⟩
        by_cases hother : other = shape
        · rw [hother, hattempted.find?_self, absent]
        · exact hattempted.find?_of_ne other hother

theorem lawful_record_retried :
    let generator : Generator := fun attempt _ =>
      if attempt = 0 then some (.codegen "out of memory") else none
    let one : Shape := ⟨.counted 1 0, .void⟩
    let two : Shape := ⟨.counted 2 0, .void⟩
    let operations : List Operation :=
      [.lookup one, .find one, .lookup one, .lookup two, .lookup one, .find one, .counters]
    let log := ((empty generator).record operations).1
    let cache := ((empty generator).record operations).2
    (attempted log).length < UInt64.size ∧ Lawful generator log cache ∧
      attempted log = [one, one, two, one] ∧ succeeded log = [one, two, one] ∧
      cache.counters = ⟨2, 2, 1⟩ := by
  intro generator one two operations log cache
  have hfew : (attempted log).length < UInt64.size := by decide
  exact ⟨hfew, lawful_record generator operations hfew, by decide, by decide, by decide⟩

end Reply

end ForeignCall.Cache
