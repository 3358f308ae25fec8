import ForeignCall.Cache.Threads
import ForeignCall.Proofs.Cache

namespace ForeignCall

namespace Cache

structure Grows (cache after : Cache) : Prop where
  slotOf? : ∀ shape slot, cache.slotOf? shape = some slot → after.slotOf? shape = some slot
  ready? : ∀ slot t, cache.ready? slot = some t → after.ready? slot = some t

theorem Grows.refl (cache : Cache) : cache.Grows cache :=
  ⟨fun _ _ h => h, fun _ _ h => h⟩

theorem Grows.trans {cache after final : Cache} (h : cache.Grows after) (h' : after.Grows final) :
    cache.Grows final :=
  ⟨fun shape slot hslot => h'.slotOf? shape slot (h.slotOf? shape slot hslot),
    fun slot t ht => h'.ready? slot t (h.ready? slot t ht)⟩

theorem Grows.find? {cache after : Cache} {shape : Shape} {t : Trampoline} (h : cache.Grows after)
    (ht : cache.find? shape = some t) : after.find? shape = some t := by
  obtain ⟨slot, hslot, hready⟩ := exists_slotOf? ht
  rw [find?_of_slotOf? (h.slotOf? shape slot hslot)]
  exact h.ready? slot t hready

theorem grows_claim (cache : Cache) (shape : Shape) : cache.Grows (cache.claim shape).2 where
  slotOf? := fun _ _ => slotOf?_claim shape
  ready? := fun slot _ ht => (ready?_claim cache shape slot).trans ht

theorem grows_fill (cache : Cache) (slot : Nat) (t : Trampoline) :
    cache.Grows (cache.fill slot t) where
  slotOf? := fun shape _ h => (slotOf?_fill cache slot t shape).trans h
  ready? := by
    intro other u hu
    by_cases hother : other = slot
    · subst hother
      obtain ⟨entry, hentry, hready⟩ := Option.bind_eq_some_iff.1 hu
      simp [fill, Cache.ready?, hentry, hready]
    · rw [ready?_fill_of_ne t hother, hu]

end Cache

namespace Threads

section Standing

def Point.guard? : Point → Option Nat
  | .readEnd next => next.guard?
  | .recheck _ slot | .buildStart _ slot | .build _ slot | .buildEnd slot _ | .store slot _
  | .countBuild slot _ | .guardEnd slot _ => some slot
  | .countHit guard _ => guard
  | _ => none

def Point.vacant? : Point → Option Nat
  | .readEnd next => next.vacant?
  | .buildStart _ slot | .build _ slot | .buildEnd slot _ | .store slot _ => some slot
  | _ => none

def Answer.success? : Answer → Option (Trampoline × Outcome)
  | .lookup (.ok success) => some success
  | _ => none

def Point.success? : Point → Option (Trampoline × Outcome)
  | .readEnd next => next.success?
  | .countBuild _ t => some (t, .built)
  | .countHit _ t => some (t, .hit)
  | .guardEnd _ answer | .done answer => answer.success?
  | _ => none

def Point.counted? : Point → Option Outcome
  | .readEnd next => next.counted?
  | .guardEnd _ answer | .done answer => answer.success?.map (·.2)
  | _ => none

theorem Point.guard?_of_vacant? {p : Point} {slot : Nat} (h : p.vacant? = some slot) :
    p.guard? = some slot := by
  induction p with
  | readEnd next ih => exact ih h
  | buildStart | build | buildEnd | store => exact h
  | _ => cases h

end Standing

section Move

inductive Quiet (cache : Cache) : Point → Point → Prop where
  | start (task : Task) : Quiet cache (.start task) (.read task)
  | read (task : Task) : Quiet cache (.read task) (.readEnd (System.afterRead cache task))
  | readEnd (next : Point) : Quiet cache (.readEnd next) next
  | insertStart (shape : Shape) : Quiet cache (.insertStart shape) (.insert shape)
  | insertEnd (shape : Shape) (slot : Nat) :
      Quiet cache (.insertEnd shape slot) (.peek shape slot)
  | peek (shape : Shape) (slot : Nat) : Quiet cache (.peek shape slot) (.guardStart shape slot)
  | buildStart (shape : Shape) (slot : Nat) :
      Quiet cache (.buildStart shape slot) (.build shape slot)
  | built (slot : Nat) (t : Trampoline) : Quiet cache (.buildEnd slot (.ok t)) (.store slot t)
  | failed (slot : Nat) (e : BuildError) :
      Quiet cache (.buildEnd slot (.error e)) (.guardEnd slot (.lookup (.error e)))
  | loadBuilds (shapes : Nat) :
      Quiet cache (.loadBuilds shapes) (.loadHits shapes cache.counters.builds)
  | loadHits (shapes : Nat) (builds : UInt64) :
      Quiet cache (.loadHits shapes builds) (.done (.counters ⟨shapes, builds, cache.counters.hits⟩))

inductive Move (thread : Nat) (cache : Cache) (guards : List (Nat × Nat)) :
    Point → Cache → List (Nat × Nat) → Point → Prop where
  | quiet {p q : Point} (h : Quiet cache p q) : Move thread cache guards p cache guards q
  | claim (shape : Shape) :
      Move thread cache guards (.insert shape) (cache.claim shape).2 guards
        (.insertEnd shape (cache.claim shape).1)
  | peeked {slot : Nat} {t : Trampoline} (shape : Shape) (h : cache.ready? slot = some t) :
      Move thread cache guards (.peek shape slot) cache guards (.countHit none t)
  | take {slot : Nat} (shape : Shape) (free : guards.lookup slot = none) :
      Move thread cache guards (.guardStart shape slot) cache ((slot, thread) :: guards)
        (.recheck shape slot)
  | rechecked {slot : Nat} {t : Trampoline} (shape : Shape) (h : cache.ready? slot = some t) :
      Move thread cache guards (.recheck shape slot) cache guards (.countHit (some slot) t)
  | vacant {slot : Nat} (shape : Shape) (h : cache.ready? slot = none) :
      Move thread cache guards (.recheck shape slot) cache guards (.buildStart shape slot)
  | attempt (shape : Shape) (slot : Nat) :
      Move thread cache guards (.build shape slot) (cache.attempt shape).2 guards
        (.buildEnd slot (cache.attempt shape).1)
  | store (slot : Nat) (t : Trampoline) :
      Move thread cache guards (.store slot t) (cache.fill slot t) guards (.countBuild slot t)
  | countBuild (slot : Nat) (t : Trampoline) :
      Move thread cache guards (.countBuild slot t) cache.countBuild guards
        (.guardEnd slot (.lookup (.ok (t, .built))))
  | countHit (t : Trampoline) :
      Move thread cache guards (.countHit none t) cache.countHit guards
        (.done (.lookup (.ok (t, .hit))))
  | countHitGuarded (slot : Nat) (t : Trampoline) :
      Move thread cache guards (.countHit (some slot) t) cache.countHit guards
        (.guardEnd slot (.lookup (.ok (t, .hit))))
  | release (slot : Nat) (answer : Answer) :
      Move thread cache guards (.guardEnd slot answer) cache (guards.erase (slot, thread))
        (.done answer)

theorem move_of_stepAt {s after : System} {thread : Nat} {p : Point}
    (h : s.stepAt thread p = some after) :
    ∃ q, Move thread s.cache s.guards p after.cache after.guards q ∧
      after.threads = s.threads.set thread q := by
  cases p with
  | start task =>
      rw [System.stepAt] at h
      split at h <;> cases h
      exact ⟨_, .quiet (.start task), rfl⟩
  | read task =>
      cases h
      exact ⟨_, .quiet (.read task), rfl⟩
  | readEnd next =>
      cases h
      exact ⟨_, .quiet (.readEnd next), rfl⟩
  | insertStart shape =>
      rw [System.stepAt] at h
      split at h <;> cases h
      exact ⟨_, .quiet (.insertStart shape), rfl⟩
  | insert shape =>
      cases h
      exact ⟨_, .claim shape, rfl⟩
  | insertEnd shape slot =>
      cases h
      exact ⟨_, .quiet (.insertEnd shape slot), rfl⟩
  | peek shape slot =>
      rw [System.stepAt] at h
      split at h <;> cases h
      · next hready => exact ⟨_, .peeked shape hready, rfl⟩
      · exact ⟨_, .quiet (.peek shape slot), rfl⟩
  | guardStart shape slot =>
      rw [System.stepAt] at h
      split at h <;> cases h
      next hfree => exact ⟨_, .take shape hfree, rfl⟩
  | recheck shape slot =>
      rw [System.stepAt] at h
      split at h <;> cases h
      · next hready => exact ⟨_, .rechecked shape hready, rfl⟩
      · next hready => exact ⟨_, .vacant shape hready, rfl⟩
  | buildStart shape slot =>
      rw [System.stepAt] at h
      split at h <;> cases h
      exact ⟨_, .quiet (.buildStart shape slot), rfl⟩
  | build shape slot =>
      cases h
      exact ⟨_, .attempt shape slot, rfl⟩
  | buildEnd slot result =>
      cases result with
      | ok t =>
          cases h
          exact ⟨_, .quiet (.built slot t), rfl⟩
      | error e =>
          cases h
          exact ⟨_, .quiet (.failed slot e), rfl⟩
  | store slot t =>
      cases h
      exact ⟨_, .store slot t, rfl⟩
  | countBuild slot t =>
      cases h
      exact ⟨_, .countBuild slot t, rfl⟩
  | countHit guard t =>
      cases guard with
      | none =>
          cases h
          exact ⟨_, .countHit t, rfl⟩
      | some slot =>
          cases h
          exact ⟨_, .countHitGuarded slot t, rfl⟩
  | guardEnd slot answer =>
      cases h
      exact ⟨_, .release slot answer, rfl⟩
  | loadBuilds shapes =>
      cases h
      exact ⟨_, .quiet (.loadBuilds shapes), rfl⟩
  | loadHits shapes builds =>
      cases h
      exact ⟨_, .quiet (.loadHits shapes builds), rfl⟩
  | done answer => cases h

theorem move_of_step {s after : System} {thread : Nat} (h : s.step thread = some after) :
    ∃ p q, s.threads[thread]? = some p ∧
      Move thread s.cache s.guards p after.cache after.guards q ∧
      after.threads = s.threads.set thread q := by
  obtain ⟨p, hp, hstep⟩ := Option.bind_eq_some_iff.1 h
  obtain ⟨q, hmove, hthreads⟩ := move_of_stepAt hstep
  exact ⟨p, q, hp, hmove, hthreads⟩

end Move

section Effect

theorem not_standing_afterRead (cache : Cache) (task : Task) :
    (System.afterRead cache task).guard? = none ∧ (System.afterRead cache task).vacant? = none ∧
      (System.afterRead cache task).success? = none ∧
      (System.afterRead cache task).counted? = none := by
  cases task with
  | lookup shape =>
      rw [System.afterRead]
      split <;> exact ⟨rfl, rfl, rfl, rfl⟩
  | find | size | counters => exact ⟨rfl, rfl, rfl, rfl⟩

theorem Quiet.keeps {cache : Cache} {p q : Point} (h : Quiet cache p q) :
    q.guard? = p.guard? ∧ (∀ slot, q.vacant? = some slot → p.vacant? = some slot) ∧
      q.success? = p.success? ∧ q.counted? = p.counted? := by
  cases h with
  | read task =>
      obtain ⟨hguard, hvacant, hsuccess, hcounted⟩ := not_standing_afterRead cache task
      exact ⟨hguard, fun _ h => hvacant.symm.trans h, hsuccess, hcounted⟩
  | failed slot e => exact ⟨rfl, fun _ h => (nomatch h), rfl, rfl⟩
  | start | readEnd | insertStart | insertEnd | peek | buildStart | built | loadBuilds | loadHits =>
      exact ⟨rfl, fun _ h => h, rfl, rfl⟩

variable {thread : Nat} {cache after : Cache} {guards guards' : List (Nat × Nat)} {p q : Point}

namespace Move

theorem grows (h : Move thread cache guards p after guards' q) : cache.Grows after := by
  cases h with
  | claim shape => exact cache.grows_claim shape
  | store slot t => exact cache.grows_fill slot t
  | quiet | peeked | take | rechecked | vacant | attempt | countBuild | countHit | countHitGuarded
  | release => exact ⟨fun _ _ h => h, fun _ _ h => h⟩

theorem nodup_shapes (h : Move thread cache guards p after guards' q)
    (hnodup : cache.shapes.Nodup) : after.shapes.Nodup := by
  cases h with
  | claim shape => exact Cache.nodup_shapes_claim shape hnodup
  | store slot t => rwa [Cache.shapes_fill]
  | quiet | peeked | take | rechecked | vacant | attempt | countBuild | countHit | countHitGuarded
  | release => exact hnodup

theorem nodup_guards (h : Move thread cache guards p after guards' q)
    (hnodup : (guards.map Prod.fst).Nodup) : (guards'.map Prod.fst).Nodup := by
  cases h with
  | @take slot shape free =>
      rw [List.map_cons, List.nodup_cons]
      refine ⟨?_, hnodup⟩
      intro hmem
      obtain ⟨⟨_, holder⟩, hguard, rfl⟩ := List.mem_map.1 hmem
      have hne := List.lookup_eq_none_iff.1 free _ hguard
      simp at hne
  | release slot answer => exact hnodup.sublist (List.erase_sublist.map Prod.fst)
  | quiet | claim | peeked | rechecked | vacant | attempt | store | countBuild | countHit
  | countHitGuarded => exact hnodup

theorem guarded (h : Move thread cache guards p after guards' q)
    (hguarded : ∀ slot, p.guard? = some slot → (slot, thread) ∈ guards) {slot : Nat}
    (hslot : q.guard? = some slot) : (slot, thread) ∈ guards' := by
  cases h with
  | quiet h => exact hguarded slot (h.keeps.1.symm.trans hslot)
  | @take slot' shape free =>
      cases hslot
      exact List.mem_cons_self
  | claim | peeked | countHit | release => cases hslot
  | rechecked | vacant | attempt | store | countBuild | countHitGuarded => exact hguarded slot hslot

theorem guarded_of_ne (h : Move thread cache guards p after guards' q) {slot other : Nat}
    (hother : other ≠ thread) (hmem : (slot, other) ∈ guards) : (slot, other) ∈ guards' := by
  cases h with
  | take shape free => exact List.mem_cons_of_mem _ hmem
  | release slot' answer =>
      rw [List.mem_erase_of_ne]
      · exact hmem
      · rintro ⟨⟩
        exact hother rfl
  | quiet | claim | peeked | rechecked | vacant | attempt | store | countBuild | countHit
  | countHitGuarded => exact hmem

theorem ready?_eq (h : Move thread cache guards p after guards' q) {slot : Nat}
    (hslot : p.vacant? ≠ some slot) : after.ready? slot = cache.ready? slot := by
  cases h with
  | claim shape => exact Cache.ready?_claim cache shape slot
  | store slot' t =>
      refine Cache.ready?_fill_of_ne t ?_
      rintro rfl
      exact hslot rfl
  | quiet | peeked | take | rechecked | vacant | attempt | countBuild | countHit | countHitGuarded
  | release => rfl

theorem vacant_of_vacant (h : Move thread cache guards p after guards' q)
    (hvacant : ∀ slot, p.vacant? = some slot → cache.ready? slot = none) {slot : Nat}
    (hslot : q.vacant? = some slot) : after.ready? slot = none := by
  cases h with
  | quiet h => exact hvacant slot (h.keeps.2.1 slot hslot)
  | vacant shape h =>
      cases hslot
      exact h
  | attempt shape slot' => exact hvacant slot hslot
  | claim | peeked | take | rechecked | store | countBuild | countHit | countHitGuarded
  | release => cases hslot

end Move

end Effect

section Task

def Task.For (task : Task) (cache : Cache) (shape : Shape) (slot : Nat) : Prop :=
  task = .lookup shape ∧ cache.slotOf? shape = some slot

def Task.Gets (task : Task) (cache : Cache) (t : Trampoline) : Prop :=
  ∃ shape, task = .lookup shape ∧ cache.find? shape = some t

def Point.Fits (cache : Cache) (task : Task) : Point → Prop
  | .start other | .read other => other = task
  | .readEnd next => next.Fits cache task
  | .insertStart shape | .insert shape => task = .lookup shape
  | .insertEnd shape slot | .peek shape slot | .guardStart shape slot | .recheck shape slot
  | .buildStart shape slot | .build shape slot => task.For cache shape slot
  | .buildEnd slot _ | .store slot _ => ∃ shape, task.For cache shape slot
  | .countBuild _ t | .countHit _ t => task.Gets cache t
  | .guardEnd _ answer | .done answer =>
      ∀ t outcome, answer.success? = some (t, outcome) → task.Gets cache t
  | .loadBuilds _ | .loadHits _ _ => True

theorem Task.For.gets {cache : Cache} {task : Task} {shape : Shape} {slot : Nat} {t : Trampoline}
    (h : task.For cache shape slot) (ht : cache.ready? slot = some t) : task.Gets cache t :=
  ⟨shape, h.1, (Cache.find?_of_slotOf? h.2).trans ht⟩

variable {cache after : Cache} {task : Task} {p q : Point}

theorem Task.For.mono {shape : Shape} {slot : Nat} (h : task.For cache shape slot)
    (hgrows : cache.Grows after) : task.For after shape slot :=
  ⟨h.1, hgrows.slotOf? shape slot h.2⟩

theorem Task.Gets.mono {t : Trampoline} (h : task.Gets cache t) (hgrows : cache.Grows after) :
    task.Gets after t := by
  obtain ⟨shape, htask, ht⟩ := h
  exact ⟨shape, htask, hgrows.find? ht⟩

namespace Point

theorem Fits.mono (h : p.Fits cache task) (hgrows : cache.Grows after) : p.Fits after task := by
  induction p with
  | readEnd next ih => exact ih h
  | insertEnd | peek | guardStart | recheck | buildStart | build => exact Task.For.mono h hgrows
  | buildEnd | store =>
      obtain ⟨shape, hfor⟩ := h
      exact ⟨shape, hfor.mono hgrows⟩
  | countBuild | countHit => exact Task.Gets.mono h hgrows
  | guardEnd | done => exact fun t outcome hsuccess => (h t outcome hsuccess).mono hgrows
  | start | read | insertStart | insert | loadBuilds | loadHits => exact h

theorem Fits.gets (h : p.Fits cache task) {t : Trampoline} {outcome : Outcome}
    (hsuccess : p.success? = some (t, outcome)) : task.Gets cache t := by
  induction p with
  | readEnd next ih => exact ih h hsuccess
  | countBuild | countHit =>
      cases hsuccess
      exact h
  | guardEnd | done => exact h t outcome hsuccess
  | _ => cases hsuccess

end Point

theorem fits_afterRead (cache : Cache) (task : Task) :
    (System.afterRead cache task).Fits cache task := by
  cases task with
  | lookup shape =>
      rw [System.afterRead]
      split
      · next slot hslot => exact ⟨rfl, hslot⟩
      · rfl
  | find | size => exact fun _ _ h => nomatch h
  | counters => exact True.intro

theorem Quiet.fits (h : Quiet cache p q) (hfits : p.Fits cache task) : q.Fits cache task := by
  cases h with
  | read other =>
      obtain rfl : other = task := hfits
      exact fits_afterRead cache other
  | buildStart shape slot => exact hfits
  | failed | loadHits => exact fun _ _ h => nomatch h
  | loadBuilds => exact True.intro
  | start | readEnd | insertStart | insertEnd | peek | built => exact hfits

namespace Move

variable {thread : Nat} {guards guards' : List (Nat × Nat)}

theorem fits (h : Move thread cache guards p after guards' q) (hfits : p.Fits cache task)
    (hvacant : ∀ slot, p.vacant? = some slot → cache.ready? slot = none) : q.Fits after task := by
  cases h with
  | quiet h => exact h.fits hfits
  | claim shape => exact ⟨hfits, cache.slotOf?_claim_self shape⟩
  | peeked shape h => exact Task.For.gets hfits h
  | take shape _ => exact hfits
  | rechecked shape h => exact Task.For.gets hfits h
  | vacant shape _ => exact hfits
  | attempt shape slot => exact ⟨shape, hfits⟩
  | store slot t =>
      obtain ⟨shape, htask, hslot⟩ := hfits
      have hnone : cache.find? shape = none :=
        (Cache.find?_of_slotOf? hslot).trans (hvacant slot rfl)
      have hfill := Cache.find?_fill_self t hslot
      rw [hnone] at hfill
      exact ⟨shape, htask, hfill⟩
  | countBuild | countHit | countHitGuarded =>
      rintro _ _ ⟨⟩
      exact hfits
  | release slot answer => exact hfits

end Move

end Task

section Count

def builder? : Task → Point → Option Shape
  | .lookup shape, p =>
      match p.success? with
      | some (_, .built) => some shape
      | _ => none
  | _, _ => none

def counter (cache : Cache) : Outcome → Nat
  | .hit => cache.hits
  | .built => cache.builds

variable {thread : Nat} {cache after : Cache} {guards guards' : List (Nat × Nat)} {p q : Point}

theorem builder?_congr {task : Task} (h : q.success? = p.success?) :
    builder? task q = builder? task p := by
  cases task with
  | lookup shape => rw [builder?, builder?, h]
  | find | size | counters => rfl

theorem Move.fills (h : Move thread cache guards p after guards' q) (task : Task) :
    (∃ slot t, p = .store slot t ∧ q = .countBuild slot t ∧ after = cache.fill slot t) ∨
      builder? task q = builder? task p ∧ ∀ shape, after.find? shape = cache.find? shape := by
  cases h with
  | store slot t => exact Or.inl ⟨slot, t, rfl, rfl, rfl⟩
  | quiet h => exact Or.inr ⟨builder?_congr h.keeps.2.2.1, fun _ => rfl⟩
  | claim shape => exact Or.inr ⟨builder?_congr rfl, cache.find?_claimed shape⟩
  | peeked | rechecked => exact Or.inr ⟨by cases task <;> rfl, fun _ => rfl⟩
  | take | vacant | attempt | countBuild | countHit | countHitGuarded | release =>
      exact Or.inr ⟨builder?_congr rfl, fun _ => rfl⟩

theorem Move.counts (h : Move thread cache guards p after guards' q) (outcome : Outcome) :
    counter after outcome + (if p.counted? = some outcome then 1 else 0) =
      counter cache outcome + if q.counted? = some outcome then 1 else 0 := by
  cases h with
  | quiet h => rw [h.keeps.2.2.2]
  | claim shape =>
      cases outcome with
      | built => exact congrArg (· + 0) (cache.builds_claim shape)
      | hit => exact congrArg (· + 0) (cache.hits_claim shape)
  | countBuild | countHit | countHitGuarded | peeked | take | rechecked | vacant | attempt | store
  | release => cases outcome <;> rfl

end Count

end Threads

end ForeignCall
