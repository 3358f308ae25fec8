import ForeignCall.Proofs.Cache.Threads

namespace ForeignCall.Threads

section Lock

-- The map lock is two locks: many threads may read under it, and one may write.
inductive Lock where
  | reading
  | writing
  | guard (slot : Nat)
  | generator
  deriving DecidableEq, Repr

namespace Lock

def Inner : Lock → Prop
  | .guard _ | .generator => True
  | .reading | .writing => False

def Excludes : Lock → Lock → Prop
  | .reading, .writing | .writing, .reading | .writing, .writing => True
  | .guard slot, .guard other => slot = other
  | .generator, .generator => True
  | _, _ => False

end Lock

namespace Point

def holds : Point → List Lock
  | .read _ | .readEnd _ => [.reading]
  | .insert _ | .insertEnd _ _ => [.writing]
  | .recheck _ slot | .buildStart _ slot | .store slot _ | .countBuild slot _
  | .countHit (some slot) _ | .guardEnd slot _ => [.guard slot]
  | .build _ slot | .buildEnd slot _ => [.generator, .guard slot]
  | .start _ | .insertStart _ | .peek _ _ | .guardStart _ _ | .countHit none _ | .loadBuilds _
  | .loadHits _ _ | .done _ => []

def awaits? : Point → Option Lock
  | .start _ => some .reading
  | .insertStart _ => some .writing
  | .guardStart _ slot => some (.guard slot)
  | .buildStart _ _ => some .generator
  | _ => none

def Calm : Point → Prop
  | .readEnd next => next.holds = []
  | _ => True

variable {p : Point} {lock : Lock}

theorem awaits?_of_mem_holds (h : lock ∈ p.holds) :
    p.awaits? = none ∨ ∃ shape slot, p = .buildStart shape slot ∧ lock = .guard slot := by
  cases p with
  | buildStart shape slot => exact Or.inr ⟨shape, slot, rfl, List.mem_singleton.1 h⟩
  | start | insertStart | guardStart => exact absurd h List.not_mem_nil
  | _ => exact Or.inl rfl

theorem eq_buildStart_of_awaits (h : p.awaits? = some .generator) :
    ∃ shape slot, p = .buildStart shape slot := by
  cases p with
  | buildStart shape slot => exact ⟨shape, slot, rfl⟩
  | _ => cases h

theorem not_mem_holds_of_awaits (h : p.awaits? = some lock) : lock ∉ p.holds := by
  intro hmem
  rcases awaits?_of_mem_holds hmem with hnone | ⟨shape, slot, rfl, rfl⟩
  · rw [hnone] at h
    cases h
  · cases h

theorem nodup_holds (p : Point) : p.holds.Nodup := by
  cases p with
  | countHit guard t => cases guard <;> simp [holds]
  | _ => simp [holds]

theorem not_done_of_mem_holds (h : lock ∈ p.holds) (answer : Answer) : p ≠ .done answer := by
  rintro rfl
  exact List.not_mem_nil h

theorem map_not_mem_holds {inner : Lock} (hinner : inner.Inner)
    (h : inner ∈ p.holds ∨ p.awaits? = some inner) :
    .reading ∉ p.holds ∧ .writing ∉ p.holds := by
  cases p with
  | read | readEnd | insert | insertEnd =>
      rcases h with h | h
      · cases List.mem_singleton.1 h
        cases hinner
      · cases h
  | countHit guard t => cases guard <;> simp [holds]
  | _ => simp [holds]

end Point

end Lock

namespace System

section Holders

def Holds (s : System) (thread : Nat) : Lock → Prop
  | .reading => thread ∈ s.readers
  | .writing => s.writer = some thread
  | .guard slot => (slot, thread) ∈ s.guards
  | .generator => s.builder = some thread

def Awaits (s : System) (thread : Nat) (lock : Lock) : Prop :=
  ∃ p, s.threads[thread]? = some p ∧ p.awaits? = some lock

def Free (s : System) : Lock → Prop
  | .reading => s.writer = none
  | .writing => s.writer = none ∧ s.readers = []
  | .guard slot => s.guards.lookup slot = none
  | .generator => s.builder = none

def take (s : System) (thread : Nat) : Lock → System
  | .reading => { s with readers := thread :: s.readers }
  | .writing => { s with writer := some thread }
  | .guard slot => { s with guards := (slot, thread) :: s.guards }
  | .generator => { s with builder := some thread }

def release (s : System) (thread : Nat) : Lock → System
  | .reading => { s with readers := s.readers.erase thread }
  | .writing => { s with writer := none }
  | .guard slot => { s with guards := s.guards.erase (slot, thread) }
  | .generator => { s with builder := none }

theorem threads_take (s : System) (thread : Nat) (lock : Lock) :
    (s.take thread lock).threads = s.threads := by
  cases lock <;> rfl

theorem threads_release (s : System) (thread : Nat) (lock : Lock) :
    (s.release thread lock).threads = s.threads := by
  cases lock <;> rfl

variable {s : System} {thread i : Nat} {lock held : Lock}

theorem free_of_unheld (h : ∀ i held, s.Holds i held → ¬held.Excludes lock) : s.Free lock := by
  have hwriter (hexcludes : Lock.writing.Excludes lock) : s.writer = none :=
    Option.eq_none_iff_forall_ne_some.2 fun i hi => h i .writing hi hexcludes
  cases lock with
  | reading => exact hwriter True.intro
  | writing =>
      exact ⟨hwriter True.intro,
        List.eq_nil_iff_forall_not_mem.2 fun i hi => h i .reading hi True.intro⟩
  | guard slot =>
      refine List.lookup_eq_none_iff.2 fun ⟨other, i⟩ hmem => bne_iff_ne.2 ?_
      rintro rfl
      exact h i (.guard slot) hmem rfl
  | generator =>
      exact Option.eq_none_iff_forall_ne_some.2 fun i hi => h i .generator hi True.intro

theorem holds_take (hfree : s.Free lock) :
    (s.take thread lock).Holds i held ↔ s.Holds i held ∨ i = thread ∧ held = lock := by
  cases lock with
  | reading => cases held <;> simp [take, Holds, or_comm]
  | writing => cases held <;> simp [take, Holds, hfree.1, eq_comm]
  | guard slot => cases held <;> simp [take, Holds, or_comm, and_comm]
  | generator =>
      have hnone : s.builder = none := hfree
      cases held <;> simp [take, Holds, hnone, eq_comm]

theorem holds_release (hreaders : s.readers.Nodup) (hguards : s.guards.Nodup)
    (hholds : s.Holds thread lock) :
    (s.release thread lock).Holds i held ↔ s.Holds i held ∧ ¬(i = thread ∧ held = lock) := by
  cases lock with
  | reading => cases held <;> simp [release, Holds, hreaders.mem_erase_iff, and_comm]
  | writing =>
      have hwriter : s.writer = some thread := hholds
      cases held <;> simp [release, Holds, hwriter, eq_comm]
  | guard slot => cases held <;> simp [release, Holds, hguards.mem_erase_iff, and_comm, not_and]
  | generator =>
      have hbuilder : s.builder = some thread := hholds
      cases held <;> simp [release, Holds, hbuilder, eq_comm]

end Holders

end System

section Turn

inductive Turn (s : System) (thread : Nat) (p : Point) : System → Point → Prop where
  | stay (cache : Cache) {q : Point} (same : q.holds = p.holds) :
      Turn s thread p ({ s with cache }.goto thread q) q
  | take (lock : Lock) {q : Point} (awaits : p.awaits? = some lock) (free : s.Free lock)
      (taken : q.holds = lock :: p.holds) : Turn s thread p ((s.take thread lock).goto thread q) q
  | release (lock : Lock) {q : Point} (released : p.holds = lock :: q.holds) :
      Turn s thread p ((s.release thread lock).goto thread q) q

theorem holds_afterRead (cache : Cache) (task : Task) :
    (System.afterRead cache task).holds = [] := by
  cases task with
  | lookup shape =>
      rw [System.afterRead]
      split <;> rfl
  | find | size | counters => rfl

variable {s after : System} {thread : Nat} {p : Point}

theorem turn_of_stepAt (hcalm : p.Calm) (h : s.stepAt thread p = some after) :
    ∃ q, Turn s thread p after q := by
  cases p with
  | start task =>
      rw [System.stepAt] at h
      split at h <;> cases h
      next hfree => exact ⟨_, .take .reading rfl hfree rfl⟩
  | read task =>
      cases h
      exact ⟨_, .stay s.cache rfl⟩
  | readEnd next =>
      cases h
      exact ⟨next, .release .reading (congrArg (List.cons _) hcalm.symm)⟩
  | insertStart shape =>
      rw [System.stepAt] at h
      split at h <;> cases h
      next hfree => exact ⟨_, .take .writing rfl hfree rfl⟩
  | insert shape =>
      cases h
      exact ⟨_, .stay (s.cache.claim shape).2 rfl⟩
  | insertEnd shape slot =>
      cases h
      exact ⟨_, .release .writing rfl⟩
  | guardStart shape slot =>
      rw [System.stepAt] at h
      split at h <;> cases h
      next hfree => exact ⟨_, .take (.guard slot) rfl hfree rfl⟩
  | peek shape slot | recheck shape slot =>
      rw [System.stepAt] at h
      split at h <;> cases h
      · exact ⟨_, .stay s.cache rfl⟩
      · exact ⟨_, .stay s.cache rfl⟩
  | buildStart shape slot =>
      rw [System.stepAt] at h
      split at h <;> cases h
      next hfree => exact ⟨_, .take .generator rfl hfree rfl⟩
  | build shape slot =>
      cases h
      exact ⟨_, .stay (s.cache.attempt shape).2 rfl⟩
  | buildEnd slot result =>
      -- The generator's lock is released before the result is looked at.
      cases result with
      | ok t =>
          cases h
          exact ⟨_, .release .generator rfl⟩
      | error e =>
          cases h
          exact ⟨_, .release .generator rfl⟩
  | store slot t =>
      cases h
      exact ⟨_, .stay (s.cache.fill slot t) rfl⟩
  | countBuild slot t =>
      cases h
      exact ⟨_, .stay s.cache.countBuild rfl⟩
  | countHit guard t =>
      cases guard with
      | none =>
          cases h
          exact ⟨_, .stay s.cache.countHit rfl⟩
      | some slot =>
          cases h
          exact ⟨_, .stay s.cache.countHit rfl⟩
  | guardEnd slot answer =>
      cases h
      exact ⟨_, .release (.guard slot) rfl⟩
  | loadBuilds shapes | loadHits shapes builds =>
      cases h
      exact ⟨_, .stay s.cache rfl⟩
  | done answer => cases h

theorem isSome_stepAt_iff : (s.stepAt thread p).isSome ↔
    (∀ answer, p ≠ .done answer) ∧ ∀ lock, p.awaits? = some lock → s.Free lock := by
  cases p with
  | start | insertStart | guardStart | buildStart =>
      simp [System.stepAt, Point.awaits?, System.Free]
  | peek | recheck =>
      rw [System.stepAt]
      split <;> simp [Point.awaits?]
  | buildEnd slot result => cases result <;> simp [System.stepAt, Point.awaits?]
  | countHit guard t => cases guard <;> simp [System.stepAt, Point.awaits?]
  | _ => simp [System.stepAt, Point.awaits?]

end Turn

section Calm

variable {cache after : Cache} {p q : Point}

theorem Point.calm_of_holds (h : p.holds = []) : p.Calm := by
  cases p with
  | readEnd next => cases h
  | _ => exact True.intro

theorem Quiet.calm (h : Quiet cache p q) (hcalm : p.Calm) : q.Calm := by
  cases h with
  | read task => exact holds_afterRead cache task
  | readEnd next => exact Point.calm_of_holds hcalm
  | start | insertStart | insertEnd | peek | buildStart | built | failed | loadBuilds | loadHits =>
      exact True.intro

theorem Move.calm {thread : Nat} {guards guards' : List (Nat × Nat)}
    (h : Move thread cache guards p after guards' q) (hcalm : p.Calm) : q.Calm := by
  cases h with
  | quiet h => exact h.calm hcalm
  | claim | peeked | take | rechecked | vacant | attempt | store | countBuild | countHit
  | countHitGuarded | release => exact True.intro

end Calm

section Discipline

inductive Reachable (cache : Cache) : List Task → System → Prop where
  | start (tasks : List Task) : Reachable cache tasks (.start cache tasks)
  | step {tasks : List Task} {s after : System} {thread : Nat} (reached : Reachable cache tasks s)
      (step : s.step thread = some after) : Reachable cache tasks after
  | again {tasks : List Task} {s : System} {thread : Nat} {answer : Answer} (task : Task)
      (reached : Reachable cache tasks s) (returned : s.threads[thread]? = some (.done answer)) :
      Reachable cache (tasks.set thread task) (s.goto thread (.start task))

def System.locksAt (s : System) (thread : Nat) : List Lock :=
  (s.threads[thread]?.map Point.holds).getD []

structure Disciplined (tasks : List Task) (s : System) : Prop extends Coherent tasks s where
  calm : ∀ (i : Nat) (p : Point), s.threads[i]? = some p → p.Calm
  holds_iff : ∀ i lock, s.Holds i lock ↔ lock ∈ s.locksAt i
  nodup_readers : s.readers.Nodup

variable {cache : Cache} {tasks : List Task} {s after : System} {thread i : Nat} {p q : Point}

theorem locksAt_of_getElem? (hp : s.threads[i]? = some p) : s.locksAt i = p.holds := by
  rw [System.locksAt, hp]
  rfl

theorem exists_of_mem_locksAt {lock : Lock} (h : lock ∈ s.locksAt i) :
    ∃ p, s.threads[i]? = some p ∧ lock ∈ p.holds := by
  cases hp : s.threads[i]? with
  | none =>
      rw [System.locksAt, hp] at h
      exact absurd h List.not_mem_nil
  | some p => exact ⟨p, rfl, locksAt_of_getElem? hp ▸ h⟩

theorem locksAt_goto (hp : s.threads[thread]? = some p) (hthreads : after.threads = s.threads)
    (q : Point) (i : Nat) :
    (after.goto thread q).locksAt i = if i = thread then q.holds else s.locksAt i := by
  obtain ⟨hlt, -⟩ := List.getElem?_eq_some_iff.1 hp
  rw [System.locksAt, System.goto, hthreads, List.getElem?_set]
  by_cases hi : i = thread
  · subst hi
    rw [if_pos rfl, if_pos hlt, if_pos rfl]
    rfl
  · rw [if_neg (Ne.symm hi), if_neg hi, System.locksAt]

theorem Turn.holds_iff (h : Turn s thread p after q) (hp : s.threads[thread]? = some p)
    (hs : ∀ i lock, s.Holds i lock ↔ lock ∈ s.locksAt i) (hreaders : s.readers.Nodup)
    (hguards : s.guards.Nodup) (i : Nat) (held : Lock) :
    after.Holds i held ↔ held ∈ after.locksAt i := by
  have hself := locksAt_of_getElem? hp
  cases h with
  | stay cache same =>
      change s.Holds i held ↔ held ∈ (s.goto thread q).locksAt i
      rw [locksAt_goto hp rfl, hs]
      split
      · next hi => rw [hi, hself, same]
      · rfl
  | take lock _ free taken =>
      change (s.take thread lock).Holds i held ↔ _
      rw [System.holds_take free, locksAt_goto hp (s.threads_take thread lock), hs]
      split
      · next hi => simp [hi, hself, taken, or_comm]
      · next hi => simp [hi]
  | release lock released =>
      change (s.release thread lock).Holds i held ↔ _
      have hholds : s.Holds thread lock := by
        rw [hs, hself, released]
        exact List.mem_cons_self
      rw [System.holds_release hreaders hguards hholds,
        locksAt_goto hp (s.threads_release thread lock), hs]
      split
      · next hi =>
          have hnew := p.nodup_holds
          rw [released, List.nodup_cons] at hnew
          rw [hi, hself, released, List.mem_cons]
          constructor
          · rintro ⟨heq | hmem, hne⟩
            · exact absurd ⟨rfl, heq⟩ hne
            · exact hmem
          · intro hmem
            refine ⟨Or.inr hmem, ?_⟩
            rintro ⟨-, rfl⟩
            exact hnew.1 hmem
      · next hi => simp [hi]

theorem Turn.nodup_readers (h : Turn s thread p after q) (hp : s.threads[thread]? = some p)
    (hs : ∀ i lock, s.Holds i lock ↔ lock ∈ s.locksAt i) (hreaders : s.readers.Nodup) :
    after.readers.Nodup := by
  cases h with
  | stay => exact hreaders
  | take lock awaits _ _ =>
      cases lock with
      | reading =>
          refine List.nodup_cons.2 ⟨fun hmem => ?_, hreaders⟩
          have hheld := (hs thread .reading).1 hmem
          rw [locksAt_of_getElem? hp] at hheld
          exact Point.not_mem_holds_of_awaits awaits hheld
      | writing | guard | generator => exact hreaders
  | release lock _ =>
      cases lock with
      | reading => exact hreaders.erase thread
      | writing | guard | generator => exact hreaders

theorem disciplined_start (cache : Cache) (tasks : List Task) :
    Disciplined tasks (.start cache tasks) where
  toCoherent := coherent_start cache tasks
  calm i p hp := by
    obtain ⟨task, rfl⟩ := getElem?_start hp
    exact True.intro
  holds_iff i lock := by
    have hnone : lock ∉ (System.start cache tasks).locksAt i := by
      intro hmem
      obtain ⟨p, hp, hholds⟩ := exists_of_mem_locksAt hmem
      obtain ⟨task, rfl⟩ := getElem?_start hp
      exact List.not_mem_nil hholds
    refine iff_of_false ?_ hnone
    cases lock <;> simp [System.Holds, System.start]
  nodup_readers := .nil

theorem Disciplined.step (h : Disciplined tasks s) (hstep : s.step thread = some after) :
    Disciplined tasks after := by
  obtain ⟨p, q, hp, hmove, hthreads⟩ := move_of_step hstep
  obtain ⟨_, hp', hstepAt⟩ := Option.bind_eq_some_iff.1 hstep
  cases hp.symm.trans hp'
  obtain ⟨_, hturn⟩ := turn_of_stepAt (h.calm thread p hp) hstepAt
  refine {
    toCoherent := h.toCoherent.step hp hmove hthreads
    calm := ?_
    holds_iff := hturn.holds_iff hp h.holds_iff h.nodup_readers (.of_map _ h.nodup_guards)
    nodup_readers := hturn.nodup_readers hp h.holds_iff h.nodup_readers }
  intro i r hr
  rw [hthreads] at hr
  rcases moved_or_kept hr with ⟨rfl, rfl⟩ | ⟨-, hr⟩
  · exact hmove.calm (h.calm i p hp)
  · exact h.calm i r hr

theorem Coherent.again (h : Coherent tasks s) {answer : Answer}
    (hreturned : s.threads[thread]? = some (.done answer)) (task : Task) :
    Coherent (tasks.set thread task) (s.goto thread (.start task)) where
  fits i p hp := by
    rcases moved_or_kept hp with ⟨rfl, rfl⟩ | ⟨hi, hp⟩
    · obtain ⟨_, htask, -⟩ := h.fits i _ hreturned
      obtain ⟨hlt, -⟩ := List.getElem?_eq_some_iff.1 htask
      exact ⟨task, List.getElem?_set_self hlt, rfl⟩
    · obtain ⟨other, hother, hfits⟩ := h.fits i p hp
      exact ⟨other, (List.getElem?_set_ne (Ne.symm hi)).trans hother, hfits⟩
  nodup_guards := h.nodup_guards
  guarded i p slot hp hslot := by
    rcases moved_or_kept hp with ⟨rfl, rfl⟩ | ⟨-, hp⟩
    · cases hslot
    · exact h.guarded i p slot hp hslot
  vacant i p slot hp hslot := by
    rcases moved_or_kept hp with ⟨rfl, rfl⟩ | ⟨-, hp⟩
    · cases hslot
    · exact h.vacant i p slot hp hslot

theorem Disciplined.again (h : Disciplined tasks s) {answer : Answer}
    (hreturned : s.threads[thread]? = some (.done answer)) (task : Task) :
    Disciplined (tasks.set thread task) (s.goto thread (.start task)) where
  toCoherent := h.toCoherent.again hreturned task
  calm i p hp := by
    rcases moved_or_kept hp with ⟨rfl, rfl⟩ | ⟨-, hp⟩
    · exact True.intro
    · exact h.calm i p hp
  holds_iff i lock := by
    change s.Holds i lock ↔ _
    rw [locksAt_goto hreturned rfl, h.holds_iff]
    split
    · next hi => rw [hi, locksAt_of_getElem? hreturned]; rfl
    · rfl
  nodup_readers := h.nodup_readers

theorem disciplined_of_reachable (h : Reachable cache tasks s) : Disciplined tasks s := by
  induction h with
  | start tasks => exact disciplined_start cache tasks
  | step _ hstep ih => exact ih.step hstep
  | again task _ hreturned ih => exact ih.again hreturned task

theorem Reachable.run (h : Reachable cache tasks s) (schedule : List Nat) :
    Reachable cache tasks (s.run schedule) := by
  induction schedule generalizing s with
  | nil => exact h
  | cons thread schedule ih =>
      rw [run_cons]
      cases hstep : s.step thread with
      | none => exact ih h
      | some after => exact ih (h.step hstep)

end Discipline

section Progress

variable {cache : Cache} {tasks : List Task} {s : System} {i : Nat} {p : Point} {lock : Lock}

theorem step_eq_none_iff (hp : s.threads[i]? = some p) : s.step i = none ↔
    (∃ answer, p = .done answer) ∨ ∃ lock, s.Awaits i lock ∧ ¬s.Free lock := by
  have hstep : s.step i = s.stepAt i p := by
    rw [System.step, hp]
    rfl
  have hawaits (lock : Lock) : s.Awaits i lock ↔ p.awaits? = some lock := by
    simp [System.Awaits, hp]
  rw [← Option.not_isSome_iff_eq_none, hstep, isSome_stepAt_iff]
  simp only [hawaits, not_and_or, not_forall, not_not, exists_prop]

theorem isSome_step (hp : s.threads[i]? = some p) (hdone : ∀ answer, p ≠ .done answer)
    (hfree : ∀ lock, p.awaits? = some lock → s.Free lock) : (s.step i).isSome := by
  rw [System.step, hp]
  exact isSome_stepAt_iff.2 ⟨hdone, hfree⟩

theorem Disciplined.exists_holder (h : Disciplined tasks s) (hlock : s.Holds i lock) :
    ∃ p, s.threads[i]? = some p ∧ lock ∈ p.holds :=
  exists_of_mem_locksAt ((h.holds_iff i lock).1 hlock)

theorem not_awaits_of_holds_generator (h : Disciplined tasks s) (hlock : s.Holds i .generator)
    (lock : Lock) : ¬s.Awaits i lock := by
  rintro ⟨q, hq, hawaits⟩
  obtain ⟨p, hp, hmem⟩ := h.exists_holder hlock
  cases hp.symm.trans hq
  rcases Point.awaits?_of_mem_holds hmem with hnone | ⟨_, _, _, ⟨⟩⟩
  rw [hnone] at hawaits
  cases hawaits

theorem Disciplined.holder_goes_on (h : Disciplined tasks s) (hlock : s.Holds i lock)
    (hfree : s.Awaits i .generator → s.Free .generator) :
    (s.step i).isSome ∧ ¬s.Awaits i .reading := by
  obtain ⟨p, hp, hmem⟩ := h.exists_holder hlock
  have hawaits (other : Lock) (hother : p.awaits? = some other) : other = .generator := by
    rcases Point.awaits?_of_mem_holds hmem with hnone | ⟨_, _, rfl, -⟩
    · rw [hnone] at hother
      cases hother
    · exact (Option.some.inj hother).symm
  refine ⟨isSome_step hp (Point.not_done_of_mem_holds hmem) fun other hother => ?_, ?_⟩
  · obtain rfl := hawaits other hother
    exact hfree ⟨p, hp, hother⟩
  · rintro ⟨q, hq, hreading⟩
    cases hp.symm.trans hq
    cases hawaits _ hreading

-- A reader that starts while a writer waits is passed over: lock implementations that let the
-- writer in first are covered too.
theorem Disciplined.progress (h : Disciplined tasks s) (hbusy : ¬Returned s) :
    ∃ i, (s.step i).isSome ∧ (s.Awaits i .reading → ∀ j, ¬s.Awaits j .writing) := by
  by_cases hbuilding : ∃ i, s.Holds i .generator
  · obtain ⟨i, hi⟩ := hbuilding
    have hgoes := h.holder_goes_on hi fun hawaits =>
      absurd hawaits (not_awaits_of_holds_generator h hi .generator)
    exact ⟨i, hgoes.1, fun hreading => absurd hreading hgoes.2⟩
  by_cases hholding : ∃ i lock, s.Holds i lock
  · obtain ⟨i, lock, hi⟩ := hholding
    have hfree : s.Free .generator := by
      refine System.free_of_unheld fun j held hj hexcludes => hbuilding ⟨j, ?_⟩
      cases held with
      | generator => exact hj
      | reading | writing | guard => cases hexcludes
    have hgoes := h.holder_goes_on hi fun _ => hfree
    exact ⟨i, hgoes.1, fun hreading => absurd hreading hgoes.2⟩
  -- No lock is held, so whoever has not returned can go on.
  have hfree (lock : Lock) : s.Free lock :=
    System.free_of_unheld fun j held hj _ => hholding ⟨j, held, hj⟩
  by_cases hwriting : ∃ i, s.Awaits i .writing
  · obtain ⟨i, p, hp, hawaits⟩ := hwriting
    refine ⟨i, isSome_step hp ?_ fun lock _ => hfree lock, ?_⟩
    · rintro answer rfl
      cases hawaits
    · rintro ⟨q, hq, hreading⟩
      cases hp.symm.trans hq
      cases hawaits.symm.trans hreading
  · obtain ⟨p, hmem, hdone⟩ : ∃ p ∈ s.threads, ∀ answer, p ≠ .done answer := by
      simpa [Returned] using hbusy
    obtain ⟨i, hp⟩ := List.getElem?_of_mem hmem
    exact ⟨i, isSome_step hp hdone fun lock _ => hfree lock, fun _ j hj => hwriting ⟨j, hj⟩⟩

structure Orderly (tasks : List Task) (s : System) : Prop where
  stops_iff : ∀ (i : Nat) p, s.threads[i]? = some p → (s.step i = none ↔
    (∃ answer, p = .done answer) ∨ ∃ lock, s.Awaits i lock ∧ ¬s.Free lock)
  map_apart : ∀ i lock, lock.Inner → s.Holds i lock ∨ s.Awaits i lock →
    ¬s.Holds i .reading ∧ ¬s.Holds i .writing
  own_guard : ∀ i, s.Awaits i .generator → ∃ shape slot, tasks[i]? = some (.lookup shape) ∧
    s.cache.slotOf? shape = some slot ∧ ∀ lock, s.Holds i lock ↔ lock = .guard slot
  builder_goes_on : ∀ i, s.Holds i .generator → (∀ lock, ¬s.Awaits i lock) ∧ (s.step i).isSome
  returned_free : ∀ (i : Nat) answer, s.threads[i]? = some (.done answer) →
    ∀ lock, ¬s.Holds i lock
  progress : ¬Returned s → ∃ i, (s.step i).isSome ∧
    (s.Awaits i .reading → ∀ j, ¬s.Awaits j .writing)

theorem never_stuck (h : Reachable cache tasks s) : Orderly tasks s := by
  have hs := disciplined_of_reachable h
  have holds_iff {i : Nat} {p : Point} (hp : s.threads[i]? = some p) (lock : Lock) :
      s.Holds i lock ↔ lock ∈ p.holds := by
    rw [hs.holds_iff, locksAt_of_getElem? hp]
  refine ⟨fun i p hp => step_eq_none_iff hp, ?_, ?_, ?_, ?_, hs.progress⟩
  · intro i lock hinner hlock
    obtain ⟨p, hp, hpoint⟩ : ∃ p, s.threads[i]? = some p ∧
        (lock ∈ p.holds ∨ p.awaits? = some lock) := by
      rcases hlock with hholds | ⟨p, hp, hawaits⟩
      · obtain ⟨p, hp, hmem⟩ := hs.exists_holder hholds
        exact ⟨p, hp, Or.inl hmem⟩
      · exact ⟨p, hp, Or.inr hawaits⟩
    rw [holds_iff hp, holds_iff hp]
    exact Point.map_not_mem_holds hinner hpoint
  · rintro i ⟨p, hp, hawaits⟩
    obtain ⟨shape, slot, rfl⟩ := Point.eq_buildStart_of_awaits hawaits
    obtain ⟨task, htask, rfl, hslot⟩ := hs.fits i _ hp
    exact ⟨shape, slot, htask, hslot, fun lock => (holds_iff hp lock).trans List.mem_singleton⟩
  · intro i hi
    have hawaits := not_awaits_of_holds_generator hs hi
    exact ⟨hawaits, (hs.holder_goes_on hi fun h => absurd h (hawaits .generator)).1⟩
  · intro i answer hp lock hlock
    exact List.not_mem_nil ((holds_iff hp lock).1 hlock)

theorem never_stuck_at_guard :
    let shape : Shape := ⟨.counted 1 0, .void⟩
    let tasks : List Task := [.lookup shape, .lookup shape]
    ∃ s, Reachable (.empty .reliable) tasks s ∧ s.step 0 = none ∧ s.Awaits 1 .generator ∧
      s.Holds 1 (.guard 0) ∧ (s.step 1).isSome ∧ Orderly tasks s := by
  intro shape tasks
  let first := System.start (.empty .reliable) [.size, .lookup shape]
  let returned := first.run [0, 0, 0]
  let s := (returned.goto 0 (.start (.lookup shape))).run [1, 1, 1, 1, 1, 1, 1, 1, 1, 0, 0, 0, 0]
  have hreturned : returned.threads[0]? = some (.done (.size 0)) := by cbv
  have hs : Reachable (.empty .reliable) tasks s :=
    (((Reachable.start _).run _).again (.lookup shape) hreturned).run _
  have hwaits : (s.step 0).isNone ∧ s.guards = [(0, 1)] ∧ (s.step 1).isSome ∧
      s.threads[1]?.bind Point.awaits? = some .generator := by
    decide +kernel
  obtain ⟨hstopped, hguards, hgoes, hawaits⟩ := hwaits
  refine ⟨s, hs, Option.isNone_iff_eq_none.1 hstopped, Option.bind_eq_some_iff.1 hawaits, ?_, hgoes,
    never_stuck hs⟩
  change (0, 1) ∈ s.guards
  rw [hguards]
  exact List.mem_cons_self

end Progress

end ForeignCall.Threads
