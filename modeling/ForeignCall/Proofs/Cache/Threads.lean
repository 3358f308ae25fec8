import ForeignCall.Proofs.Cache.Moves
import Mathlib.Data.Finset.Card

namespace ForeignCall.Threads

section Job

def jobs (tasks : List Task) (s : System) : List (Task × Point) :=
  tasks.zip s.threads

def builders (tasks : List Task) (s : System) : List Shape :=
  (jobs tasks s).filterMap fun job => builder? job.1 job.2

theorem exists_split {tasks : List Task} {threads : List Point} {thread : Nat} {task : Task}
    {p : Point} (htask : tasks[thread]? = some task) (hp : threads[thread]? = some p) :
    ∃ xs ys, tasks.zip threads = xs ++ (task, p) :: ys ∧
      ∀ q, tasks.zip (threads.set thread q) = xs ++ (task, q) :: ys := by
  induction tasks generalizing threads thread with
  | nil => cases htask
  | cons first tasks ih =>
      cases threads with
      | nil => cases hp
      | cons point threads =>
          cases thread with
          | zero =>
              cases htask
              cases hp
              exact ⟨[], tasks.zip threads, rfl, fun _ => rfl⟩
          | succ thread =>
              obtain ⟨xs, ys, hsplit, hset⟩ := ih htask hp
              exact ⟨(first, point) :: xs, ys, congrArg (List.cons _) hsplit,
                fun q => congrArg (List.cons _) (hset q)⟩

theorem moved_or_kept {threads : List Point} {thread i : Nat} {q r : Point}
    (h : (threads.set thread q)[i]? = some r) :
    (i = thread ∧ r = q) ∨ (i ≠ thread ∧ threads[i]? = some r) := by
  by_cases hi : thread = i
  · subst hi
    obtain ⟨_, hget⟩ := List.getElem?_eq_some_iff.1 h
    rw [List.getElem_set_self] at hget
    exact Or.inl ⟨rfl, hget.symm⟩
  · rw [List.getElem?_set_ne hi] at h
    exact Or.inr ⟨Ne.symm hi, h⟩

end Job

section Invariant

-- What a thread knows of its slot (`fits`, `vacant`) rests on the guard that it holds.
structure Coherent (tasks : List Task) (s : System) : Prop where
  fits : ∀ (i : Nat) (p : Point), s.threads[i]? = some p →
    ∃ task, tasks[i]? = some task ∧ p.Fits s.cache task
  nodup_guards : (s.guards.map Prod.fst).Nodup
  guarded : ∀ (i : Nat) (p : Point) (slot : Nat), s.threads[i]? = some p →
    p.guard? = some slot → (slot, i) ∈ s.guards
  vacant : ∀ (i : Nat) (p : Point) (slot : Nat), s.threads[i]? = some p →
    p.vacant? = some slot → s.cache.ready? slot = none

theorem holder_unique {guards : List (Nat × Nat)} (hnodup : (guards.map Prod.fst).Nodup)
    {slot i j : Nat} (hi : (slot, i) ∈ guards) (hj : (slot, j) ∈ guards) : i = j :=
  congrArg Prod.snd (List.inj_on_of_nodup_map hnodup hi hj rfl)

theorem jobs_start (cache : Cache) (tasks : List Task) :
    jobs tasks (System.start cache tasks) = tasks.map fun task => (task, .start task) := by
  change tasks.zip (tasks.map Point.start) = _
  induction tasks with
  | nil => rfl
  | cons task tasks ih => exact congrArg (List.cons _) ih

theorem builders_start (cache : Cache) (tasks : List Task) :
    builders tasks (System.start cache tasks) = [] := by
  rw [builders, jobs_start, List.filterMap_map, List.filterMap_eq_nil_iff]
  intro task _
  cases task <;> rfl

theorem getElem?_start {cache : Cache} {tasks : List Task} {i : Nat} {p : Point}
    (h : (System.start cache tasks).threads[i]? = some p) : ∃ task, p = .start task := by
  rw [System.start, List.getElem?_map] at h
  obtain ⟨task, -, rfl⟩ := Option.map_eq_some_iff.1 h
  exact ⟨task, rfl⟩

theorem coherent_start (cache : Cache) (tasks : List Task) :
    Coherent tasks (System.start cache tasks) where
  fits := by
    intro i p hp
    rw [System.start, List.getElem?_map] at hp
    obtain ⟨task, htask, rfl⟩ := Option.map_eq_some_iff.1 hp
    exact ⟨task, htask, rfl⟩
  nodup_guards := List.nodup_nil
  guarded := by
    intro i p slot hp hslot
    obtain ⟨task, rfl⟩ := getElem?_start hp
    cases hslot
  vacant := by
    intro i p slot hp hslot
    obtain ⟨task, rfl⟩ := getElem?_start hp
    cases hslot

variable {tasks : List Task} {s after : System} {thread : Nat}

theorem Coherent.fits_of_mem (h : Coherent tasks s) {task : Task} {p : Point}
    (hmem : (task, p) ∈ jobs tasks s) : p.Fits s.cache task := by
  obtain ⟨i, hi⟩ := List.mem_iff_getElem?.1 hmem
  obtain ⟨htask, hp⟩ := List.getElem?_zip_eq_some.1 hi
  obtain ⟨other, hother, hfits⟩ := h.fits i p hp
  cases htask.symm.trans hother
  exact hfits

theorem Coherent.step {p q : Point} (h : Coherent tasks s) (hp : s.threads[thread]? = some p)
    (hmove : Move thread s.cache s.guards p after.cache after.guards q)
    (hthreads : after.threads = s.threads.set thread q) : Coherent tasks after where
  fits := by
    intro i r hr
    rw [hthreads] at hr
    rcases moved_or_kept hr with ⟨rfl, rfl⟩ | ⟨-, hr⟩
    · obtain ⟨task, htask, hfits⟩ := h.fits i p hp
      exact ⟨task, htask, hmove.fits hfits fun slot => h.vacant i p slot hp⟩
    · obtain ⟨task, htask, hfits⟩ := h.fits i r hr
      exact ⟨task, htask, hfits.mono hmove.grows⟩
  nodup_guards := hmove.nodup_guards h.nodup_guards
  guarded := by
    intro i r slot hr hslot
    rw [hthreads] at hr
    rcases moved_or_kept hr with ⟨rfl, rfl⟩ | ⟨hi, hr⟩
    · exact hmove.guarded (fun slot => h.guarded i p slot hp) hslot
    · exact hmove.guarded_of_ne hi (h.guarded i r slot hr hslot)
  vacant := by
    intro i r slot hr hslot
    rw [hthreads] at hr
    rcases moved_or_kept hr with ⟨rfl, rfl⟩ | ⟨hi, hr⟩
    · exact hmove.vacant_of_vacant (fun slot => h.vacant i p slot hp) hslot
    · -- Two threads cannot both have the slot's guard.
      rw [hmove.ready?_eq]
      · exact h.vacant i r slot hr hslot
      · intro hp'
        exact hi (holder_unique h.nodup_guards
          (h.guarded i r slot hr (Point.guard?_of_vacant? hslot))
          (h.guarded thread p slot hp (Point.guard?_of_vacant? hp')))

structure Invariant (tasks : List Task) (s : System) : Prop extends Coherent tasks s where
  nodup : s.cache.shapes.Nodup
  nodup_builders : (builders tasks s).Nodup
  mem_builders : ∀ shape, shape ∈ builders tasks s ↔ ∃ t, s.cache.find? shape = some t
  counts : ∀ outcome, counter s.cache outcome =
    (jobs tasks s).countP fun job => job.2.counted? = some outcome

theorem invariant_start (generator : Generator) (tasks : List Task) :
    Invariant tasks (System.start (.empty generator) tasks) where
  toCoherent := coherent_start (.empty generator) tasks
  nodup := List.nodup_nil
  nodup_builders := by
    rw [builders_start]
    exact List.nodup_nil
  mem_builders := by
    intro shape
    rw [builders_start]
    simp [System.start, Cache.find?_empty]
  counts := by
    intro outcome
    rw [jobs_start, List.countP_map]
    cases outcome <;> simp [counter, System.start, Cache.empty, Point.counted?, Function.comp_def]

section Builders

variable {xs ys : List (Task × Point)} {task : Task} {p q : Point}

theorem builders_kept (hbefore : jobs tasks s = xs ++ (task, p) :: ys)
    (hafter : jobs tasks after = xs ++ (task, q) :: ys) (h : builder? task q = builder? task p) :
    builders tasks after = builders tasks s := by
  rw [builders, builders, hbefore, hafter, List.filterMap_append, List.filterMap_append,
    List.filterMap_cons, List.filterMap_cons, h]

theorem builders_filled {shape : Shape} (hbefore : jobs tasks s = xs ++ (task, p) :: ys)
    (hafter : jobs tasks after = xs ++ (task, q) :: ys) (hp : builder? task p = none)
    (hq : builder? task q = some shape) :
    (builders tasks after).Perm (shape :: builders tasks s) := by
  rw [builders, builders, hbefore, hafter, List.filterMap_append, List.filterMap_append,
    List.filterMap_cons, List.filterMap_cons, hp, hq]
  exact List.perm_middle

theorem Invariant.builders_step (h : Invariant tasks s)
    (hmove : Move thread s.cache s.guards p after.cache after.guards q)
    (hfits : p.Fits s.cache task)
    (hvacant : ∀ slot, p.vacant? = some slot → s.cache.ready? slot = none)
    (hbefore : jobs tasks s = xs ++ (task, p) :: ys)
    (hafter : jobs tasks after = xs ++ (task, q) :: ys) :
    (builders tasks after).Nodup ∧
      ∀ shape, shape ∈ builders tasks after ↔ ∃ t, after.cache.find? shape = some t := by
  rcases hmove.fills task with ⟨slot, t, rfl, rfl, hfill⟩ | ⟨hsame, hfind⟩
  · obtain ⟨shape, rfl, hslot⟩ := hfits
    have habsent : s.cache.find? shape = none :=
      (Cache.find?_of_slotOf? hslot).trans (hvacant slot rfl)
    have hnew : shape ∉ builders tasks s := by
      rw [h.mem_builders, habsent]
      rintro ⟨_, ⟨⟩⟩
    have hperm : (builders tasks after).Perm (shape :: builders tasks s) :=
      builders_filled hbefore hafter rfl rfl
    refine ⟨hperm.nodup_iff.2 (List.nodup_cons.2 ⟨hnew, h.nodup_builders⟩), ?_⟩
    intro other
    rw [hperm.mem_iff, List.mem_cons, h.mem_builders, hfill]
    by_cases hother : other = shape
    · subst hother
      rw [Cache.find?_fill_self t hslot, habsent]
      simp
    · rw [Cache.find?_fill_of_ne t hslot hother]
      simp [hother]
  · rw [builders_kept hbefore hafter hsame]
    refine ⟨h.nodup_builders, fun shape => ?_⟩
    rw [h.mem_builders, hfind]

end Builders

theorem Invariant.step (h : Invariant tasks s) (hstep : s.step thread = some after) :
    Invariant tasks after := by
  obtain ⟨p, q, hp, hmove, hthreads⟩ := move_of_step hstep
  obtain ⟨task, htask, hfits⟩ := h.fits thread p hp
  obtain ⟨xs, ys, hbefore, hset⟩ := exists_split htask hp
  change jobs tasks s = _ at hbefore
  have hafter : jobs tasks after = xs ++ (task, q) :: ys := by
    rw [jobs, hthreads, hset]
  have hbuilders := h.builders_step hmove hfits (fun slot => h.vacant thread p slot hp) hbefore
    hafter
  refine {
    toCoherent := h.toCoherent.step hp hmove hthreads
    nodup := hmove.nodup_shapes h.nodup
    nodup_builders := hbuilders.1
    mem_builders := hbuilders.2
    counts := ?_ }
  intro outcome
  have hcounts := h.counts outcome
  have hmoved := hmove.counts outcome
  rw [hbefore, List.countP_append, List.countP_cons] at hcounts
  rw [hafter, List.countP_append, List.countP_cons]
  simp only [decide_eq_true_eq] at hcounts ⊢
  omega

end Invariant

section Run

variable {tasks : List Task} {s : System}

theorem run_cons (s : System) (thread : Nat) (schedule : List Nat) :
    s.run (thread :: schedule) = ((s.step thread).getD s).run schedule :=
  rfl

theorem Invariant.run (h : Invariant tasks s) (schedule : List Nat) :
    Invariant tasks (s.run schedule) := by
  induction schedule generalizing s with
  | nil => exact h
  | cons thread schedule ih =>
      rw [run_cons]
      cases hstep : s.step thread with
      | none => exact ih h
      | some after => exact ih (h.step hstep)

theorem grows_run (s : System) (schedule : List Nat) : s.cache.Grows (s.run schedule).cache := by
  induction schedule generalizing s with
  | nil => exact .refl s.cache
  | cons thread schedule ih =>
      rw [run_cons]
      cases hstep : s.step thread with
      | none => exact ih s
      | some after =>
          obtain ⟨_, _, _, hmove, _⟩ := move_of_step hstep
          exact hmove.grows.trans (ih after)

end Run

section Once

def success? : Task → Point → Option (Shape × Trampoline × Outcome)
  | .lookup shape, .done answer => answer.success?.map fun (t, outcome) => (shape, t, outcome)
  | _, _ => none

def successes (tasks : List Task) (s : System) : List (Shape × Trampoline × Outcome) :=
  (jobs tasks s).filterMap fun job => success? job.1 job.2

def succeeded (tasks : List Task) (s : System) : List Shape :=
  (successes tasks s).map Prod.fst

def answeredBuilt (tasks : List Task) (s : System) : List Shape :=
  (successes tasks s).filterMap fun (shape, _, outcome) =>
    if outcome = .built then some shape else none

def Returned (s : System) : Prop :=
  ∀ p ∈ s.threads, ∃ answer, p = .done answer

-- A slot is written when it is empty (`fills_empty`) and keeps what it got, whatever runs next
-- (`grows`). The builders are counted also before all threads have returned.
structure ConstructedOnce (tasks : List Task) (s : System) : Prop where
  nodup : s.cache.shapes.Nodup
  fills_empty : ∀ (i slot : Nat) (t : Trampoline), s.threads[i]? = some (.store slot t) →
    s.cache.ready? slot = none
  grows : ∀ schedule, s.cache.Grows (s.run schedule).cache
  same : ∀ shape t u outcome outcome', (shape, t, outcome) ∈ successes tasks s →
    (shape, u, outcome') ∈ successes tasks s → t = u
  answered_le_one : (answeredBuilt tasks s).Nodup
  built_once : ∀ shape ∈ succeeded tasks s, (builders tasks s).count shape = 1
  answered_once : Returned s → ∀ shape ∈ succeeded tasks s,
    (answeredBuilt tasks s).count shape = 1
  builds_eq : Returned s → s.cache.builds = (succeeded tasks s).toFinset.card
  hits_eq : Returned s → s.cache.builds + s.cache.hits = (succeeded tasks s).length

variable {tasks : List Task} {s : System}

theorem filterMap_sublist {α β : Type} {f g : α → Option β} (h : ∀ a b, f a = some b → g a = some b)
    (l : List α) : (l.filterMap f).Sublist (l.filterMap g) := by
  induction l with
  | nil => exact .slnil
  | cons a l ih =>
      rw [List.filterMap_cons, List.filterMap_cons]
      cases hf : f a with
      | some b =>
          rw [h a b hf]
          exact ih.cons_cons b
      | none =>
          cases g a with
          | none => exact ih
          | some b => exact ih.cons b

theorem countP_outcomes {α : Type} (f : α → Option Outcome) (l : List α) :
    (l.countP fun a => f a = some .built) + (l.countP fun a => f a = some .hit) =
      l.countP fun a => (f a).isSome := by
  induction l with
  | nil => rfl
  | cons a l ih =>
      rw [List.countP_cons, List.countP_cons, List.countP_cons]
      rcases f a with _ | _ | _ <;> simp <;> omega

theorem success?_eq_some {task : Task} {p : Point} {shape : Shape} {t : Trampoline}
    {outcome : Outcome} (h : success? task p = some (shape, t, outcome)) :
    task = .lookup shape ∧ p.success? = some (t, outcome) := by
  unfold success? at h
  split at h
  · next answer =>
      obtain ⟨⟨_, _⟩, hsuccess, ⟨⟩⟩ := Option.map_eq_some_iff.1 h
      exact ⟨rfl, hsuccess⟩
  · cases h

theorem builder?_done (task : Task) (answer : Answer) :
    builder? task (.done answer) =
      (success? task (.done answer)).bind fun (shape, _, outcome) =>
        if outcome = .built then some shape else none := by
  cases task with
  | lookup shape =>
      simp only [builder?, success?, Point.success?]
      rcases answer.success? with _ | ⟨t, _ | _⟩ <;> rfl
  | find | size | counters => rfl

theorem answeredBuilt_eq (tasks : List Task) (s : System) :
    answeredBuilt tasks s = (jobs tasks s).filterMap fun job =>
      (success? job.1 job.2).bind fun (shape, _, outcome) =>
        if outcome = .built then some shape else none := by
  rw [answeredBuilt, successes, List.filterMap_filterMap]

theorem answeredBuilt_sublist (tasks : List Task) (s : System) :
    (answeredBuilt tasks s).Sublist (builders tasks s) := by
  rw [answeredBuilt_eq, builders]
  apply filterMap_sublist
  rintro ⟨task, p⟩ shape h
  cases p with
  | done answer => rwa [builder?_done]
  | _ => cases task <;> cases h

theorem answeredBuilt_of_returned (h : Returned s) : answeredBuilt tasks s = builders tasks s := by
  rw [answeredBuilt_eq, builders]
  apply List.filterMap_congr
  rintro ⟨task, p⟩ hjob
  obtain ⟨answer, rfl⟩ := h p (List.of_mem_zip hjob).2
  exact (builder?_done task answer).symm

theorem Invariant.find?_of_success (h : Invariant tasks s) {shape : Shape} {t : Trampoline}
    {outcome : Outcome} (hmem : (shape, t, outcome) ∈ successes tasks s) :
    s.cache.find? shape = some t := by
  obtain ⟨⟨task, p⟩, hjob, hsuccess⟩ := List.mem_filterMap.1 hmem
  obtain ⟨rfl, hpoint⟩ := success?_eq_some hsuccess
  obtain ⟨_, ⟨⟩, hfind⟩ := (h.fits_of_mem hjob).gets hpoint
  exact hfind

theorem Invariant.mem_builders_of_succeeded (h : Invariant tasks s) {shape : Shape}
    (hmem : shape ∈ succeeded tasks s) : shape ∈ builders tasks s := by
  obtain ⟨⟨_, t, outcome⟩, hsuccess, rfl⟩ := List.mem_map.1 hmem
  exact (h.mem_builders _).2 ⟨t, h.find?_of_success hsuccess⟩

theorem Invariant.counted?_eq (h : Invariant tasks s) (hreturned : Returned s) {task : Task}
    {p : Point} (hjob : (task, p) ∈ jobs tasks s) :
    p.counted? = (success? task p).map (·.2.2) := by
  obtain ⟨answer, rfl⟩ := hreturned p (List.of_mem_zip hjob).2
  have hfits := h.fits_of_mem hjob
  cases hsuccess : answer.success? with
  | none => cases task <;> simp [Point.counted?, success?, hsuccess]
  | some success =>
      obtain ⟨t, outcome⟩ := success
      obtain ⟨shape, rfl, -⟩ := hfits t outcome hsuccess
      simp [Point.counted?, success?, hsuccess]

theorem mem_succeeded_of_answeredBuilt {shape : Shape} (hmem : shape ∈ answeredBuilt tasks s) :
    shape ∈ succeeded tasks s := by
  obtain ⟨⟨other, t, outcome⟩, hsuccess, hshape⟩ := List.mem_filterMap.1 hmem
  obtain ⟨-, ⟨⟩⟩ := Option.ite_none_right_eq_some.1 hshape
  exact List.mem_map_of_mem hsuccess

theorem Invariant.builds_of_returned (h : Invariant tasks s) (hreturned : Returned s) :
    s.cache.builds = (builders tasks s).length := by
  rw [builders, List.length_filterMap_eq_countP]
  refine (h.counts .built).trans (List.countP_congr ?_)
  rintro ⟨task, p⟩ hjob
  obtain ⟨answer, rfl⟩ := hreturned p (List.of_mem_zip hjob).2
  rw [h.counted?_eq hreturned hjob, builder?_done]
  rcases success? task (.done answer) with _ | ⟨shape, t, _ | _⟩ <;> simp

theorem Invariant.constructedOnce (h : Invariant tasks s) : ConstructedOnce tasks s where
  nodup := h.nodup
  fills_empty := fun i slot t hp => h.vacant i _ slot hp rfl
  grows := grows_run s
  same := by
    intro shape t u outcome outcome' ht hu
    exact Option.some.inj ((h.find?_of_success ht).symm.trans (h.find?_of_success hu))
  answered_le_one := h.nodup_builders.sublist (answeredBuilt_sublist tasks s)
  built_once := by
    intro shape hmem
    exact List.count_eq_one_of_mem h.nodup_builders (h.mem_builders_of_succeeded hmem)
  answered_once := by
    intro hreturned shape hmem
    rw [answeredBuilt_of_returned hreturned]
    exact List.count_eq_one_of_mem h.nodup_builders (h.mem_builders_of_succeeded hmem)
  builds_eq := by
    intro hreturned
    rw [h.builds_of_returned hreturned, ← List.toFinset_card_of_nodup h.nodup_builders]
    congr 1
    ext shape
    rw [List.mem_toFinset, List.mem_toFinset]
    refine ⟨fun hmem => ?_, h.mem_builders_of_succeeded⟩
    rw [← answeredBuilt_of_returned hreturned] at hmem
    exact mem_succeeded_of_answeredBuilt hmem
  hits_eq := by
    intro hreturned
    have hsum := countP_outcomes (fun job : Task × Point => job.2.counted?) (jobs tasks s)
    rw [← h.counts .built, ← h.counts .hit] at hsum
    rw [succeeded, List.length_map, successes, List.length_filterMap_eq_countP]
    refine hsum.trans (List.countP_congr ?_)
    rintro ⟨task, p⟩ hjob
    rw [h.counted?_eq hreturned hjob, Option.isSome_map]

theorem constructed_once (generator : Generator) (tasks : List Task) (schedule : List Nat) :
    ConstructedOnce tasks ((System.start (.empty generator) tasks).run schedule) :=
  ((invariant_start generator tasks).run schedule).constructedOnce

example :
    let generator : Generator := fun attempt _ =>
      if attempt = 0 then some (.codegen "out of memory") else none
    let shape : Shape := ⟨.counted 1 0, .void⟩
    let tasks : List Task := List.replicate 3 (.lookup shape)
    let s := (System.start (.empty generator) tasks).run (inTurns 3 30)
    s.lookups.length = 3 ∧ (successes tasks s).length = 2 ∧ s.cache.builds = 1 ∧
      s.cache.hits = 1 := by
  decide +kernel

end Once

end ForeignCall.Threads
