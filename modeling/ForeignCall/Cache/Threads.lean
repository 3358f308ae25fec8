import ForeignCall.Cache

namespace ForeignCall.Threads

inductive Task where
  | lookup (shape : Shape)
  | find (shape : Shape)
  | size
  | counters
  deriving DecidableEq, Repr

inductive Answer where
  | lookup (result : Except BuildError (Trampoline × Outcome))
  | found (trampoline : Option Trampoline)
  | size (shapes : Nat)
  | counters (counters : Counters)

-- Where a thread stands: the step that it takes next, with what it knows by then. A start takes a
-- lock and an end releases it. A thread peeks at a slot without its guard, and rechecks it under
-- the guard; a hit may be counted in either case.
inductive Point where
  | start (task : Task)
  | read (task : Task)
  | readEnd (next : Point)
  | insertStart (shape : Shape)
  | insert (shape : Shape)
  | insertEnd (shape : Shape) (slot : Nat)
  | peek (shape : Shape) (slot : Nat)
  | guardStart (shape : Shape) (slot : Nat)
  | recheck (shape : Shape) (slot : Nat)
  | buildStart (shape : Shape) (slot : Nat)
  | build (shape : Shape) (slot : Nat)
  | buildEnd (slot : Nat) (result : Except BuildError Trampoline)
  | store (slot : Nat) (trampoline : Trampoline)
  | countBuild (slot : Nat) (trampoline : Trampoline)
  | countHit (guard : Option Nat) (trampoline : Trampoline)
  | guardEnd (slot : Nat) (answer : Answer)
  | loadBuilds (shapes : Nat)
  | loadHits (shapes : Nat) (builds : UInt64)
  | done (answer : Answer)

structure System where
  cache : Cache
  readers : List Nat
  writer : Option Nat
  guards : List (Nat × Nat)
  builder : Option Nat
  threads : List Point

namespace System

def start (cache : Cache) (tasks : List Task) : System :=
  ⟨cache, [], none, [], none, tasks.map .start⟩

def goto (s : System) (thread : Nat) (point : Point) : System :=
  { s with threads := s.threads.set thread point }

def afterRead (cache : Cache) : Task → Point
  | .lookup shape =>
      match cache.slotOf? shape with
      | some slot => .peek shape slot
      | none => .insertStart shape
  | .find shape => .done (.found (cache.find? shape))
  | .size => .done (.size cache.size)
  | .counters => .loadBuilds cache.size

def stepAt (s : System) (thread : Nat) : Point → Option System
  | .start task =>
      if s.writer = none then
        some ({ s with readers := thread :: s.readers }.goto thread (.read task))
      else none
  | .read task => some (s.goto thread (.readEnd (afterRead s.cache task)))
  | .readEnd next => some ({ s with readers := s.readers.erase thread }.goto thread next)
  | .insertStart shape =>
      if s.writer = none ∧ s.readers = [] then
        some ({ s with writer := some thread }.goto thread (.insert shape))
      else none
  | .insert shape =>
      let (slot, cache) := s.cache.claim shape
      some ({ s with cache }.goto thread (.insertEnd shape slot))
  | .insertEnd shape slot => some ({ s with writer := none }.goto thread (.peek shape slot))
  | .peek shape slot =>
      match s.cache.ready? slot with
      | some t => some (s.goto thread (.countHit none t))
      | none => some (s.goto thread (.guardStart shape slot))
  | .guardStart shape slot =>
      if s.guards.lookup slot = none then
        some ({ s with guards := (slot, thread) :: s.guards }.goto thread (.recheck shape slot))
      else none
  | .recheck shape slot =>
      match s.cache.ready? slot with
      | some t => some (s.goto thread (.countHit (some slot) t))
      | none => some (s.goto thread (.buildStart shape slot))
  | .buildStart shape slot =>
      if s.builder = none then
        some ({ s with builder := some thread }.goto thread (.build shape slot))
      else none
  | .build shape slot =>
      let (result, cache) := s.cache.attempt shape
      some ({ s with cache }.goto thread (.buildEnd slot result))
  | .buildEnd slot (.ok t) => some ({ s with builder := none }.goto thread (.store slot t))
  | .buildEnd slot (.error e) =>
      some ({ s with builder := none }.goto thread (.guardEnd slot (.lookup (.error e))))
  | .store slot t =>
      some ({ s with cache := s.cache.fill slot t }.goto thread (.countBuild slot t))
  | .countBuild slot t =>
      some ({ s with cache := s.cache.countBuild }.goto thread
        (.guardEnd slot (.lookup (.ok (t, .built)))))
  | .countHit (some slot) t =>
      some ({ s with cache := s.cache.countHit }.goto thread
        (.guardEnd slot (.lookup (.ok (t, .hit)))))
  | .countHit none t =>
      some ({ s with cache := s.cache.countHit }.goto thread (.done (.lookup (.ok (t, .hit)))))
  | .guardEnd slot answer =>
      some ({ s with guards := s.guards.erase (slot, thread) }.goto thread (.done answer))
  | .loadBuilds shapes => some (s.goto thread (.loadHits shapes s.cache.counters.builds))
  | .loadHits shapes builds =>
      some (s.goto thread (.done (.counters ⟨shapes, builds, s.cache.counters.hits⟩)))
  | .done _ => none

def step (s : System) (thread : Nat) : Option System :=
  s.threads[thread]?.bind (s.stepAt thread)

def run (s : System) (schedule : List Nat) : System :=
  schedule.foldl (fun s thread => (s.step thread).getD s) s

def lookups (s : System) : List (Except BuildError (Trampoline × Outcome)) :=
  s.threads.filterMap fun
    | .done (.lookup result) => some result
    | _ => none

end System

def inTurns (threads rounds : Nat) : List Nat :=
  (List.replicate rounds (List.range threads)).flatten

def lookupTogether (cache : Cache) (shape : Shape) (threads : Nat) :
    List (Except BuildError (Trampoline × Outcome)) × Cache :=
  let s := (System.start cache (List.replicate threads (.lookup shape))).run
    (inTurns threads (15 * threads))
  (s.lookups, s.cache)

end ForeignCall.Threads
