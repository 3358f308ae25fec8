import ForeignCall.Sink
import ForeignCall.Trampoline

namespace ForeignCall

structure CacheSlot where
  shape : Shape
  ready : Option Trampoline
  deriving DecidableEq, Repr

structure Cache where
  generator : Generator
  slots : List CacheSlot
  builds : Nat
  hits : Nat
  attempts : Nat

structure Counters where
  shapes : Nat
  builds : UInt64
  hits : UInt64
  deriving DecidableEq, Repr

namespace Cache

def empty (generator : Generator) : Cache :=
  ⟨generator, [], 0, 0, 0⟩

def size (cache : Cache) : Nat :=
  cache.slots.length

def isEmpty (cache : Cache) : Bool :=
  cache.slots.isEmpty

def counters (cache : Cache) : Counters :=
  ⟨cache.size, .ofNat cache.builds, .ofNat cache.hits⟩

def slotOf? (cache : Cache) (shape : Shape) : Option Nat :=
  cache.slots.findIdx? fun slot => slot.shape == shape

def ready? (cache : Cache) (slot : Nat) : Option Trampoline :=
  cache.slots[slot]?.bind CacheSlot.ready

def claim (cache : Cache) (shape : Shape) : Nat × Cache :=
  match cache.slotOf? shape with
  | some slot => (slot, cache)
  | none => (cache.size, { cache with slots := cache.slots ++ [⟨shape, none⟩] })

def fill (cache : Cache) (slot : Nat) (t : Trampoline) : Cache :=
  { cache with slots := cache.slots.modify slot fun s => { s with ready := s.ready.or (some t) } }

def countHit (cache : Cache) : Cache :=
  { cache with hits := cache.hits + 1 }

def countBuild (cache : Cache) : Cache :=
  { cache with builds := cache.builds + 1 }

def attempt (cache : Cache) (shape : Shape) : Except BuildError Trampoline × Cache :=
  (Trampoline.build cache.generator cache.attempts shape,
    { cache with attempts := cache.attempts + 1 })

def lookup (cache : Cache) (shape : Shape) : Except BuildError (Trampoline × Outcome) × Cache :=
  let (slot, cache) := cache.claim shape
  match cache.ready? slot with
  | some t => (.ok (t, .hit), cache.countHit)
  | none =>
      match cache.attempt shape with
      | (.error e, cache) => (.error e, cache)
      | (.ok t, cache) => (.ok (t, .built), (cache.fill slot t).countBuild)

def find? (cache : Cache) (shape : Shape) : Option Trampoline :=
  (cache.slotOf? shape).bind cache.ready?

theorem find?_empty (generator : Generator) (shape : Shape) :
    (empty generator).find? shape = none := rfl

theorem find?_claim (cache : Cache) (shape : Shape) :
    (cache.claim shape).2.ready? (cache.claim shape).1 = cache.find? shape := by
  unfold claim find?
  cases h : cache.slotOf? shape with
  | some slot => rfl
  | none => simp [ready?, size]

end Cache

end ForeignCall
