import ForeignCall.Proofs.Outcome

namespace ForeignCall

inductive Calls (σ : Type) where
  | none
  | call (request : Request σ) (signature : Signature) (result : Except Rejection Value)
      (inner later : Calls σ)

def Calls.results {σ : Type} : Calls σ → List (Except Rejection Value)
  | .none => []
  | .call _ _ result inner later => result :: (inner.results ++ later.results)

variable {ω σ : Type}

def Program.trace : Program ω σ → State ω σ → Calls σ
  | .finish _, _ => .none
  | .act effect next, s =>
      let world := effect s.world
      (next world).trace { s with world }
  | .call request signature body next, s =>
      let (result, after) :=
        s.dispatchWith (fun received s => (body received).run s) signature request
      let inner :=
        match s.entrance? signature request with
        | some (received, called) => (body received).trace called
        | none => .none
      .call request signature result inner ((next result).trace after)

namespace State

variable {limits : Limits} {generator : Generator} {s : State ω σ}

theorem made_enter (hs : s.dispatcher.Made limits generator) (request : Request σ) :
    (s.enter request).dispatcher.Made limits generator :=
  hs.lookup request.claimed.shape

theorem made_dispatchWith (hs : s.dispatcher.Made limits generator)
    (body : List Value → Program ω σ) (signature : Signature) (request : Request σ) :
    (s.dispatchWith (fun received s => (body received).run s) signature
      request).2.dispatcher.Made limits generator :=
  (kept_made limits generator).dispatchWith hs
    (fun received _ => (kept_made limits generator).run (body received)) signature request

theorem wordCount_not_mem_results (hs : s.dispatcher.Made limits generator)
    (program : Program ω σ) (e : WordCountMismatch) :
    .error (.wordCount e) ∉ (program.trace s).results := by
  induction program generalizing s with
  | finish word => exact List.not_mem_nil
  | act effect next ih => exact ih _ hs
  | call request signature body next ihBody ihNext =>
      have hafter := made_dispatchWith hs body signature request
      have hended := ended request (fun received s => (body received).run s) signature hs
      rw [Program.trace, Calls.results, List.mem_cons, List.mem_append]
      generalize s.dispatchWith (fun received s => (body received).run s) signature request =
        ended at hafter hended ⊢
      cases hended with
      | rejected rejects barred =>
          rw [barred]
          rintro (h | h | h)
          · cases h
            cases rejects
          · cases h
          · exact ihNext _ hafter h
      | unbuilt _ _ barred =>
          rw [barred]
          rintro (h | h | h)
          · cases h
          · cases h
          · exact ihNext _ hafter h
      | returned _ _ _ entered _ =>
          rw [entered]
          rintro (h | h | h)
          · cases h
          · exact ihBody _ (made_enter hs request) h
          · exact ihNext _ hafter h

end State

section Builds

def constructed : Except BuildError (Trampoline × Outcome) → Nat
  | .ok (_, .built) => 1
  | .ok (_, .hit) | .error _ => 0

theorem Cache.Looked.builds_eq {cache : Cache} {shape : Shape}
    {looked : Except BuildError (Trampoline × Outcome) × Cache} (h : cache.Looked shape looked) :
    looked.2.builds = cache.builds + constructed looked.1 := by
  cases h with
  | hit _ => rfl
  | built _ _ attempted | failed _ _ attempted => exact attempted.builds_eq

namespace State

def builtFor (s : State ω σ) (request : Request σ) : Nat :=
  if request.claimed.Accepts s.dispatcher.limits request.args then
    constructed (s.dispatcher.lookup request.claimed.shape).1
  else
    0

-- How many the callee builds if the call gets to it; `count` says how many it builds in a run.
def builtInside (s : State ω σ) (signature : Signature) (request : Request σ)
    (count : List Value → State ω σ → Nat) : Nat :=
  match s.entrance? signature request with
  | some (received, called) => count received called
  | none => 0

end State

def Program.built : Program ω σ → State ω σ → Nat
  | .finish _, _ => 0
  | .act effect next, s =>
      let world := effect s.world
      (next world).built { s with world }
  | .call request signature body next, s =>
      let (result, after) :=
        s.dispatchWith (fun received s => (body received).run s) signature request
      s.builtFor request +
        s.builtInside signature request (fun received s => (body received).built s) +
        (next result).built after

namespace State

variable {limits : Limits} {generator : Generator} {s : State ω σ}

end State

end Builds

section Unobserved

namespace State

end State

end Unobserved

end ForeignCall
