import HanaInsights.Logged
set_option autoImplicit false

/-!
The periodic loop. A shutdown is looked for before each cycle and never during one, so that a
shutdown that comes while a cycle runs ends the loop as soon as that cycle is over.
-/

namespace HanaInsights.Schedule

structure Ready where
  shutdown : Bool
  tick : Bool
  deriving DecidableEq, Repr

/-- A loop over states. The state tells what is ready; it changes while a cycle runs and while the
loop has nothing to do. -/
structure Loop (σ : Type) where
  ready : σ → Ready
  cycle : σ → Logged σ
  wait : σ → σ

variable {σ : Type}

/-- Where the loop ended and how many cycles it ran; none if it goes on beyond the given number of
looks. A shutdown goes before a tick that is ready at the same time. -/
def Loop.run (l : Loop σ) : Nat → Nat → σ → Logged (Option (σ × Nat))
  | looks, ran, state =>
    if (l.ready state).shutdown then do
      Logged.write .info ("Shutting down after " ++ toString ran ++ " cycles")
      pure (some (state, ran))
    else
      match looks with
      | 0 => pure none
      | looks + 1 =>
        if (l.ready state).tick then do
          let state ← l.cycle state
          l.run looks (ran + 1) state
        else l.run looks ran (l.wait state)

end HanaInsights.Schedule
