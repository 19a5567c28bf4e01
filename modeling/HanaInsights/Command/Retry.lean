import HanaInsights.Command.Basic
import HanaInsights.Logged
set_option autoImplicit false

/-!
Retrying commands. A command that could not be run or took too long is tried again, after a pause
that grows with each attempt. A command that ran is never repeated, whatever its exit status, and
neither is one whose program is missing or may not be run.
-/

namespace HanaInsights

def CommandError.isRetryable : CommandError → Bool
  | .system (.commandNotFound _) => false
  | .system (.permissionDenied _) => false
  | _ => true

namespace Retry

variable {α : Type}

structure Result (α : Type) where
  outcome : Except CommandError α
  started : Nat
  pauses : List UInt64

def retryLine (e : CommandError) (attempt : UInt32) : LogLine :=
  warnLine (e.message ++ " (attempt " ++ toString attempt ++ "), retrying")

/-- Attempts are counted in 32 bits, and the pause after one of them in 64. -/
def pause (attempt : UInt32) : UInt64 := 100 * attempt.toUInt64

theorem toNat_pause (attempt : UInt32) : (pause attempt).toNat = 100 * attempt.toNat := by
  have hattempt : attempt.toNat < 2 ^ 32 := attempt.toNat_lt
  rw [pause, UInt64.toNat_mul, UInt32.toNat_toUInt64]
  exact Nat.mod_eq_of_lt (by simp; omega)

theorem toNat_add_one {attempt retries : UInt32} (h : attempt < retries) :
    (attempt + 1).toNat = attempt.toNat + 1 := by
  have hretries : retries.toNat < 2 ^ 32 := retries.toNat_lt
  have hlt : attempt.toNat < retries.toNat := UInt32.lt_iff_toNat_lt.1 h
  rw [UInt32.toNat_add]
  exact Nat.mod_eq_of_lt (by simp; omega)

/-- Starts the command once more, after so many attempts that failed and so many starts. -/
def attemptFrom (once : Nat → Logged (Except CommandError α)) (retries attempt : UInt32)
    (started : Nat) (pauses : List UInt64) : Logged (Result α) := do
  match ← once started with
  | .ok output => pure ⟨.ok output, started + 1, pauses⟩
  | .error e =>
    if h : attempt < retries ∧ e.isRetryable = true then do
      Logged.writeAll [retryLine e (attempt + 1)]
      attemptFrom once retries (attempt + 1) (started + 1) (pauses ++ [pause (attempt + 1)])
    else pure ⟨.error e, started + 1, pauses⟩
termination_by retries.toNat - attempt.toNat
decreasing_by
  have hlt : attempt.toNat < retries.toNat := UInt32.lt_iff_toNat_lt.1 h.1
  rw [toNat_add_one h.1]
  omega

def run (once : Nat → Logged (Except CommandError α)) (retries : UInt32) : Logged (Result α) :=
  attemptFrom once retries 0 0 []

end Retry
end HanaInsights
