import HanaInsights.Command.Basic
import HanaInsights.Command.Retry
import HanaInsights.Text.Blank
import HanaInsights.Text.Utf8
set_option autoImplicit false

/-!
Executing commands. How a program is started and waited for is passed in; what its end means for the
command, and what is logged about it, is settled here.
-/

namespace HanaInsights

inductive Refusal where
  | notFound
  | permissionDenied
  | other
  deriving DecidableEq, Repr

/-- What starting a program comes to. The system refuses in its own words. -/
inductive Started where
  | ended (stdout stderr : List UInt8) (exitCode : Option Int)
  | refused (refusal : Refusal) (reason : String)
  | outOfTime
  deriving DecidableEq, Repr

/-- A span of time in the largest unit that makes it at least one, without needless zeros. -/
def spanText (milliseconds : Nat) : String :=
  if milliseconds = 0 then "0ns"
  else if milliseconds < 1000 then toString milliseconds ++ "ms"
  else
    let thousandths := (Nat.toDigits 10 (1000 + milliseconds % 1000)).drop 1
    let fraction := (thousandths.reverse.dropWhile (· == '0')).reverse
    toString (milliseconds / 1000) ++
      (if fraction.isEmpty then "" else "." ++ String.ofList fraction) ++ "s"

namespace Started

/-- A program that came to its end is a result, whatever its exit code. -/
def result (c : SystemCommand) (limit : Nat) : Started → Except CommandError CommandOutput
  | .ended stdout stderr exitCode =>
    .ok ⟨Utf8.decodeLossy stdout, Utf8.decodeLossy stderr, exitCode, exitCode == some 0⟩
  | .refused .notFound _ => .error (.system (.commandNotFound c.program))
  | .refused .permissionDenied reason =>
    .error (.system (.permissionDenied (c.program ++ ": " ++ reason)))
  | .refused .other reason =>
    .error (.executionFailed ("Failed to execute command '" ++ c.program ++ "': " ++ reason))
  | .outOfTime =>
    .error (.system (.timeout
      ("Command '" ++ c.program ++ "' timed out after " ++ spanText limit)))

end Started

abbrev Starter := SystemCommand → Nat → Logged Started

namespace Starter

def exitText : Option Int → String
  | some code => "Some(" ++ toString code ++ ")"
  | none => "None"

def failureLines (c : SystemCommand) : Except CommandError CommandOutput → List LogLine
  | .ok output =>
    if output.success then []
    else [debugLine (c.program ++ " exited with " ++ exitText output.exitCode ++ ": " ++
      Text.trim output.stderr)]
  | .error _ => []

def once (start : Starter) (defaultLimit : Nat) (c : SystemCommand) :
    Logged (Except CommandError CommandOutput) := do
  let limit := c.timeout.getD defaultLimit
  Logged.write .debug ("Executing: " ++ c.display)
  let started ← start c limit
  Logged.writeAll (failureLines c (started.result c limit))
  pure (started.result c limit)

def execute (start : Starter) (defaultLimit : Nat) (retries : UInt32) (c : SystemCommand) :
    Logged (Except CommandError CommandOutput) := do
  let result ← Retry.run (fun _ => start.once defaultLimit c) retries
  pure result.outcome

end Starter
end HanaInsights
