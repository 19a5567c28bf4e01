set_option autoImplicit false

namespace HanaInsights

inductive SystemError where
  | commandFailed (command : String) (exitCode : Option Int) (stderr : String)
  | commandNotFound (command : String)
  | permissionDenied (reason : String)
  | timeout (reason : String)
  deriving DecidableEq, Repr

def SystemError.kind : SystemError → String
  | .commandFailed .. => "CommandFailed"
  | .commandNotFound _ => "CommandNotFound"
  | .permissionDenied _ => "PermissionDenied"
  | .timeout _ => "Timeout"

/-- The exit code and the error output are left out where there is none. -/
def SystemError.message : SystemError → String
  | .commandFailed command exitCode stderr =>
    "Command '" ++ command ++ "' failed" ++
      (match exitCode with
        | some code => " with exit code " ++ toString code
        | none => "") ++
      (if stderr.isEmpty then "" else ": " ++ stderr)
  | .commandNotFound command => "Command not found: " ++ command
  | .permissionDenied reason => "Permission denied: " ++ reason
  | .timeout reason => "Timeout: " ++ reason

inductive CommandError where
  | system (error : SystemError)
  | executionFailed (reason : String)
  | invalidArguments (reason : String)
  deriving DecidableEq, Repr

def CommandError.kind : CommandError → String
  | .system error => "System." ++ error.kind
  | .executionFailed _ => "ExecutionFailed"
  | .invalidArguments _ => "InvalidArguments"

def CommandError.message : CommandError → String
  | .system error => error.message
  | .executionFailed reason => "Command execution failed: " ++ reason
  | .invalidArguments reason => "Invalid arguments: " ++ reason

end HanaInsights
