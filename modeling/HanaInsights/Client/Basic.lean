import HanaInsights.Client.Output
import HanaInsights.Client.SqlError
import HanaInsights.Command.Basic
import HanaInsights.Config.Basic
import HanaInsights.Cycle
set_option autoImplicit false

/-!
Queries through the command line client of the database, in batch mode. A command is built from the
connection and the query; what the client printed becomes rows, or the error that it reported.
-/

namespace HanaInsights
namespace Client

def noCredentials : String := "either userstore_key or user must be set"

/-- The password stands in the environment, never in the configuration. -/
def password (env : Environment) (c : Connection) : Except QueryError String :=
  match c.passwordEnv with
  | none => .error (.invalidConnection "password_env must be set with user")
  | some name =>
    match env.get? name with
    | some secret => .ok secret
    | none => .error (.invalidConnection ("environment variable " ++ name ++ " is not set"))

def given (text : Option String) : Option String := text.filter fun t => !t.isEmpty

def withDatabase (c : Connection) (cmd : SystemCommand) : SystemCommand :=
  match given c.database with
  | some database => cmd.withArgs ["-d", database]
  | none => cmd

/-- A key of the user store goes before user and password. -/
def withCredentials (env : Environment) (c : Connection) (cmd : SystemCommand) :
    Except QueryError SystemCommand :=
  match given c.userstoreKey, given c.user with
  | some key, _ => .ok (cmd.withArgs ["-U", key])
  | none, some user =>
    match password env c with
    | .ok secret => .ok ((cmd.withArgs ["-u", user, "-p"]).withSecret secret)
    | .error e => .error e
  | none, none => .error (.invalidConnection noCredentials)

def address (c : Connection) : String := c.host ++ ":" ++ toString c.port

/-- The text of the query is the last argument. -/
def command (env : Environment) (c : Connection) (timeout : Nat) (q : Query) :
    Except QueryError SystemCommand :=
  let cmd : SystemCommand := { program := c.clientPath, args := ["-n", address c] }
  match withCredentials env c (withDatabase c (cmd.withTimeout timeout)) with
  | .ok cmd => .ok (cmd.withArgs ["-j", "-a", "-x", q.sql])
  | .error e => .error e

def failureReason (c : Connection) (output : CommandOutput) : String :=
  match (SqlError.ofText? output.stderr).orElse fun _ => SqlError.ofText? output.stdout with
  | some e => "SQL error " ++ toString e.code ++ ": " ++ e.text
  | none =>
    (SystemError.commandFailed c.clientPath output.exitCode (Text.trim output.stderr)).message

def rowsOf (c : Connection) (q : Query) (output : CommandOutput) : Except QueryError (List Row) :=
  if output.success then
    match ClientOutput.rows output.stdout with
    | .ok rows => .ok rows
    | .error fault => .error (.invalidOutput q.name fault.message)
  else .error (.failed q.name (failureReason c output))

abbrev Runner := SystemCommand → Logged (Except CommandError CommandOutput)

/-- A query without text is refused before a command is built. -/
def execute (env : Environment) (c : Connection) (timeout : Nat) (runner : Runner) : Executor :=
  fun q =>
    if Text.isBlankText q.sql then
      pure (.error (.command (.invalidArguments ("query '" ++ q.name ++ "' has no SQL"))))
    else
      match command env c timeout q with
      | .error e => pure (.error e)
      | .ok cmd => do
        match ← runner cmd with
        | .error e => pure (.error (.command e))
        | .ok output =>
          match rowsOf c q output with
          | .error e => pure (.error e)
          | .ok rows => do
            Logged.write .debug
              ("Query " ++ q.name ++ " returned " ++ toString rows.length ++ " rows")
            pure (.ok rows)

/-- Credentials are checked with a command that is never run. -/
def credentialProblems (env : Environment) (c : Connection) (timeout : Nat) : List String :=
  match command env c timeout { name := "" } with
  | .error (.invalidConnection reason) => ["HANA credentials (" ++ reason ++ ")"]
  | _ => []

def missing (env : Environment) (c : Connection) (timeout : Nat)
    (available : String → Logged (Except CommandError Bool)) :
    Logged (Except QueryError (List String)) := do
  match ← available c.clientPath with
  | .error e => pure (.error (.command e))
  | .ok found =>
    pure (.ok ((if found then [] else [c.clientPath]) ++ credentialProblems env c timeout))

end Client
end HanaInsights
