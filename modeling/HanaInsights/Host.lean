import HanaInsights.Client.Basic
import HanaInsights.Command.Execution
import HanaInsights.Config.Provider
import HanaInsights.Shell.Evaluation
set_option autoImplicit false

/-!
A host on paper: files and an environment in which commands can be followed through without running
anything. Every command starts from the same files; what it leaves behind is its output, its exit
code and the signals it sent to the agent.
-/

namespace HanaInsights

structure Host where
  files : FileTree
  environment : Environment

namespace Host

def agentIdentity : Nat := 1000

def searchPath (h : Host) : String := (h.environment.get? "PATH").getD "/bin:/usr/bin"

def firstProcess (h : Host) (limit : Nat) : Shell.Process where
  files := h.files
  assigned := h.environment
  exported := h.environment.keys
  functions := Keyed.empty
  name := ""
  arguments := []
  status := 0
  clock := 0
  limit := limit
  identity := agentIdentity
  parent := 1
  agent := agentIdentity
  nextIdentity := agentIdentity + 1
  signals := []
  input := []
  sinks := [(1, .buffer 0), (2, .buffer 1)]
  buffers := [[], []]

def hasNul (c : SystemCommand) : Bool :=
  (c.program :: c.args).any fun text => text.toList.contains '\x00'

/-- The longest text that can be passed to a program. -/
def argumentLimit : Nat := 131071

def hasLongArgument (c : SystemCommand) : Bool :=
  (c.program :: c.args).any fun text => argumentLimit < text.utf8ByteSize

def refusal? (h : Host) (c : SystemCommand) : Option (Refusal × String) :=
  if hasNul c then some (.other, "nul byte found in provided data")
  else
    match Shell.Program.find? h.files h.searchPath c.program >>= Shell.Program.imageOf h.files with
    | .ok _ =>
      if hasLongArgument c then some (.other, "Argument list too long (os error 7)") else none
    | .error .notFound => some (.notFound, FileFault.notFound.message)
    | .error .permissionDenied => some (.permissionDenied, FileFault.permissionDenied.message)
    | .error fault => some (.other, fault.message)

def follow (h : Host) (limit : Nat) (c : SystemCommand) : Started × List Signal :=
  let ended (p : Shell.Process) (exitCode : Option Int) : Started × List Signal :=
    (.ended (p.buffers.getD 0 []).reverse (p.buffers.getD 1 []).reverse exitCode, p.signals)
  match (Shell.start c.program c.args).run (h.firstProcess limit) with
  | .ok _ p => ended p (some (p.status % 256 : Nat))
  | .error (.killed _ _) p => ended p none
  | .error .outOfTime p => (.outOfTime, p.signals)
  | .error _ p => ended p (some (p.status % 256 : Nat))

def start (h : Host) : Starter := fun c limit =>
  match h.refusal? c with
  | some (refusal, reason) => pure (.refused refusal reason)
  | none =>
    let (started, signals) := h.follow limit c
    ⟨started, [], signals⟩

def runner (h : Host) (config : ExecutionConfig) : Client.Runner :=
  h.start.execute config.commandTimeout (UInt32.ofNat config.retryCount)

def lookupLimit : Nat := 5000

/-- A name with a slash is a path to a file; others are looked up in the search path. -/
def available (h : Host) (name : String) : Logged (Except CommandError Bool) := do
  if name.toList.contains '/' then pure (.ok (h.files.isFile name))
  else
    let lookup : SystemCommand :=
      { program := "which", args := [name], timeout := some lookupLimit }
    match ← h.start.once lookupLimit lookup with
    | .ok output => pure (.ok (output.success && !Text.isBlankText output.stdout))
    | .error _ => pure (.ok false)

end Host
end HanaInsights
