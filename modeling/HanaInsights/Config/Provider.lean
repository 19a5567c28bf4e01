import HanaInsights.Config.Basic
import HanaInsights.DomainError
import HanaInsights.Files.Tree
set_option autoImplicit false

namespace HanaInsights

/-- Why a configuration file could not be taken over. -/
inductive ConfigFault where
  | unreadable (path reason : String)
  | malformed

def ConfigFault.toDomainError (fault : ConfigFault) (said : String := "") : DomainError :=
  match fault with
  | .unreadable path reason => .invalidConfiguration ("failed to read " ++ path ++ ": " ++ reason)
  | .malformed => .invalidConfiguration said

/-- A file's settings are checked when they are asked for, given ones are not. -/
inductive ConfigProvider where
  | file (config : AgentConfig)
  | given (config : AgentConfig)

namespace ConfigProvider

def config : ConfigProvider → AgentConfig
  | .file c => c
  | .given c => c

def ofConfig (env : Environment) (c : AgentConfig) : ConfigProvider := .file (c.withToken env)

def ofText (env : Environment) (text : String) : Except ConfigFault ConfigProvider :=
  match AgentConfig.read? text with
  | some c => .ok (ofConfig env c)
  | none => .error .malformed

def load (files : FileTree) (env : Environment) (path : String) :
    Logged (Except ConfigFault ConfigProvider) := do
  Logged.write .debug ("Loading configuration from " ++ path)
  match files.readText path with
  | .error fault => pure (.error (.unreadable path fault.message))
  | .ok text => pure (ofText env text)

def ofConnection (connection : Connection) : ConfigProvider := .given { hana := connection }

/-- A file has to name a host. -/
def connection : ConfigProvider → Except DomainError Connection
  | .file c =>
    if c.hana.host.isEmpty then .error (.invalidConfiguration "hana.host must not be empty")
    else .ok c.hana
  | .given c => .ok c.hana

theorem connection_eq_error_iff {p : ConfigProvider} {e : DomainError} :
    p.connection = .error e ↔ ∃ c, p = .file c ∧ c.hana.host = "" ∧
      e = .invalidConfiguration "hana.host must not be empty" := by
  cases p with
  | given c => simp [connection]
  | file c =>
    rw [connection]
    by_cases hhost : c.hana.host = ""
    · rw [if_pos (by simp [hhost]), Except.error.injEq]
      exact ⟨fun h => ⟨c, rfl, hhost, h.symm⟩, fun ⟨_, _, _, h⟩ => h.symm⟩
    · rw [if_neg (by simpa using hhost)]
      refine ⟨nofun, ?_⟩
      rintro ⟨c', hfile, hhost', -⟩
      cases hfile
      exact absurd hhost' hhost

def insights (p : ConfigProvider) : InsightsConfig := p.config.insights

def publish? (p : ConfigProvider) : Option PublishConfig :=
  if p.config.publish.endpoint.isEmpty then none else some p.config.publish

def output (p : ConfigProvider) : OutputConfig := p.config.output

end ConfigProvider

structure ExecutionConfig where
  commandTimeout : Nat := 30000
  retryCount : Nat := 2
  httpTimeout : Nat := 30000
  skipTlsVerify : Bool := false
  deriving DecidableEq, Repr

def ExecutionConfig.ofAgent (c : AgentConfig) : ExecutionConfig :=
  { commandTimeout := c.insights.commandTimeout * 1000
    retryCount := c.retryCount
    skipTlsVerify := c.publish.skipTlsVerify }

end HanaInsights
