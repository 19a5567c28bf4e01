import HanaInsights.Host
import HanaInsights.Service
set_option autoImplicit false

namespace HanaInsights

def Host.missing (h : Host) (execution : ExecutionConfig) (c : Connection) :
    Logged (Except QueryError (List String)) :=
  Client.missing h.environment c execution.commandTimeout h.available

namespace Service

def connected (h : Host) (send : Transport) (execution : ExecutionConfig) (c : Connection)
    (publisher : Publisher) (words : Wording := {}) : Service where
  loadRules dir := RuleFiles.load h.files dir words
  execute := Client.execute h.environment c execution.commandTimeout (h.runner execution)
  missing := h.missing execution c
  publish run config := publisher.publish h.environment send run config

/-- The connection is checked before anything else is looked at. -/
def ofProvider (h : Host) (send : Transport) (execution : ExecutionConfig) (p : ConfigProvider)
    (words : Wording := {}) : Except DomainError Service :=
  p.connection.map fun c => connected h send execution c (.ofConfig p.publish?) words

section
variable (h : Host) (send : Transport) (execution : ExecutionConfig) (words : Wording)

theorem ofProvider_ofConnection (c : Connection) :
    ofProvider h send execution (.ofConnection c) words =
      .ok (connected h send execution c .log words) := rfl

/-- There is a service unless a configuration file names no host. -/
theorem ofProvider_eq_error_iff {p : ConfigProvider} {e : DomainError} :
    ofProvider h send execution p words = .error e ↔ ∃ c, p = .file c ∧ c.hana.host = "" ∧
      e = .invalidConfiguration "hana.host must not be empty" := by
  rw [← ConfigProvider.connection_eq_error_iff, ofProvider]
  cases p.connection <;> simp [Except.map]

end

end Service
end HanaInsights
