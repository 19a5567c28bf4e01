import HanaInsights.Client.Basic
import HanaInsights.Config.Provider
import HanaInsights.Publish.Basic
import HanaInsights.Rule.BuiltIn
import HanaInsights.Rule.Files
import HanaInsights.Query.Recording
set_option autoImplicit false

namespace HanaInsights

structure Service where
  loadRules : String → Logged (Except RuleError (List Rule))
  execute : Executor
  missing : Logged (Except QueryError (List String))
  publish : Run → PublishConfig → Logged (Except PublishError Unit)

namespace Service

def rules (s : Service) (c : InsightsConfig) : Logged (Except ReportError (List Rule)) :=
  match c.rulesDir with
  | none => pure (.ok RuleSet.builtIn)
  | some dir => do
    Logged.write .debug ("Loading rules from " ++ dir)
    match ← s.loadRules dir with
    | .ok rules => pure (.ok rules)
    | .error e => pure (.error (.rules e))

def findings (s : Service) (c : InsightsConfig) : Logged (Except ReportError Cycle.Findings) := do
  match ← s.rules c with
  | .error e => pure (.error e)
  | .ok rules => do
    let found ← Cycle.run s.execute c.strict rules
    pure (.ok found)

def ruleErrors (s : Service) (c : InsightsConfig) : Logged (Except ReportError (List RuleError)) :=
  do
    match ← s.rules c with
    | .error e => pure (.error e)
    | .ok rules => pure (.ok (RuleSet.errors rules))

def missingDependencies (s : Service) : Logged (Except ReportError (List String)) := do
  match ← s.missing with
  | .ok names => pure (.ok names)
  | .error e => pure (.error (.domain (DomainError.ofQuery e)))

/-- A service that replays a recording needs nothing and publishes to the log. -/
def offline (files : FileTree) (recording : Recording) (words : Wording := {}) : Service where
  loadRules dir := RuleFiles.load files dir words
  execute := Executor.ofFunction recording.execute
  missing := pure (.ok [])
  publish run c := Publisher.log.publish Keyed.empty (fun _ => .error "") run c

end Service
end HanaInsights
