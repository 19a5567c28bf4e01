import HanaInsights.CommandLine.Arguments
import HanaInsights.Publish.File
import HanaInsights.Schedule
import HanaInsights.Service.Connected
set_option autoImplicit false

/-!
What an invocation comes to: its output, its exit code, the failure it reports and the files it
leaves. Everything an invocation depends on is given with it.
-/

namespace HanaInsights.CommandLine

/-- Where the agent runs, and how it is seen from there: the name of its host, the second in which
its runs finish, and the way to an endpoint. -/
structure Setting where
  host : Host
  hostname : String
  now : Nat
  send : Transport

/-- A fault of a document comes with what was said about its text. -/
inductive Failure where
  | configuration (fault : ConfigFault) (said : String)
  | recording (fault : RecordingFault) (said : String)
  | domain (error : DomainError)
  | report (error : ReportError)
  | publish (error : PublishError)
  | unwritable (said : String)
  | other (reason : String)

def Failure.name : Failure → String
  | .configuration fault said => (fault.toDomainError said).kind
  | .recording fault said => (fault.toQueryError said).kind
  | .domain error => error.kind
  | .report error => error.kind
  | .publish error => error.kind
  | .unwritable _ => "Error"
  | .other reason => "\"" ++ reason ++ "\""

def Failure.message : Failure → String
  | .configuration fault said => (fault.toDomainError said).message
  | .recording fault said => (fault.toQueryError said).message
  | .domain error => error.message
  | .report error => error.message
  | .publish error => error.message
  | .unwritable said => said
  | .other reason => reason

structure Outcome where
  exitCode : Option Nat
  stdout : String
  failure : Option Failure
  files : FileTree

def succeeded (files : FileTree) (stdout : String) : Outcome := ⟨some 0, stdout, none, files⟩

def failed (files : FileTree) (failure : Failure) : Outcome := ⟨some 1, "", some failure, files⟩

def loadConfig (s : Setting) : Option String → Logged (Except ConfigFault AgentConfig)
  | none => pure (.ok {})
  | some path => do
    match ← ConfigProvider.load s.host.files s.host.environment path with
    | .ok p => pure (.ok p.config)
    | .error fault => pure (.error fault)

def textAt (files : FileTree) (path : String) : String := (files.readText path).toOption.getD ""

def withOptions (c : InsightsConfig) (rules : Option String) (strict : Bool) : InsightsConfig :=
  { c with rulesDir := rules.orElse fun _ => c.rulesDir, strict := c.strict || strict }

def evaluate (s : Setting) (words : Wording) (config : AgentConfig) (results : String)
    (rules : Option String) (strict : Bool) (format : OutputFormat) : Logged Outcome := do
  let files := s.host.files
  match Recording.load files results with
  | .error fault => pure (failed files (.recording fault (words.recording (textAt files results))))
  | .ok recording => do
    let service := Service.offline files recording words
    match ← service.findings (withOptions config.insights rules strict) with
    | .error e => pure (failed files (.report e))
    | .ok found =>
      match (Run.ofFindings s.now s.hostname found).render? format with
      | some text => pure (succeeded files (text ++ "\n"))
      | none => pure (failed files (.unwritable words.count))

def validateRules (s : Setting) (words : Wording) (config : AgentConfig) (rules : Option String) :
    Logged Outcome := do
  let files := s.host.files
  let service := Service.offline files Recording.empty words
  match ← service.ruleErrors (withOptions config.insights rules false) with
  | .error e => pure (failed files (.report e))
  | .ok [] => pure (succeeded files "All rules are valid\n")
  | .ok errors =>
    let stdout := String.join (errors.map fun e => e.message ++ "\n")
    let count := toString errors.length ++ " rule validation errors"
    pure { failed files (.other count) with stdout }

def printConfig (s : Setting) (words : Wording) (order : Arrangement) (config : AgentConfig) :
    Outcome :=
  match config.render? order with
  | some text => succeeded s.host.files text
  | none => failed s.host.files (.unwritable words.count)

structure Progress where
  files : FileTree
  signals : List Signal

/-- Evaluates, publishes and saves; the first of these that fails ends the cycle. -/
def cycle (s : Setting) (words : Wording) (p : ConfigProvider) (service : Service)
    (files : FileTree) : Logged (FileTree × Except Failure Unit) := do
  match ← service.findings p.insights with
  | .error e => pure (files, .error (.report e))
  | .ok found => do
    let run := Run.ofFindings s.now s.hostname found
    match ← service.publish run (p.publish?.getD {}) with
    | .error e => pure (files, .error (.publish e))
    | .ok () =>
      match FilePublisher.ofConfig? p.output with
      | none => pure (files, .ok ())
      | some publisher => do
        match ← publisher.publish files run words with
        | (files, .ok ()) => pure (files, .ok ())
        | (files, .error e) => pure (files, .error (.publish e))

def signalLine : Signal → LogLine
  | .terminate => infoLine "Received SIGTERM"
  | .interrupt => infoLine "Received SIGINT"

/-- A cycle of the periodic loop: a failure is logged and the next cycle tries again. A signal that
came meanwhile is noticed when the cycle is over. -/
def periodicCycle (s : Setting) (words : Wording) (p : ConfigProvider)
    (service : FileTree → Service) (progress : Progress) : Logged Progress :=
  let done := cycle s words p (service progress.files) progress.files
  let failures :=
    match done.value.2 with
    | .ok () => []
    | .error e => [errorLine ("Insights cycle failed: " ++ e.message)]
  let noticed := (done.signals.head?.map signalLine).toList
  ⟨⟨done.value.1, progress.signals ++ done.signals⟩, done.log ++ failures ++ noticed, []⟩

def periodicLoop (s : Setting) (words : Wording) (p : ConfigProvider)
    (service : FileTree → Service) : Schedule.Loop Progress where
  ready progress := ⟨!progress.signals.isEmpty, true⟩
  cycle := periodicCycle s words p service
  wait := id

/-- More cycles than are ever followed. -/
def cycleLimit : Nat := 1000

/-- A signal that comes before anyone waits for one ends the agent. -/
def onlyOnce (files : FileTree) (done : Logged (FileTree × Except Failure Unit)) : Outcome :=
  if done.signals.isEmpty then
    match done.value with
    | (files, .ok ()) => succeeded files ""
    | (files, .error e) => failed files e
  else ⟨none, "", none, files⟩

def periodically (s : Setting) (words : Wording) (p : ConfigProvider)
    (service : FileTree → Service) : Logged Outcome := do
  let files := s.host.files
  let seconds := max 1 p.insights.intervalSecs
  Logged.write .info ("Evaluating insights every " ++ toString seconds ++ "s")
  match ← (periodicLoop s words p service).run cycleLimit 0 ⟨files, []⟩ with
  | some (progress, _) => pure (succeeded progress.files "")
  | none => pure ⟨none, "", none, files⟩

def warnAboutMissing (names : List String) : List LogLine :=
  if names.isEmpty then [] else [warnLine ("Missing dependencies: " ++ ", ".intercalate names)]

def warnAboutEndpoint (s : Setting) : Option PublishConfig → List LogLine
  | none => []
  | some c =>
    if (Publisher.ofConfig (some c)).reach s.host.environment s.send c then []
    else [warnLine ("Publish endpoint " ++ c.endpoint ++ " is not reachable")]

def run (s : Setting) (words : Wording) (config : AgentConfig) (once : Bool) :
    Logged Outcome := do
  let files := s.host.files
  let execution := ExecutionConfig.ofAgent config
  let p := ConfigProvider.ofConfig s.host.environment config
  match p.connection with
  | .error e => pure (failed files (.domain e))
  | .ok connection => do
    match ← s.host.missing execution connection with
    | .error e => pure (failed files (.other ("Failed to check dependencies: " ++ e.message)))
    | .ok names => do
      Logged.writeAll (warnAboutMissing names)
      Logged.writeAll (warnAboutEndpoint s p.publish?)
      let service (files : FileTree) : Service :=
        .connected { s.host with files } s.send execution connection (.ofConfig p.publish?) words
      if once then
        let done := cycle s words p (service files) files
        ⟨onlyOnce files done, done.log, []⟩
      else periodically s words p service

def perform (s : Setting) (i : Invocation) (words : Wording := {})
    (order : Arrangement := .byName) : Logged Outcome := do
  match ← loadConfig s i.config with
  | .error fault =>
    let said := words.settings (textAt s.host.files (i.config.getD ""))
    pure (failed s.host.files (.configuration fault said))
  | .ok config =>
    match i.request with
    | .run once => run s words config once
    | .evaluate results rules strict format => evaluate s words config results rules strict format
    | .validateRules rules => validateRules s words config rules
    | .printConfig => pure (printConfig s words order config)

def versionText : String := "sapagent 0.1.0\n"

def usageText : String :=
  "Evaluate SAP HANA Insights rules\n\n" ++
  "Usage: sapagent [OPTIONS] <COMMAND>\n\n" ++
  "Commands:\n" ++
  "  run             Query HANA and evaluate the rules every interval_secs\n" ++
  "  evaluate        Evaluate rules against recorded query results\n" ++
  "  validate-rules  Check rule definitions without running any query\n" ++
  "  print-config    Print the effective configuration\n"

def answer (s : Setting) (arguments : List String) (words : Wording := {})
    (order : Arrangement := .byName) : Logged Outcome :=
  match read s.host.environment arguments with
  | .invocation i => perform s i words order
  | .help => pure (succeeded s.host.files usageText)
  | .version => pure (succeeded s.host.files versionText)
  | .misuse => pure ⟨some 2, "", none, s.host.files⟩

end HanaInsights.CommandLine
