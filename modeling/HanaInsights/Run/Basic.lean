import HanaInsights.Cycle
import HanaInsights.Json.Printer
import HanaInsights.Json.Reader
import HanaInsights.Json.Record
import HanaInsights.Toml.Printer
import HanaInsights.Toml.Reader
set_option autoImplicit false

/-!
A run: the findings of one cycle with the time it finished and the host it ran on. Runs are written
as JSON and as TOML and read back from both; TOML cannot hold the largest counts.
-/

namespace HanaInsights

structure Run where
  generatedAt : Nat
  hostname : String
  rulesEvaluated : Nat
  knowledgeBaseKeys : Nat
  insights : Insights
  diagnostics : List Diagnostic
  deriving DecidableEq

def Run.ofFindings (generatedAt : Nat) (hostname : String) (f : Cycle.Findings) : Run :=
  ⟨generatedAt, hostname, f.rulesEvaluated, f.knowledgeBaseKeys, f.insights, f.diagnostics⟩

def Outcome.toJson (o : Outcome) : Json :=
  .object [("recommendationId", .string o.recommendationId), ("result", .bool o.result)]

def Outcome.decode? (s : Json.Source) (v : Json) : Option Outcome := do
  match ← v.fields? s ["recommendationId", "result"] with
  | [id, result] => some ⟨← Json.required Json.string? id, ← Json.required Json.bool? result⟩
  | _ => none

def Sample.toJson (s : Sample) : Json :=
  .object [("ruleId", .string s.ruleId), ("recommendationId", .string s.recommendationId),
    ("result", .bool s.result)]

def Diagnostic.toJson (d : Diagnostic) : Json :=
  .object [("ruleId", .string d.ruleId), ("recommendationId", .string d.recommendationId),
    ("message", .string d.message)]

def Diagnostic.decode? (s : Json.Source) (v : Json) : Option Diagnostic := do
  match ← v.fields? s ["ruleId", "recommendationId", "message"] with
  | [rule, recommendation, message] =>
    some ⟨← Json.required Json.string? rule, ← Json.required Json.string? recommendation,
      ← Json.required Json.string? message⟩
  | _ => none

def Insights.toJson (insights : Insights) : Json :=
  .object (insights.entries.map fun e => (e.1, .array (e.2.map Outcome.toJson)))

def Insights.decode? (s : Json.Source) (v : Json) : Option Insights :=
  (Json.pairsOf? (Json.listOf? (Outcome.decode? s)) v).map Keyed.ofList

def Insights.ofJson? : Json → Option Insights := decode? .json

namespace Run

def toJson (run : Run) : Json :=
  .object <| [("generatedAt", .natural run.generatedAt), ("hostname", .string run.hostname),
      ("rulesEvaluated", .natural run.rulesEvaluated),
      ("knowledgeBaseKeys", .natural run.knowledgeBaseKeys),
      ("insights", Insights.toJson run.insights)] ++
    (if run.diagnostics.isEmpty then []
      else [("diagnostics", .array (run.diagnostics.map Diagnostic.toJson))])

def decode? (s : Json.Source) (v : Json) : Option Run := do
  match ← v.fields? s ["generatedAt", "hostname", "rulesEvaluated", "knowledgeBaseKeys", "insights",
      "diagnostics"] with
  | [generatedAt, hostname, rulesEvaluated, knowledgeBaseKeys, insights, diagnostics] =>
    some {
      generatedAt := ← Json.required Json.word64? generatedAt
      hostname := ← Json.required Json.string? hostname
      rulesEvaluated := ← Json.required Json.word64? rulesEvaluated
      knowledgeBaseKeys := ← Json.required Json.word64? knowledgeBaseKeys
      insights := ← Json.required (Insights.decode? s) insights
      diagnostics := ← Json.orElse [] (Json.listOf? (Diagnostic.decode? s)) diagnostics }
  | _ => none

def ofJson? : Json → Option Run := decode? .json

def outcomeToToml (o : Outcome) : Toml :=
  .table [("recommendationId", .string o.recommendationId), ("result", .bool o.result)]

def diagnosticToToml (d : Diagnostic) : Toml :=
  .table [("ruleId", .string d.ruleId), ("recommendationId", .string d.recommendationId),
    ("message", .string d.message)]

def insightsToToml (insights : Insights) : Toml :=
  .table (insights.entries.map fun e => (e.1, .array (e.2.map outcomeToToml)))

/-- None if a count does not fit. -/
def toToml? (run : Run) : Option (List (String × Toml)) := do
  let generatedAt ← Toml.natural? run.generatedAt
  let rulesEvaluated ← Toml.natural? run.rulesEvaluated
  let knowledgeBaseKeys ← Toml.natural? run.knowledgeBaseKeys
  some <| [("generatedAt", generatedAt), ("hostname", .string run.hostname),
      ("rulesEvaluated", rulesEvaluated), ("knowledgeBaseKeys", knowledgeBaseKeys),
      ("insights", insightsToToml run.insights)] ++
    (if run.diagnostics.isEmpty then []
      else [("diagnostics", .array (run.diagnostics.map diagnosticToToml))])

end Run

inductive OutputFormat where
  | json | toml
  deriving DecidableEq, Repr

namespace OutputFormat

def extension : OutputFormat → String
  | .json => "json"
  | .toml => "toml"

def source : OutputFormat → Json.Source
  | .json => .json
  | .toml => .toml

/-- Names in configuration files are in lower case. -/
def ofName? : String → Option OutputFormat
  | "json" => some .json
  | "toml" => some .toml
  | _ => none

def badName : String := "Output format must be either 'toml' or 'json'"

/-- Names on the command line may be in any letter case. -/
def parse (name : String) : Except String OutputFormat :=
  match ofName? (String.ofList (Text.lower name)) with
  | some format => .ok format
  | none => .error badName

end OutputFormat

namespace Run

def render? (run : Run) : OutputFormat → Option String
  | .json => some run.toJson.pretty
  | .toml => run.toToml?.map Toml.print

def read? (format : OutputFormat) (text : String) : Option Run :=
  match format with
  | .json => (Json.readPart? text).bind ofJson?
  | .toml => (Toml.read? text).bind fun v => decode? .toml v.toJson

def lines (run : Run) : List String :=
  (Insights.samples run.insights).map fun s =>
    s.ruleId ++ "/" ++ s.recommendationId ++ "=" ++ (if s.result then "true" else "false")

end Run
end HanaInsights
