import HanaInsights.Text.Blank
import HanaInsights.Trigger.Shape
import HanaInsights.Trigger.Operand
import HanaInsights.Rule.Basic
set_option autoImplicit false

/-!
Validation of rules. A rule has an id and its recommendations have distinct ids and sound triggers;
across a rule set, rule ids and query names are distinct and every size that a trigger asks for is
of a declared column. The knowledge base is shared, so the column may belong to another rule.
-/

namespace HanaInsights

inductive RuleError where
  | missingId
  | duplicateRule (rule : String)
  | duplicateRecommendation (rule recommendation : String)
  | duplicateQuery (rule query : String)
  | invalidNode (rule recommendation reason : String)
  | unknownKey (rule recommendation key : String)
  | unreadable (path reason : String)
  | malformed (path reason : String)
  deriving DecidableEq, Repr

namespace RuleError

def kind : RuleError → String
  | .missingId => "MissingId"
  | .duplicateRule _ => "DuplicateRule"
  | .duplicateRecommendation .. => "DuplicateRecommendation"
  | .duplicateQuery .. => "DuplicateQuery"
  | .invalidNode .. => "InvalidNode"
  | .unknownKey .. => "UnknownKey"
  | .unreadable .. => "Io"
  | .malformed .. => "Parse"

def message : RuleError → String
  | .missingId => "rule has an empty id"
  | .duplicateRule rule => "duplicate rule id: " ++ rule
  | .duplicateRecommendation rule recommendation =>
    "rule '" ++ rule ++ "': duplicate recommendation id '" ++ recommendation ++ "'"
  | .duplicateQuery rule query => "rule '" ++ rule ++ "': duplicate query name '" ++ query ++ "'"
  | .invalidNode rule recommendation reason =>
    "rule '" ++ rule ++ "', recommendation '" ++ recommendation ++ "': " ++ reason
  | .unknownKey rule recommendation key =>
    "rule '" ++ rule ++ "', recommendation '" ++ recommendation ++ "': unknown key '" ++ key ++ "'"
  | .unreadable path reason => "failed to read rule file " ++ path ++ ": " ++ reason
  | .malformed path reason => "failed to parse rule file " ++ path ++ ": " ++ reason

def rule? : RuleError → Option String
  | .missingId => none
  | .duplicateRule rule => some rule
  | .duplicateRecommendation rule _ => some rule
  | .duplicateQuery rule _ => some rule
  | .invalidNode rule _ _ => some rule
  | .unknownKey rule _ _ => some rule
  | .unreadable _ _ => none
  | .malformed _ _ => none

end RuleError

def Recommendation.shapeErrors (rule : String) (r : Recommendation) : List RuleError :=
  match r.trigger.bind Trigger.fault? with
  | some fault => [.invalidNode rule r.id fault.message]
  | none => []

/-- An empty id is reported each time and never counts as a repetition. -/
def Recommendation.idErrors (rule : String) (seen : List String) (r : Recommendation) :
    List RuleError :=
  if r.id.isEmpty then [.invalidNode rule "" "recommendation has an empty id"]
  else if seen.contains r.id then [.duplicateRecommendation rule r.id]
  else []

namespace Rule

def recommendationErrors (rule : String) : List String → List Recommendation → List RuleError
  | _, [] => []
  | seen, r :: rest =>
    r.idErrors rule seen ++ r.shapeErrors rule ++ recommendationErrors rule (r.id :: seen) rest

def hasBlankId (rule : Rule) : Bool := Text.isBlankText rule.id

def errors (rule : Rule) : List RuleError :=
  (if rule.hasBlankId then [.missingId] else []) ++
    recommendationErrors rule.id [] rule.recommendations

def keys (rule : Rule) : List String := rule.queries.flatMap Query.keys

def repeatedQueries (rule : String) : List String → List Query → List RuleError
  | _, [] => []
  | seen, q :: rest =>
    (if seen.contains q.name then [.duplicateQuery rule q.name] else []) ++
      repeatedQueries rule (q.name :: seen) rest

/-- The rule's place in a set whose earlier rules have the given ids and queries. -/
def declarationErrors (ids queries : List String) (rule : Rule) : List RuleError :=
  rule.errors ++
    (if !rule.id.isEmpty && ids.contains rule.id then [.duplicateRule rule.id] else []) ++
    repeatedQueries rule.id queries rule.queries

def unknownKeys (known : List String) (rule : Rule) : List RuleError :=
  rule.recommendations.flatMap fun r =>
    match r.trigger with
    | none => []
    | some t => (t.keys.filter fun key => !known.contains key).map fun key =>
        .unknownKey rule.id r.id key

end Rule

namespace RuleSet

def declarationErrors : List String → List String → List Rule → List RuleError
  | _, _, [] => []
  | ids, queries, rule :: rest =>
    rule.declarationErrors ids queries ++
      declarationErrors (rule.id :: ids) (rule.queries.map (·.name) ++ queries) rest

/-- Keys are looked up only after every declaration is known. -/
def errors (rules : List Rule) : List RuleError :=
  declarationErrors [] [] rules ++ rules.flatMap (Rule.unknownKeys (rules.flatMap Rule.keys))

end RuleSet
end HanaInsights
