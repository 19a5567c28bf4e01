import HanaInsights.Trigger.Evaluation
import HanaInsights.Logged
set_option autoImplicit false

namespace HanaInsights

structure Outcome where
  recommendationId : String
  result : Bool
  deriving DecidableEq, Repr

structure Sample where
  ruleId : String
  recommendationId : String
  result : Bool
  deriving DecidableEq, Repr

structure Diagnostic where
  ruleId : String
  recommendationId : String
  message : String
  deriving DecidableEq, Repr

abbrev Insights := Keyed (List Outcome)

def Trigger.silencedLine (e : InsightError) : LogLine :=
  debugLine ("trigger evaluated to false: " ++ e.message)

/-- Whether a trigger fires, with a line for each error that forced a part of it to be false. -/
def Trigger.firesLogged (kb : KnowledgeBase) (t : Option Trigger) : Logged Bool :=
  .withLog (Trigger.fires kb t) ((Trigger.diagnose? kb t).2.map Trigger.silencedLine)

def Recommendation.outcome (kb : KnowledgeBase) (r : Recommendation) : Outcome :=
  ⟨r.id, Trigger.fires kb r.trigger⟩

def Recommendation.errors (kb : KnowledgeBase) (r : Recommendation) : List InsightError :=
  (Trigger.diagnose? kb r.trigger).2

def Rule.outcomes (kb : KnowledgeBase) (rule : Rule) : List Outcome :=
  rule.recommendations.map (Recommendation.outcome kb)

def Rule.diagnostics (kb : KnowledgeBase) (rule : Rule) : List Diagnostic :=
  rule.recommendations.flatMap fun r => (r.errors kb).map fun e => ⟨rule.id, r.id, e.message⟩

namespace Insights

def empty : Insights := Keyed.empty

def append (insights : Insights) (rule : String) (outcomes : List Outcome) : Insights :=
  insights.update rule fun old => old.getD [] ++ outcomes

/-- A rule without recommendations leaves an entry without outcomes. -/
def record (insights : Insights) (kb : KnowledgeBase) (rule : Rule) : Insights :=
  insights.append rule.id (rule.outcomes kb)

def silenced (kb : KnowledgeBase) (rule : Rule) : List LogLine :=
  rule.recommendations.flatMap fun r => (r.errors kb).map Trigger.silencedLine

def recordLogged (insights : Insights) (kb : KnowledgeBase) (rule : Rule) : Logged Insights :=
  .withLog (insights.record kb rule) (silenced kb rule)

def merge (insights other : Insights) : Insights :=
  other.entries.foldl (fun acc e => acc.append e.1 e.2) insights

def samples (insights : Insights) : List Sample :=
  insights.entries.flatMap fun e => e.2.map fun o => ⟨e.1, o.recommendationId, o.result⟩

def triggered (insights : Insights) : Nat :=
  (insights.values.flatMap fun outcomes => outcomes.filter (·.result)).length

end Insights

namespace RuleSet

def evaluate (rules : List Rule) (kb : KnowledgeBase) (diagnose : Bool) :
    Logged (Insights × List Diagnostic) :=
  let insights := rules.foldl (fun acc rule => acc.record kb rule) Insights.empty
  if diagnose then pure (insights, rules.flatMap (Rule.diagnostics kb))
  else .withLog (insights, []) (rules.flatMap (Insights.silenced kb))

end RuleSet
end HanaInsights
