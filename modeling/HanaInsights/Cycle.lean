import HanaInsights.DomainError
import HanaInsights.Insights
import HanaInsights.Query.Error
set_option autoImplicit false

/-!
One evaluation cycle: rules are selected, every distinct query is executed once, the rows of all of
them make one knowledge base, and each rule is evaluated against it. A query that fails and a
result that does not fit its columns are logged and leave no trace in the knowledge base.
-/

namespace HanaInsights

abbrev Executor := Query → Logged (Except QueryError (List Row))

def Executor.ofFunction (f : Query → Except QueryError (List Row)) : Executor := fun q => pure (f q)

namespace Cycle

/-- The result of one query added to the knowledge base, with what is logged about it. -/
def ingest (kb : KnowledgeBase) (q : Query) :
    Except QueryError (List Row) → Logged KnowledgeBase
  | .error e => .withLog kb [warnLine ("Query " ++ q.name ++ " failed: " ++ e.message)]
  | .ok rows =>
    match kb.addRows q rows with
    | .ok (kb, count) =>
      .withLog kb [debugLine ("Query " ++ q.name ++ " returned " ++ toString count ++ " rows")]
    | .error e =>
      .withLog kb [errorLine ("Discarding result of query " ++ q.name ++ ": " ++ e.message)]

/-- Of the queries with one name only the first is executed. -/
def collectFrom (execute : Executor) :
    List String → KnowledgeBase → List Query → Logged KnowledgeBase
  | _, kb, [] => pure kb
  | executed, kb, q :: rest =>
    if executed.contains q.name then do
      Logged.write .debug ("Query " ++ q.name ++ " already executed this cycle")
      collectFrom execute executed kb rest
    else do
      let result ← execute q
      let kb ← ingest kb q result
      collectFrom execute (q.name :: executed) kb rest

def collect (execute : Executor) (rules : List Rule) : Logged KnowledgeBase :=
  collectFrom execute [] KnowledgeBase.empty (rules.flatMap (·.queries))

def distinctQueries : List String → List Query → List Query
  | _, [] => []
  | seen, q :: rest =>
    if seen.contains q.name then distinctQueries seen rest
    else q :: distinctQueries (q.name :: seen) rest

/-- A rule is kept if it has an id and no error names that id. -/
def isKept (errors : List RuleError) (rule : Rule) : Bool :=
  !rule.hasBlankId && !(errors.filterMap RuleError.rule?).contains rule.id

/-- Errors are always logged; only a strict selection drops rules. -/
def select (strict : Bool) (rules : List Rule) : Logged (List Rule) :=
  let errors := RuleSet.errors rules
  let warnings := errors.map fun e => warnLine ("Rule validation: " ++ e.message)
  if strict && !errors.isEmpty then
    let skipped := rules.filter fun rule => !isKept errors rule
    .withLog (rules.filter (isKept errors)) <| warnings ++ skipped.map fun rule =>
      warnLine ("Skipping invalid rule '" ++ rule.id ++ "'")
  else .withLog rules warnings

structure Findings where
  rulesEvaluated : Nat
  knowledgeBaseKeys : Nat
  insights : Insights
  diagnostics : List Diagnostic

def run (execute : Executor) (strict : Bool) (rules : List Rule) : Logged Findings := do
  let rules ← select strict rules
  let kb ← collect execute rules
  let (insights, diagnostics) ← RuleSet.evaluate rules kb strict
  Logged.writeAll (diagnostics.map fun d =>
    warnLine (d.ruleId ++ "/" ++ d.recommendationId ++ ": " ++ d.message))
  Logged.write .info ("Evaluated " ++ toString rules.length ++ " rules over " ++
    toString kb.size ++ " knowledge base keys, " ++ toString insights.triggered ++
    " recommendations triggered")
  pure ⟨rules.length, kb.size, insights, diagnostics⟩

end Cycle
end HanaInsights
