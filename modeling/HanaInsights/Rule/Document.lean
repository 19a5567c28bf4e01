import HanaInsights.Json.Record
import HanaInsights.Trigger.Document
import HanaInsights.Rule.Basic
set_option autoImplicit false

/-!
Rules as JSON. A document holds a list of rules, an object with such a list under `rules`, or a
single rule; the first of these readings that succeeds counts.
-/

namespace HanaInsights

def Query.ofJson? (v : Json) : Option Query := do
  match ← v.fields? .json ["name", "sql", "columns"] with
  | [name, sql, columns] =>
    some {
      name := ← Json.required Json.string? name
      sql := ← Json.orElse "" Json.string? sql
      columns := ← Json.orElse [] (Json.listOf? Json.string?) columns }
  | _ => none

def Query.toJson (q : Query) : Json :=
  .object [("name", .string q.name), ("sql", .string q.sql),
    ("columns", .array (q.columns.map .string))]

def Recommendation.ofJson? (v : Json) : Option Recommendation := do
  match ← v.fields? .json ["id", "description", "trigger"] with
  | [id, description, trigger] =>
    some {
      id := ← Json.required Json.string? id
      description := ← Json.orElse "" Json.string? description
      trigger := ← Json.orElse none (Json.nullable? Trigger.ofJson?) trigger }
  | _ => none

def describedBy (description : String) : List (String × Json) :=
  if description.isEmpty then [] else [("description", .string description)]

def Recommendation.toJson (r : Recommendation) : Json :=
  .object <| [("id", .string r.id)] ++ describedBy r.description ++
    [("trigger", (r.trigger.map Trigger.toJson).getD .null)]

def Rule.ofJson? (v : Json) : Option Rule := do
  match ← v.fields? .json ["id", "description", "queries", "recommendations"] with
  | [id, description, queries, recommendations] =>
    some {
      id := ← Json.required Json.string? id
      description := ← Json.orElse "" Json.string? description
      queries := ← Json.orElse [] (Json.listOf? Query.ofJson?) queries
      recommendations :=
        ← Json.orElse [] (Json.listOf? Recommendation.ofJson?) recommendations }
  | _ => none

def Rule.toJson (rule : Rule) : Json :=
  .object <| [("id", .string rule.id)] ++ describedBy rule.description ++
    [("queries", .array (rule.queries.map Query.toJson)),
      ("recommendations", .array (rule.recommendations.map Recommendation.toJson))]

namespace RuleSet

/-- Only an object can name its list. -/
def wrapped? : Json → Option (List Rule)
  | .object members =>
    match members.filter fun m => m.1 == "rules" with
    | [m] => Json.listOf? Rule.ofJson? m.2
    | _ => none
  | _ => none

def ofJson? (v : Json) : Option (List Rule) :=
  match Json.listOf? Rule.ofJson? v with
  | some rules => some rules
  | none =>
    match wrapped? v with
    | some rules => some rules
    | none => (Rule.ofJson? v).map ([·])

end RuleSet
end HanaInsights
