import HanaInsights.Trigger.Basic
set_option autoImplicit false

namespace HanaInsights

structure Query where
  name : String
  sql : String := ""
  columns : List String := []
  deriving DecidableEq, Repr

structure Recommendation where
  id : String
  description : String := ""
  trigger : Option Trigger := none

structure Rule where
  id : String
  description : String := ""
  queries : List Query := []
  recommendations : List Recommendation := []

/-- A column of a query result, as triggers name it. -/
def columnKey (query column : String) : String := query ++ ":" ++ column

def Query.keys (q : Query) : List String := q.columns.map (columnKey q.name)

end HanaInsights
