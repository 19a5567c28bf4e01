import HanaInsights.Keyed
import HanaInsights.InsightError
import HanaInsights.Rule.Basic
set_option autoImplicit false

/-!
The knowledge base: for each query column the values that result rows gave it, in row order. Values
are only ever appended, a row is taken as a whole or not at all, and NULL leaves no trace.
-/

namespace HanaInsights

/-- One value per declared column; NULL is none. -/
abbrev Row := List (Option String)

def Row.blank (n : Nat) : Row := List.replicate n none

abbrev KnowledgeBase := Keyed (List String)

namespace KnowledgeBase

def empty : KnowledgeBase := Keyed.empty

def append (kb : KnowledgeBase) (key value : String) : KnowledgeBase :=
  kb.update key fun old => old.getD [] ++ [value]

def appendCells (kb : KnowledgeBase) (query : String) : List String → Row → KnowledgeBase
  | column :: columns, some value :: row =>
    appendCells (kb.append (columnKey query column) value) query columns row
  | _ :: columns, none :: row => appendCells kb query columns row
  | _, _ => kb

def mismatch (query : Query) (row : Row) : InsightError :=
  .columnCountMismatch query.name query.columns.length row.length

def addRow (kb : KnowledgeBase) (query : Query) (row : Row) : Except InsightError KnowledgeBase :=
  if row.length = query.columns.length then .ok (appendCells kb query.name query.columns row)
  else .error (mismatch query row)

/-- Every row is checked before the first one is added. -/
def addRows (kb : KnowledgeBase) (query : Query) (rows : List Row) :
    Except InsightError (KnowledgeBase × Nat) :=
  match rows.find? fun row => row.length != query.columns.length with
  | some bad => .error (mismatch query bad)
  | none => do
    let kb ← rows.foldlM (fun kb row => kb.addRow query row) kb
    .ok (kb, rows.length)

end KnowledgeBase
end HanaInsights
