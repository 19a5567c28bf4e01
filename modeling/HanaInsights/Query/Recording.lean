import HanaInsights.Files.Tree
import HanaInsights.Json.Printer
import HanaInsights.Json.Reader
import HanaInsights.Json.Record
import HanaInsights.KnowledgeBase
import HanaInsights.Query.Error
set_option autoImplicit false

/-!
Recorded query results, for evaluation without a database. A recording is a JSON object from query
names to rows; a cell is null, a text, or a number or truth value that stands for its JSON text.
-/

namespace HanaInsights

abbrev Recording := Keyed (List Row)

inductive RecordingFault where
  | unreadable (path reason : String)
  | malformed
  | nestedCell (query : String) (cell : Json)

namespace RecordingFault

def wholeName : String := "<recording>"

def toQueryError (fault : RecordingFault) (said : String := "") : QueryError :=
  match fault with
  | .unreadable path reason =>
    .invalidOutput wholeName ("failed to read " ++ path ++ ": " ++ reason)
  | .malformed => .invalidOutput wholeName said
  | .nestedCell query cell =>
    .invalidOutput query ("cell must be a scalar, got " ++ cell.compact)

end RecordingFault

namespace Recording

def empty : Recording := Keyed.empty

mutual

/-- Members sorted by name, the last of several with one name alone. -/
def sortMembers : Json → Json
  | .object members => .object (Keyed.ofList (sortInMembers members)).entries
  | .array items => .array (sortInItems items)
  | .null => .null
  | .bool b => .bool b
  | .integer i => .integer i
  | .real x => .real x
  | .string s => .string s

def sortInMembers : List (String × Json) → List (String × Json)
  | [] => []
  | (name, v) :: rest => (name, sortMembers v) :: sortInMembers rest

def sortInItems : List Json → List Json
  | [] => []
  | v :: rest => sortMembers v :: sortInItems rest

end

def cell (query : String) : Json → Except RecordingFault (Option String)
  | .null => .ok none
  | .string s => .ok (some s)
  | .integer i => .ok (some (Json.integer i).compact)
  | .real x => .ok (some x.text)
  | .bool b => .ok (some (Json.bool b).compact)
  | v => .error (.nestedCell query (sortMembers v))

def rows (query : String) (cells : List (List Json)) : Except RecordingFault (List Row) :=
  cells.mapM fun row => row.mapM (cell query)

/-- The shape is checked before any cell is looked at. -/
def ofJson (v : Json) : Except RecordingFault Recording :=
  match Json.pairsOf? (Json.listOf? (Json.listOf? some)) v with
  | none => .error .malformed
  | some pairs => do
    let results ← (Keyed.ofList pairs).entries.mapM fun (query, cells) => do
      return (query, ← rows query cells)
    .ok (Keyed.ofList results)

def ofText (text : String) : Except RecordingFault Recording :=
  match Json.read? text with
  | none => .error .malformed
  | some v => ofJson v

def load (files : FileTree) (path : String) : Except RecordingFault Recording :=
  match files.readText path with
  | .error fault => .error (.unreadable path fault.message)
  | .ok text => ofText text

def execute (recording : Recording) (query : Query) : Except QueryError (List Row) :=
  match recording.get? query.name with
  | some rows => .ok rows
  | none => .error (.failed query.name "no recorded result")

end Recording
end HanaInsights
