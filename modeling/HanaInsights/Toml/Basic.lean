import HanaInsights.Json.Basic
set_option autoImplicit false

namespace HanaInsights

inductive Toml where
  | string (value : String)
  | integer (value : Int)
  | float (value : Binary64)
  | bool (value : Bool)
  | datetime (text : String)
  | array (items : List Toml)
  | table (entries : List (String × Toml))

namespace Toml

/-- The name under which a date or a time shows itself to a reader that expects a table. -/
def datetimeKey : String := "$__toml_private_datetime"

mutual

def toJson : Toml → Json
  | .string s => .string s
  | .integer i => .integer i
  | .float x => .real x
  | .bool b => .bool b
  | .datetime text => .object [(datetimeKey, .string text)]
  | .array items => .array (toJsonItems items)
  | .table entries => .object (toJsonEntries entries)

def toJsonItems : List Toml → List Json
  | [] => []
  | v :: rest => toJson v :: toJsonItems rest

def toJsonEntries : List (String × Toml) → List (String × Json)
  | [] => []
  | (key, v) :: rest => (key, toJson v) :: toJsonEntries rest

end

end Toml
end HanaInsights
