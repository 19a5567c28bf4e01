import HanaInsights.Json.Record
set_option autoImplicit false

namespace HanaInsights

/-- What is said about the text of a document, and about a count that a format cannot hold; these
words are used where nobody has others. -/
structure Wording where
  rules : Json.Source → String → String := fun _ _ => "not a rule document"
  recording : String → String := fun _ => "not a recording"
  settings : String → String := fun _ => "not an agent configuration"
  run : Json.Source → String → String := fun _ _ => "not a saved run"
  count : String := "a count does not fit the format"

def Json.Source.title : Json.Source → String
  | .json => "JSON"
  | .toml => "TOML"

end HanaInsights
