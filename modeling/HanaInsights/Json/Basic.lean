import HanaInsights.Binary64
set_option autoImplicit false

/-!
JSON values. Members keep their order and repeated names, because what a repetition means depends
on the type that is read.
-/

namespace HanaInsights

/-- An integer is a number written without fraction and exponent that 64 bits can hold; every other
number is a binary fraction. -/
inductive Json where
  | null
  | bool (value : Bool)
  | integer (value : Int)
  | real (value : Binary64)
  | string (value : String)
  | array (items : List Json)
  | object (members : List (String × Json))

namespace Json

def natural (n : Nat) : Json := .integer n

/-- The last member of a name is the one that counts. -/
def member? (name : String) : List (String × Json) → Option Json
  | [] => none
  | (key, value) :: rest =>
    match member? name rest with
    | some later => some later
    | none => if key = name then some value else none

def field? (name : String) : Json → Option Json
  | .object members => member? name members
  | _ => none

end Json
end HanaInsights
