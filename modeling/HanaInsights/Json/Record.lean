import HanaInsights.Json.Basic
set_option autoImplicit false

/-!
Reading typed values from JSON. A record is an object, or an array of its fields in declaration
order; a field given twice is an error, a member of another name is passed over. Types must match
exactly: no number is read from a text, and null stands only for a value that may be missing.
-/

namespace HanaInsights.Json

variable {α : Type}

/-- The kind of document that a value comes from. The two kinds differ in what they let pass. -/
inductive Source where
  | json
  | toml
  deriving DecidableEq, Repr

namespace Source

/-- Items of an array beyond the last field are refused in JSON and ignored in TOML. -/
def ignoresMore : Source → Bool
  | .json => false
  | .toml => true

/-- What says nothing: null in JSON, anything empty in TOML. -/
def isNothing : Source → Json → Bool
  | .json, .null => true
  | .toml, .array [] => true
  | .toml, .object [] => true
  | _, _ => false

end Source

/-- What is given for each field. The last fields of an array may be left out. -/
def fields? (s : Source) (names : List String) : Json → Option (List (Option Json))
  | .object members =>
    names.mapM fun name =>
      match members.filter fun m => m.1 == name with
      | [] => some none
      | [m] => some (some m.2)
      | _ => none
  | .array items =>
    if items.length ≤ names.length || s.ignoresMore then
      let given := (items.take names.length).map some
      some (given ++ List.replicate (names.length - items.length) none)
    else none
  | _ => none

def required (read : Json → Option α) (given : Option Json) : Option α := given.bind read

def orElse (default : α) (read : Json → Option α) : Option Json → Option α
  | none => some default
  | some v => read v

def string? : Json → Option String
  | .string s => some s
  | _ => none

def bool? : Json → Option Bool
  | .bool b => some b
  | _ => none

def natBelow? (bound : Nat) : Json → Option Nat
  | .integer i => if 0 ≤ i ∧ i < bound then some i.toNat else none
  | _ => none

def word64? : Json → Option Nat := natBelow? 18446744073709551616

def listOf? (read : Json → Option α) : Json → Option (List α)
  | .array items => items.mapM read
  | _ => none

def nullable? (read : Json → Option α) : Json → Option (Option α)
  | .null => some none
  | v => (read v).map some

def word? (s : Source) : Json → Option String
  | .string word => some word
  | .object [(word, v)] => if s.isNothing v then some word else none
  | _ => none

def pairsOf? (read : Json → Option α) : Json → Option (List (String × α))
  | .object members => members.mapM fun m => (read m.2).map fun v => (m.1, v)
  | _ => none

end HanaInsights.Json
