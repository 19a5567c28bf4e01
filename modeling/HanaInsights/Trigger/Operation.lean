import HanaInsights.Text.Letter
set_option autoImplicit false

/-!
Operations of a trigger. A name is read in any letter case; one outside the defined set is kept as
it was written, so that it can be reported.
-/

namespace HanaInsights

inductive Comparison where
  | eq | neq | lt | lte | gt | gte
  deriving DecidableEq, Repr

inductive Connective where
  | or | and
  deriving DecidableEq, Repr

inductive Operation where
  | undefined
  | logical (connective : Connective)
  | comparison (comparison : Comparison)
  | unrecognized (name : String)
  deriving DecidableEq, Repr

def Comparison.name : Comparison → String
  | .eq => "EQ"
  | .neq => "NEQ"
  | .lt => "LT"
  | .lte => "LTE"
  | .gt => "GT"
  | .gte => "GTE"

def Connective.name : Connective → String
  | .or => "OR"
  | .and => "AND"

namespace Operation

instance : Inhabited Operation := ⟨.undefined⟩

def name : Operation → String
  | .undefined => "UNDEFINED"
  | .logical c => c.name
  | .comparison c => c.name
  | .unrecognized name => name

def named : List Operation :=
  [.undefined, .logical .or, .logical .and, .comparison .eq, .comparison .neq, .comparison .lt,
    .comparison .lte, .comparison .gt, .comparison .gte]

/-- No name at all leaves the operation undefined. -/
def ofName (name : String) : Operation :=
  let word := Text.upper name
  if word.isEmpty then .undefined
  else (named.find? fun op => op.name.toList == word).getD (.unrecognized name)

def isComparison : Operation → Bool
  | .comparison _ => true
  | _ => false

def isLogical : Operation → Bool
  | .logical _ => true
  | _ => false

end Operation
end HanaInsights
