import HanaInsights.Trigger.Basic
import HanaInsights.Json.Basic
set_option autoImplicit false

namespace HanaInsights
namespace Trigger

inductive Field where
  | operation | lhs | rhs | children
  deriving DecidableEq, Repr

def Field.order : List Field := [.operation, .lhs, .rhs, .children]

def Field.ofName? : String → Option Field
  | "operation" => some .operation
  | "lhs" => some .lhs
  | "rhs" => some .rhs
  | "childEvals" => some .children
  | "child_evals" => some .children
  | _ => none

structure Draft where
  operation : Option Operation := none
  lhs : Option String := none
  rhs : Option String := none
  children : Option (List Trigger) := none

def Draft.finish (d : Draft) : Trigger :=
  .node (d.operation.getD .undefined) (d.lhs.getD "") (d.rhs.getD "") (d.children.getD [])

/-- A field is set once; giving it again is an error. -/
def Draft.setOperation (d : Draft) : Json → Option Draft
  | .string s => if d.operation.isSome then none else some { d with operation := some (.ofName s) }
  | _ => none

def Draft.setLhs (d : Draft) : Json → Option Draft
  | .string s => if d.lhs.isSome then none else some { d with lhs := some s }
  | _ => none

def Draft.setRhs (d : Draft) : Json → Option Draft
  | .string s => if d.rhs.isSome then none else some { d with rhs := some s }
  | _ => none

def Draft.setChildren (d : Draft) (children : List Trigger) : Option Draft :=
  if d.children.isSome then none else some { d with children := some children }

mutual

def ofJson? : Json → Option Trigger
  | .object members => (ofMembers? members {}).map Draft.finish
  | .array items => (ofItems? items Field.order {}).map Draft.finish
  | _ => none

def ofMembers? : List (String × Json) → Draft → Option Draft
  | [], d => some d
  | (name, value) :: rest, d =>
    match Field.ofName? name with
    | none => ofMembers? rest d
    | some field =>
      match setField? field value d with
      | some d => ofMembers? rest d
      | none => none

/-- There may be fewer items than fields, not more. -/
def ofItems? : List Json → List Field → Draft → Option Draft
  | [], _, d => some d
  | _ :: _, [], _ => none
  | value :: rest, field :: fields, d =>
    match setField? field value d with
    | some d => ofItems? rest fields d
    | none => none

def setField? : Field → Json → Draft → Option Draft
  | .operation, value, d => d.setOperation value
  | .lhs, value, d => d.setLhs value
  | .rhs, value, d => d.setRhs value
  | .children, .array items, d =>
    match ofArray? items with
    | some children => d.setChildren children
    | none => none
  | .children, _, _ => none

def ofArray? : List Json → Option (List Trigger)
  | [] => some []
  | value :: rest =>
    match ofJson? value, ofArray? rest with
    | some t, some ts => some (t :: ts)
    | _, _ => none

end

mutual

def toJson : Trigger → Json
  | .node op lhs rhs children =>
    .object <| [("operation", .string op.name)] ++
      (if lhs.isEmpty then [] else [("lhs", .string lhs)]) ++
      (if rhs.isEmpty then [] else [("rhs", .string rhs)]) ++
      (if children.isEmpty then [] else [("childEvals", .array (toJsonAll children))])

def toJsonAll : List Trigger → List Json
  | [] => []
  | t :: rest => toJson t :: toJsonAll rest

end

end Trigger
end HanaInsights
