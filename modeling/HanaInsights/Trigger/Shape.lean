import HanaInsights.Trigger.Basic
set_option autoImplicit false

namespace HanaInsights

inductive ShapeFault where
  | comparisonWithChildren (comparison : Comparison)
  | missingOperand (comparison : Comparison)
  | connectiveWithOperands (connective : Connective)
  | noChildren (connective : Connective)
  | undefinedOperation
  | unrecognizedOperation (name : String)
  deriving DecidableEq, Repr

def ShapeFault.message : ShapeFault → String
  | .comparisonWithChildren c => c.name ++ " comparison must not have child evaluations"
  | .missingOperand c => c.name ++ " comparison needs both lhs and rhs"
  | .connectiveWithOperands c => c.name ++ " node must not have operands"
  | .noChildren c => c.name ++ " node has no child evaluations"
  | .undefinedOperation => "operation is undefined"
  | .unrecognizedOperation name => "unrecognized operation '" ++ name ++ "'"

namespace Trigger

/-- Children are looked at before the operands of a comparison, after those of a connective. -/
def localFault? : Trigger → Option ShapeFault
  | .node (.comparison c) lhs rhs children =>
    if !children.isEmpty then some (.comparisonWithChildren c)
    else if lhs.isEmpty || rhs.isEmpty then some (.missingOperand c)
    else none
  | .node (.logical c) lhs rhs children =>
    if !lhs.isEmpty || !rhs.isEmpty then some (.connectiveWithOperands c)
    else if children.isEmpty then some (.noChildren c)
    else none
  | .node .undefined _ _ _ => some .undefinedOperation
  | .node (.unrecognized name) _ _ _ => some (.unrecognizedOperation name)

mutual

def fault? : Trigger → Option ShapeFault
  | .node op lhs rhs children =>
    match localFault? (.node op lhs rhs children) with
    | some fault => some fault
    | none => firstFault? children

def firstFault? : List Trigger → Option ShapeFault
  | [] => none
  | t :: rest =>
    match fault? t with
    | some fault => some fault
    | none => firstFault? rest

end

end Trigger
end HanaInsights
