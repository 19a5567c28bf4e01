import HanaInsights.Trigger.Operation
import HanaInsights.Binary64.Operand
import HanaInsights.InsightError
set_option autoImplicit false

namespace HanaInsights
namespace Operand

def equal (lhs rhs : String) : Bool :=
  match Binary64.parse? lhs, Binary64.parse? rhs with
  | some l, some r => l.eq r
  | _, _ => lhs == rhs

def number (operand : String) : Except InsightError Binary64 :=
  match Binary64.parse? operand with
  | some x => .ok x
  | none => .error (.parseFailure operand)

/-- The left operand is blamed before the right one. -/
def ordered (relation : Binary64 → Binary64 → Bool) (lhs rhs : String) : Except InsightError Bool :=
  match number lhs with
  | .error e => .error e
  | .ok l =>
    match number rhs with
    | .error e => .error e
    | .ok r => .ok (relation l r)

def compare : Comparison → String → String → Except InsightError Bool
  | .eq, lhs, rhs => .ok (equal lhs rhs)
  | .neq, lhs, rhs => .ok (!equal lhs rhs)
  | .lt, lhs, rhs => ordered Binary64.lt lhs rhs
  | .lte, lhs, rhs => ordered Binary64.le lhs rhs
  | .gt, lhs, rhs => ordered (fun l r => r.lt l) lhs rhs
  | .gte, lhs, rhs => ordered (fun l r => r.le l) lhs rhs

end Operand

namespace Operation

def compare? : Operation → String → String → Except InsightError Bool
  | .comparison c, lhs, rhs => Operand.compare c lhs rhs
  | op, _, _ => .error (.unrecognizedOperation op.name)

def holds (op : Operation) (lhs rhs : String) : Bool :=
  match op.compare? lhs rhs with
  | .ok b => b
  | .error _ => false

end Operation
end HanaInsights
