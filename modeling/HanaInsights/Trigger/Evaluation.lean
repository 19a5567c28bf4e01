import HanaInsights.Trigger.Operand
import HanaInsights.Trigger.Comparison
import HanaInsights.KnowledgeBase
set_option autoImplicit false

/-!
Evaluating triggers against a knowledge base. The result comes with the errors met on the way to
it; each of them made the node it was met at false. Children are looked at from left to right and
no further than needed.
-/

namespace HanaInsights

def Operand.resolve (kb : KnowledgeBase) (operand : String) : Except InsightError String :=
  match sizeKey? operand with
  | none => .ok operand
  | some key =>
    match kb.get? key with
    | some values => .ok (toString values.length)
    | none => .error (.keyNotFound key)

namespace Trigger

def compareIn (kb : KnowledgeBase) (c : Comparison) (lhs rhs : String) : Except InsightError Bool :=
  match Operand.resolve kb lhs with
  | .error e => .error e
  | .ok l =>
    match Operand.resolve kb rhs with
    | .error e => .error e
    | .ok r => Operand.compare c l r

def verdict : Except InsightError Bool → Bool × List InsightError
  | .ok b => (b, [])
  | .error e => (false, [e])

/-- A connective without children is noted, though it has a value. -/
def emptyNote (c : Connective) (children : List Trigger) : List InsightError :=
  if children.isEmpty then [.emptyLogicalNode c.name] else []

mutual

def diagnose (kb : KnowledgeBase) : Trigger → Bool × List InsightError
  | .node (.logical .and) _ _ children =>
    let (result, errors) := diagnoseAll kb children
    (result, emptyNote .and children ++ errors)
  | .node (.logical .or) _ _ children =>
    let (result, errors) := diagnoseAny kb children
    (result, emptyNote .or children ++ errors)
  | .node (.comparison c) lhs rhs _ => verdict (compareIn kb c lhs rhs)
  | .node .undefined _ _ _ => (false, [.unrecognizedOperation Operation.undefined.name])
  | .node (.unrecognized name) _ _ _ => (false, [.unrecognizedOperation name])

def diagnoseAll (kb : KnowledgeBase) : List Trigger → Bool × List InsightError
  | [] => (true, [])
  | t :: rest =>
    let (result, errors) := diagnose kb t
    if result then
      let (result, later) := diagnoseAll kb rest
      (result, errors ++ later)
    else (false, errors)

def diagnoseAny (kb : KnowledgeBase) : List Trigger → Bool × List InsightError
  | [] => (false, [])
  | t :: rest =>
    let (result, errors) := diagnose kb t
    if result then (true, errors)
    else
      let (result, later) := diagnoseAny kb rest
      (result, errors ++ later)

end

def diagnose? (kb : KnowledgeBase) : Option Trigger → Bool × List InsightError
  | none => (false, [])
  | some t => t.diagnose kb

def fires (kb : KnowledgeBase) (t : Option Trigger) : Bool := (diagnose? kb t).1

end Trigger
end HanaInsights
