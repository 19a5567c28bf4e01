import HanaInsights.Trigger.Operation
set_option autoImplicit false

namespace HanaInsights

inductive Trigger where
  | node (operation : Operation) (lhs rhs : String) (children : List Trigger)

namespace Trigger

def operation : Trigger → Operation
  | .node op _ _ _ => op

def lhs : Trigger → String
  | .node _ l _ _ => l

def rhs : Trigger → String
  | .node _ _ r _ => r

def children : Trigger → List Trigger
  | .node _ _ _ cs => cs

instance : Inhabited Trigger := ⟨.node .undefined "" "" []⟩

def compare (operation : Operation) (lhs rhs : String) : Trigger := .node operation lhs rhs []

def all (children : List Trigger) : Trigger := .node (.logical .and) "" "" children

def any (children : List Trigger) : Trigger := .node (.logical .or) "" "" children

end Trigger
end HanaInsights
