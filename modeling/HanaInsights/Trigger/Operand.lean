import HanaInsights.Trigger.Basic
set_option autoImplicit false

namespace HanaInsights

namespace Operand

def isParenthesis (c : Char) : Bool := c == '(' || c == ')'

/-- The text up to a closing parenthesis that ends the operand, if no other parenthesis occurs. -/
def closingKey? (cs : List Char) : Option (List Char) :=
  match cs.dropWhile fun c => !isParenthesis c with
  | [')'] => some (cs.takeWhile fun c => !isParenthesis c)
  | _ => none

def sizeKeyChars? : List Char → Option (List Char)
  | 's' :: 'i' :: 'z' :: 'e' :: '(' :: cs => closingKey? cs
  | _ => none

def sizeKey? (operand : String) : Option String :=
  (sizeKeyChars? operand.toList).map String.ofList

end Operand

namespace Trigger

def ownKeys (lhs rhs : String) : List String :=
  (Operand.sizeKey? lhs).toList ++ (Operand.sizeKey? rhs).toList

mutual

/-- The keys a trigger looks at, a node before its children, once per occurrence. -/
def keys : Trigger → List String
  | .node _ lhs rhs children => ownKeys lhs rhs ++ keysOfAll children

def keysOfAll : List Trigger → List String
  | [] => []
  | t :: rest => keys t ++ keysOfAll rest

end

end Trigger
end HanaInsights
