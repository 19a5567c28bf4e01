set_option autoImplicit false

namespace HanaInsights

inductive InsightError where
  | keyNotFound (key : String)
  | parseFailure (operand : String)
  | unrecognizedOperation (operation : String)
  | emptyLogicalNode (operation : String)
  | columnCountMismatch (query : String) (expected actual : Nat)
  deriving DecidableEq, Repr

def InsightError.kind : InsightError → String
  | .keyNotFound _ => "KeyNotFound"
  | .parseFailure _ => "ParseFailure"
  | .unrecognizedOperation _ => "UnrecognizedOperation"
  | .emptyLogicalNode _ => "EmptyLogicalNode"
  | .columnCountMismatch .. => "ColumnCountMismatch"

def InsightError.message : InsightError → String
  | .keyNotFound key => "knowledge base key not found: " ++ key
  | .parseFailure operand => "operand '" ++ operand ++ "' is not numeric"
  | .unrecognizedOperation operation => "unrecognized operation: " ++ operation
  | .emptyLogicalNode operation => operation ++ " node has no child evaluations"
  | .columnCountMismatch query expected actual =>
    "query '" ++ query ++ "' declares " ++ toString expected ++ " columns but row has " ++
      toString actual

end HanaInsights
