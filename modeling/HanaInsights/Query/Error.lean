import HanaInsights.Command.Error
set_option autoImplicit false

namespace HanaInsights

inductive QueryError where
  | command (error : CommandError)
  | failed (query reason : String)
  | invalidOutput (query reason : String)
  | invalidConnection (reason : String)
  deriving DecidableEq, Repr

def QueryError.kind : QueryError → String
  | .command error => "Command." ++ error.kind
  | .failed .. => "Failed"
  | .invalidOutput .. => "InvalidOutput"
  | .invalidConnection _ => "InvalidConnection"

def QueryError.message : QueryError → String
  | .command error => error.message
  | .failed query reason => "query '" ++ query ++ "' failed: " ++ reason
  | .invalidOutput query reason =>
    "query '" ++ query ++ "' returned unparsable output: " ++ reason
  | .invalidConnection reason => "invalid connection settings: " ++ reason

end HanaInsights
