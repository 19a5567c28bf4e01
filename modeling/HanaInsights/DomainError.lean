import HanaInsights.Query.Error
import HanaInsights.Rule.Validation
set_option autoImplicit false

namespace HanaInsights

inductive DomainError where
  | collectionFailed (reason : String)
  | databaseUnavailable (reason : String)
  | invalidConfiguration (reason : String)
  | missingDependencies (names : List String)
  | insufficientPrivileges (reason : String)
  | parsingFailed (reason : String)
  | timeout (reason : String)
  deriving DecidableEq, Repr

namespace DomainError

def kind : DomainError → String
  | .collectionFailed _ => "CollectionFailed"
  | .databaseUnavailable _ => "DatabaseUnavailable"
  | .invalidConfiguration _ => "InvalidConfiguration"
  | .missingDependencies _ => "MissingDependencies"
  | .insufficientPrivileges _ => "InsufficientPrivileges"
  | .parsingFailed _ => "ParsingFailed"
  | .timeout _ => "Timeout"

def message : DomainError → String
  | .collectionFailed reason => "Knowledge base collection failed: " ++ reason
  | .databaseUnavailable reason => "Database unavailable: " ++ reason
  | .invalidConfiguration reason => "Invalid configuration: " ++ reason
  | .missingDependencies names => "Missing required dependencies: " ++ ", ".intercalate names
  | .insufficientPrivileges reason => "Insufficient privileges: " ++ reason
  | .parsingFailed reason => "Data parsing failed: " ++ reason
  | .timeout reason => "Operation timed out: " ++ reason

/-- What was denied, and how a command failed, is not passed on. -/
def ofSystem : SystemError → DomainError
  | .commandFailed command _ _ => .collectionFailed ("System command failed: " ++ command)
  | .commandNotFound command => .missingDependencies [command]
  | .permissionDenied _ => .insufficientPrivileges "System access denied"
  | .timeout reason => .timeout reason

def ofCommand : CommandError → DomainError
  | .system error => ofSystem error
  | .executionFailed reason => .databaseUnavailable ("Command execution failed: " ++ reason)
  | .invalidArguments reason => .invalidConfiguration ("Invalid command arguments: " ++ reason)

def ofQuery : QueryError → DomainError
  | .command error => ofCommand error
  | .failed query reason => .collectionFailed ("query '" ++ query ++ "': " ++ reason)
  | .invalidOutput query reason => .parsingFailed ("query '" ++ query ++ "': " ++ reason)
  | .invalidConnection reason => .invalidConfiguration reason

end DomainError

inductive ReportError where
  | domain (error : DomainError)
  | rules (error : RuleError)
  deriving DecidableEq, Repr

def ReportError.kind : ReportError → String
  | .domain error => "Domain." ++ error.kind
  | .rules error => "Rules." ++ error.kind

def ReportError.message : ReportError → String
  | .domain error => error.message
  | .rules error => "Rule loading failed: " ++ error.message

inductive PublishError where
  | domain (error : DomainError)
  | networkFailed (reason : String)
  | authenticationFailed (reason : String)
  | serializationFailed (reason : String)
  | fileFailed (reason : String)
  deriving DecidableEq, Repr

def PublishError.kind : PublishError → String
  | .domain error => "Domain." ++ error.kind
  | .networkFailed _ => "NetworkFailed"
  | .authenticationFailed _ => "AuthenticationFailed"
  | .serializationFailed _ => "SerializationFailed"
  | .fileFailed _ => "FileFailed"

def PublishError.message : PublishError → String
  | .domain error => error.message
  | .networkFailed reason => "Network operation failed: " ++ reason
  | .authenticationFailed reason => "Authentication failed: " ++ reason
  | .serializationFailed reason => "Serialization failed: " ++ reason
  | .fileFailed reason => "File operation failed: " ++ reason

end HanaInsights
