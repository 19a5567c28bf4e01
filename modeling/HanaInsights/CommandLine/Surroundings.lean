import HanaInsights.CommandLine.Outcome
set_option autoImplicit false

namespace HanaInsights.CommandLine

def firstVariables : List String := [configVariable, "PATH", "HOSTNAME"]

def configVariables (c : AgentConfig) : List String :=
  c.hana.passwordEnv.toList ++ c.publish.authTokenEnv.toList

def clientPaths (h : Host) (client : String) : List String :=
  if client.toList.contains '/' then [client]
  else (Shell.Program.directories h.searchPath).map fun dir => Shell.Program.candidate dir client

def rulesPaths (c : AgentConfig) (rules : Option String) : List String :=
  (rules.orElse fun _ => c.insights.rulesDir).toList

def paths (h : Host) (c : AgentConfig) : Request → List String
  | .run _ =>
    rulesPaths c none ++ c.output.directory.toList ++ clientPaths h c.hana.clientPath
  | .evaluate results rules _ _ => results :: rulesPaths c rules
  | .validateRules rules => rulesPaths c rules
  | .printConfig => []

/-- The place of a path, dots and empty parts left out; none above the root. -/
def placeFrom (place : List String) : List String → List String
  | [] => place
  | part :: parts =>
    if part = "" ∨ part = "." then placeFrom place parts
    else if part = ".." then placeFrom place.dropLast parts
    else placeFrom (place ++ [part]) parts

def placeOf (working : List String) (path : String) : List String :=
  placeFrom (if Path.isAbsolute path then [] else working) (Path.parts path)

def plant (files : FileTree) (place : List String) (entry : FileEntry) : FileTree :=
  match files.makeWay [] place.dropLast with
  | .ok (files, _) => files.put place entry
  | .error _ => files

def changes (before after : FileTree) : List (String × FileEntry) :=
  after.entries.entries.filter fun e => before.entries.get? e.1 != some e.2

def isShown (verbose : Bool) (line : LogLine) : Bool := verbose || line.level != .debug

def levelText : Level → String
  | .debug => "DEBUG"
  | .info => "INFO"
  | .warn => "WARN"
  | .error => "ERROR"

def lineText (line : LogLine) : String := "[" ++ levelText line.level ++ "] " ++ line.text

end HanaInsights.CommandLine
