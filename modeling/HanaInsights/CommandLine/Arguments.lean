import HanaInsights.Config.Basic
set_option autoImplicit false

/-!
The command line: options that may stand before or after the command, a command, and the options of
that command. Arguments are read from left to right and the first thing wrong with them decides.
-/

namespace HanaInsights.CommandLine

inductive Request where
  | run (once : Bool)
  | evaluate (results : String) (rules : Option String) (strict : Bool) (format : OutputFormat)
  | validateRules (rules : Option String)
  | printConfig
  deriving DecidableEq, Repr

structure Invocation where
  config : Option String
  verbose : Bool
  request : Request
  deriving DecidableEq, Repr

inductive Reading where
  | invocation (i : Invocation)
  | help
  | version
  | misuse
  deriving DecidableEq, Repr

structure OptionSet where
  valued : List String
  flags : List String
  hasVersion : Bool

def commonOptions : OptionSet := ⟨["config"], ["verbose"], true⟩

def optionsOf? (command : String) : Option OptionSet :=
  match command with
  | "run" => some ⟨["config"], ["verbose", "once"], false⟩
  | "evaluate" => some ⟨["config", "results", "rules", "format"], ["verbose", "strict"], false⟩
  | "validate-rules" => some ⟨["config", "rules"], ["verbose"], false⟩
  | "print-config" => some ⟨["config"], ["verbose"], false⟩
  | _ => none

structure Given where
  values : List (String × String) := []
  flags : List String := []

/-- Paths and formats are both refused when they are empty; a format has to be one. -/
def isValue (option value : String) : Bool :=
  !value.isEmpty && (option != "format" || (OutputFormat.parse value).isOk)

def Given.addValue? (g : Given) (option value : String) : Option Given :=
  if (g.values.lookup option).isSome || !isValue option value then none
  else some { g with values := (option, value) :: g.values }

def Given.addFlag? (g : Given) (flag : String) : Option Given :=
  if g.flags.contains flag then none else some { g with flags := flag :: g.flags }

inductive Stage where
  | word (word : String) (rest : List String) (given : Given)
  | finished (given : Given)
  | help
  | version
  | misuse

/-- A value that looks like an option is taken for one; a single dash is a value. -/
def looksLikeOption (value : String) : Bool :=
  match value.toList with
  | '-' :: _ :: _ => true
  | _ => false

def shortFlags (known : OptionSet) : List Char → Given → Except Stage Given
  | [], g => .ok g
  | 'v' :: cs, g =>
    match g.addFlag? "verbose" with
    | some g => shortFlags known cs g
    | none => .error .misuse
  | 'h' :: _, _ => .error .help
  | 'V' :: _, _ => .error (if known.hasVersion then .version else .misuse)
  | _ :: _, _ => .error .misuse

def splitOption (cs : List Char) : String × Option String :=
  match cs.dropWhile (· != '=') with
  | _ :: value => (String.ofList (cs.takeWhile (· != '=')), some (String.ofList value))
  | [] => (String.ofList cs, none)

def readOptions (known : OptionSet) : Given → List String → Stage
  | g, [] => .finished g
  | g, argument :: rest =>
    match argument.toList with
    | ['-', '-'] => if rest.isEmpty then .finished g else .misuse
    | '-' :: '-' :: cs =>
      match splitOption cs with
      | (name, some value) =>
        if known.valued.contains name then
          match g.addValue? name value with
          | some g => readOptions known g rest
          | none => .misuse
        else .misuse
      | (name, none) =>
        if known.valued.contains name then
          match rest with
          | value :: rest =>
            if looksLikeOption value then .misuse
            else
              match g.addValue? name value with
              | some g => readOptions known g rest
              | none => .misuse
          | [] => .misuse
        else if known.flags.contains name then
          match g.addFlag? name with
          | some g => readOptions known g rest
          | none => .misuse
        else if name = "help" then .help
        else if name = "version" && known.hasVersion then .version
        else .misuse
    | '-' :: c :: cs =>
      match shortFlags known (c :: cs) g with
      | .ok g => readOptions known g rest
      | .error stage => stage
    | _ => .word argument rest g

def readHelp : List String → Reading
  | [] => .help
  | [name] => if name = "help" || (optionsOf? name).isSome then .help else .misuse
  | _ => .misuse

def request? (command : String) (g : Given) : Option Request :=
  match command with
  | "run" => some (.run (g.flags.contains "once"))
  | "evaluate" => do
    let results ← g.values.lookup "results"
    let format := (OutputFormat.parse ((g.values.lookup "format").getD "json")).toOption.getD .json
    some (.evaluate results (g.values.lookup "rules") (g.flags.contains "strict") format)
  | "validate-rules" => some (.validateRules (g.values.lookup "rules"))
  | "print-config" => some .printConfig
  | _ => none

def configVariable : String := "SAPAGENT_CONFIG"

/-- The path next to the command goes before the one in front of it, and both before the
environment, whose variable may be unset but not empty. -/
def configPath (env : Environment) (top sub : Given) : Except Unit (Option String) :=
  match sub.values.lookup "config", top.values.lookup "config", env.get? configVariable with
  | some path, some _, _ => .ok (some path)
  | some path, none, none => .ok (some path)
  | none, some path, none => .ok (some path)
  | none, none, none => .ok none
  | sub, top, some path =>
    if path.isEmpty then .error () else .ok (some ((sub.orElse fun _ => top).getD path))

def combine (env : Environment) (command : String) (top sub : Given) : Reading :=
  match request? command sub, configPath env top sub with
  | some request, .ok config =>
    .invocation ⟨config, top.flags.contains "verbose" || sub.flags.contains "verbose", request⟩
  | _, _ => .misuse

def read (env : Environment) (arguments : List String) : Reading :=
  match readOptions commonOptions {} arguments with
  | .help => .help
  | .version => .version
  | .misuse | .finished _ => .misuse
  | .word command rest top =>
    match optionsOf? command with
    | none => if command = "help" then readHelp rest else .misuse
    | some known =>
      match readOptions known {} rest with
      | .help => .help
      | .version | .misuse | .word .. => .misuse
      | .finished sub => combine env command top sub

end HanaInsights.CommandLine
