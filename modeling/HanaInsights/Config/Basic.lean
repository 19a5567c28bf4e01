import HanaInsights.Keyed
import HanaInsights.Run.Basic
set_option autoImplicit false

/-!
The configuration of the agent. Every setting has a default, so that every section and every field
may be left out; the publish token is read but never written.
-/

namespace HanaInsights

abbrev Environment := Keyed String

structure Connection where
  host : String := "localhost"
  port : Nat := 30015
  database : Option String := none
  user : Option String := none
  passwordEnv : Option String := none
  userstoreKey : Option String := none
  clientPath : String := "hdbsql"
  deriving DecidableEq, Repr

structure InsightsConfig where
  rulesDir : Option String := none
  strict : Bool := false
  intervalSecs : Nat := 3600
  commandTimeout : Nat := 30
  deriving DecidableEq, Repr

structure PublishConfig where
  endpoint : String := ""
  authToken : Option String := none
  authTokenEnv : Option String := none
  skipTlsVerify : Bool := false
  labels : Keyed String := Keyed.empty
  deriving DecidableEq

structure OutputConfig where
  format : OutputFormat := .json
  directory : Option String := none
  deriving DecidableEq, Repr

structure AgentConfig where
  retryCount : Nat := 2
  hana : Connection := {}
  insights : InsightsConfig := {}
  publish : PublishConfig := {}
  output : OutputConfig := {}
  deriving DecidableEq

/-- A token that is set goes before the environment; an empty variable counts as unset. -/
def PublishConfig.resolveToken (env : Environment) (c : PublishConfig) : Option String :=
  c.authToken.orElse fun _ =>
    (c.authTokenEnv.bind env.get?).filter fun token => !token.isEmpty

def optionalText : Option Json → Option (Option String) :=
  Json.orElse none (Json.nullable? Json.string?)

def Connection.decode? (s : Json.Source) (v : Json) : Option Connection := do
  match ← v.fields? s ["host", "port", "database", "user", "password_env", "userstore_key",
      "hdbsql_path"] with
  | [host, port, database, user, passwordEnv, userstoreKey, clientPath] =>
    some {
      host := ← Json.orElse "localhost" Json.string? host
      port := ← Json.orElse 30015 (Json.natBelow? 65536) port
      database := ← optionalText database
      user := ← optionalText user
      passwordEnv := ← optionalText passwordEnv
      userstoreKey := ← optionalText userstoreKey
      clientPath := ← Json.orElse "hdbsql" Json.string? clientPath }
  | _ => none

def InsightsConfig.decode? (s : Json.Source) (v : Json) : Option InsightsConfig := do
  match ← v.fields? s ["rules_dir", "strict", "interval_secs", "command_timeout"] with
  | [rulesDir, strict, intervalSecs, commandTimeout] =>
    some {
      rulesDir := ← optionalText rulesDir
      strict := ← Json.orElse false Json.bool? strict
      intervalSecs := ← Json.orElse 3600 Json.word64? intervalSecs
      commandTimeout := ← Json.orElse 30 Json.word64? commandTimeout }
  | _ => none

def labels? (v : Json) : Option (Keyed String) := (Json.pairsOf? Json.string? v).map Keyed.ofList

def PublishConfig.decode? (s : Json.Source) (v : Json) : Option PublishConfig := do
  match ← v.fields? s ["endpoint", "auth_token", "auth_token_env", "skip_tls_verify", "labels"] with
  | [endpoint, authToken, authTokenEnv, skipTlsVerify, labels] =>
    some {
      endpoint := ← Json.orElse "" Json.string? endpoint
      authToken := ← optionalText authToken
      authTokenEnv := ← optionalText authTokenEnv
      skipTlsVerify := ← Json.orElse false Json.bool? skipTlsVerify
      labels := ← Json.orElse Keyed.empty labels? labels }
  | _ => none

def OutputFormat.decode? (s : Json.Source) (v : Json) : Option OutputFormat :=
  (Json.word? s v).bind OutputFormat.ofName?

def OutputConfig.decode? (s : Json.Source) (v : Json) : Option OutputConfig := do
  match ← v.fields? s ["format", "directory"] with
  | [format, directory] =>
    some {
      format := ← Json.orElse .json (OutputFormat.decode? s) format
      directory := ← optionalText directory }
  | _ => none

def AgentConfig.decode? (s : Json.Source) (v : Json) : Option AgentConfig := do
  match ← v.fields? s ["retry_count", "hana", "insights", "publish", "output"] with
  | [retryCount, hana, insights, publish, output] =>
    some {
      retryCount := ← Json.orElse 2 (Json.natBelow? 4294967296) retryCount
      hana := ← Json.orElse {} (Connection.decode? s) hana
      insights := ← Json.orElse {} (InsightsConfig.decode? s) insights
      publish := ← Json.orElse {} (PublishConfig.decode? s) publish
      output := ← Json.orElse {} (OutputConfig.decode? s) output }
  | _ => none

def AgentConfig.read? (text : String) : Option AgentConfig :=
  (Toml.read? text).bind fun v => decode? .toml v.toJson

def Connection.ofJson? : Json → Option Connection := decode? .json
def PublishConfig.ofJson? : Json → Option PublishConfig := decode? .json
def OutputFormat.ofJson? : Json → Option OutputFormat := decode? .json
def AgentConfig.ofJson? : Json → Option AgentConfig := decode? .json

def optionalJson : Option String → Json
  | some text => .string text
  | none => .null

def Connection.toJson (c : Connection) : Json :=
  .object [("host", .string c.host), ("port", .natural c.port),
    ("database", optionalJson c.database), ("user", optionalJson c.user),
    ("password_env", optionalJson c.passwordEnv), ("userstore_key", optionalJson c.userstoreKey),
    ("hdbsql_path", .string c.clientPath)]

def InsightsConfig.toJson (c : InsightsConfig) : Json :=
  .object [("rules_dir", optionalJson c.rulesDir), ("strict", .bool c.strict),
    ("interval_secs", .natural c.intervalSecs), ("command_timeout", .natural c.commandTimeout)]

def PublishConfig.labelsJson (c : PublishConfig) : Json :=
  .object (c.labels.entries.map fun e => (e.1, .string e.2))

def PublishConfig.members (c : PublishConfig) : List (String × Json) :=
  [("endpoint", .string c.endpoint), ("auth_token_env", optionalJson c.authTokenEnv),
    ("skip_tls_verify", .bool c.skipTlsVerify), ("labels", c.labelsJson)]

def OutputConfig.toJson (c : OutputConfig) : Json :=
  .object [("format", .string c.format.extension), ("directory", optionalJson c.directory)]

def optionalEntry (key : String) : Option String → List (String × Toml)
  | some value => [(key, .string value)]
  | none => []

def Connection.toToml (c : Connection) : Toml :=
  .table <| [("host", .string c.host), ("port", .integer c.port)] ++
    optionalEntry "database" c.database ++ optionalEntry "user" c.user ++
    optionalEntry "password_env" c.passwordEnv ++ optionalEntry "userstore_key" c.userstoreKey ++
    [("hdbsql_path", .string c.clientPath)]

def InsightsConfig.toToml? (c : InsightsConfig) : Option Toml := do
  let intervalSecs ← Toml.natural? c.intervalSecs
  let commandTimeout ← Toml.natural? c.commandTimeout
  some <| .table <| optionalEntry "rules_dir" c.rulesDir ++
    [("strict", .bool c.strict), ("interval_secs", intervalSecs),
      ("command_timeout", commandTimeout)]

/-- The token itself is not written. The labels are a map without an order, so the order in which
they are written is given. -/
def PublishConfig.toToml (c : PublishConfig) (labels : List (String × String)) : Toml :=
  .table <| [("endpoint", .string c.endpoint)] ++ optionalEntry "auth_token_env" c.authTokenEnv ++
    [("skip_tls_verify", .bool c.skipTlsVerify),
      ("labels", .table (labels.map fun e => (e.1, .string e.2)))]

def OutputConfig.toToml (c : OutputConfig) : Toml :=
  .table <| [("format", .string c.format.extension)] ++ optionalEntry "directory" c.directory

/-- An order for the entries of a map that has none. -/
structure Arrangement where
  arrange : List (String × String) → List (String × String)
  perm : ∀ entries, (arrange entries).Perm entries

def Arrangement.byName : Arrangement := ⟨id, .refl⟩

namespace AgentConfig

def toToml? (c : AgentConfig) (labels : List (String × String)) :
    Option (List (String × Toml)) := do
  let insights ← c.insights.toToml?
  some [("retry_count", .integer c.retryCount), ("hana", c.hana.toToml), ("insights", insights),
    ("publish", c.publish.toToml labels), ("output", c.output.toToml)]

def renderWith? (c : AgentConfig) (labels : List (String × String)) : Option String :=
  (c.toToml? labels).map Toml.print

def render? (c : AgentConfig) (order : Arrangement := .byName) : Option String :=
  c.renderWith? (order.arrange c.publish.labels.entries)

def withToken (env : Environment) (c : AgentConfig) : AgentConfig :=
  { c with publish := { c.publish with authToken := c.publish.resolveToken env } }

end AgentConfig
end HanaInsights
