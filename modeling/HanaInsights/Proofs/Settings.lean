import HanaInsights.Config.Basic
import HanaInsights.Proofs.Keyed
import HanaInsights.Proofs.TomlIntegers
set_option autoImplicit false

/-!
Settings as TOML documents. A setting that is not written is read as the one that it was; only the
token is never written, so it is the one setting that the document of a configuration does not
depend on.
-/

namespace HanaInsights

namespace Connection

def fieldNames : List String :=
  ["host", "port", "database", "user", "password_env", "userstore_key", "hdbsql_path"]

theorem decode?_eq_some_iff {s : Json.Source} {v : Json} {c : Connection} :
    decode? s v = some c ↔
      ∃ host port database user passwordEnv userstoreKey clientPath,
        v.fields? s fieldNames =
          some [host, port, database, user, passwordEnv, userstoreKey, clientPath] ∧
        Json.orElse "localhost" Json.string? host = some c.host ∧
        Json.orElse 30015 (Json.natBelow? 65536) port = some c.port ∧
        optionalText database = some c.database ∧ optionalText user = some c.user ∧
        optionalText passwordEnv = some c.passwordEnv ∧
        optionalText userstoreKey = some c.userstoreKey ∧
        Json.orElse "hdbsql" Json.string? clientPath = some c.clientPath := by
  constructor
  · intro h
    obtain ⟨given, hfields, h⟩ := Option.bind_eq_some_iff.1 h
    split at h
    · simp only [Option.bind_eq_bind, Option.bind_eq_some_iff, Option.some.injEq] at h
      obtain ⟨_, hhost, _, hport, _, hdatabase, _, huser, _, hpassword, _, hkey, _, hpath, rfl⟩ := h
      exact ⟨_, _, _, _, _, _, _, hfields, hhost, hport, hdatabase, huser, hpassword, hkey, hpath⟩
    · cases h
  · rintro ⟨_, _, _, _, _, _, _, hfields, hhost, hport, hdatabase, huser, hpassword, hkey, hpath⟩
    rw [fieldNames] at hfields
    simp [decode?, hfields, hhost, hport, hdatabase, huser, hpassword, hkey, hpath]

end Connection

namespace InsightsConfig

def fieldNames : List String := ["rules_dir", "strict", "interval_secs", "command_timeout"]

theorem decode?_eq_some_iff {s : Json.Source} {v : Json} {c : InsightsConfig} :
    decode? s v = some c ↔
      ∃ rulesDir strict intervalSecs commandTimeout,
        v.fields? s fieldNames = some [rulesDir, strict, intervalSecs, commandTimeout] ∧
        optionalText rulesDir = some c.rulesDir ∧
        Json.orElse false Json.bool? strict = some c.strict ∧
        Json.orElse 3600 Json.word64? intervalSecs = some c.intervalSecs ∧
        Json.orElse 30 Json.word64? commandTimeout = some c.commandTimeout := by
  constructor
  · intro h
    obtain ⟨given, hfields, h⟩ := Option.bind_eq_some_iff.1 h
    split at h
    · simp only [Option.bind_eq_bind, Option.bind_eq_some_iff, Option.some.injEq] at h
      obtain ⟨_, hrules, _, hstrict, _, hinterval, _, htimeout, rfl⟩ := h
      exact ⟨_, _, _, _, hfields, hrules, hstrict, hinterval, htimeout⟩
    · cases h
  · rintro ⟨_, _, _, _, hfields, hrules, hstrict, hinterval, htimeout⟩
    rw [fieldNames] at hfields
    simp [decode?, hfields, hrules, hstrict, hinterval, htimeout]

end InsightsConfig

namespace PublishConfig

def fieldNames : List String :=
  ["endpoint", "auth_token", "auth_token_env", "skip_tls_verify", "labels"]

theorem decode?_eq_some_iff {s : Json.Source} {v : Json} {c : PublishConfig} :
    decode? s v = some c ↔
      ∃ endpoint authToken authTokenEnv skipTlsVerify labels,
        v.fields? s fieldNames =
          some [endpoint, authToken, authTokenEnv, skipTlsVerify, labels] ∧
        Json.orElse "" Json.string? endpoint = some c.endpoint ∧
        optionalText authToken = some c.authToken ∧
        optionalText authTokenEnv = some c.authTokenEnv ∧
        Json.orElse false Json.bool? skipTlsVerify = some c.skipTlsVerify ∧
        Json.orElse Keyed.empty labels? labels = some c.labels := by
  constructor
  · intro h
    obtain ⟨given, hfields, h⟩ := Option.bind_eq_some_iff.1 h
    split at h
    · simp only [Option.bind_eq_bind, Option.bind_eq_some_iff, Option.some.injEq] at h
      obtain ⟨_, hendpoint, _, htoken, _, htokenEnv, _, hskip, _, hlabels, rfl⟩ := h
      exact ⟨_, _, _, _, _, hfields, hendpoint, htoken, htokenEnv, hskip, hlabels⟩
    · cases h
  · rintro ⟨_, _, _, _, _, hfields, hendpoint, htoken, htokenEnv, hskip, hlabels⟩
    rw [fieldNames] at hfields
    simp [decode?, hfields, hendpoint, htoken, htokenEnv, hskip, hlabels]

end PublishConfig

namespace OutputConfig

def fieldNames : List String := ["format", "directory"]

theorem decode?_of_fields {s : Json.Source} {v : Json} {format directory : Option Json}
    {c : OutputConfig} (hfields : v.fields? s fieldNames = some [format, directory])
    (hformat : Json.orElse .json (OutputFormat.decode? s) format = some c.format)
    (hdirectory : optionalText directory = some c.directory) : decode? s v = some c := by
  rw [fieldNames] at hfields
  simp [decode?, hfields, hformat, hdirectory]

end OutputConfig

namespace AgentConfig

def fieldNames : List String := ["retry_count", "hana", "insights", "publish", "output"]

theorem decode?_eq_some_iff {s : Json.Source} {v : Json} {c : AgentConfig} :
    decode? s v = some c ↔
      ∃ retryCount hana insights publish output,
        v.fields? s fieldNames = some [retryCount, hana, insights, publish, output] ∧
        Json.orElse 2 (Json.natBelow? 4294967296) retryCount = some c.retryCount ∧
        Json.orElse {} (Connection.decode? s) hana = some c.hana ∧
        Json.orElse {} (InsightsConfig.decode? s) insights = some c.insights ∧
        Json.orElse {} (PublishConfig.decode? s) publish = some c.publish ∧
        Json.orElse {} (OutputConfig.decode? s) output = some c.output := by
  constructor
  · intro h
    obtain ⟨given, hfields, h⟩ := Option.bind_eq_some_iff.1 h
    split at h
    · simp only [Option.bind_eq_bind, Option.bind_eq_some_iff, Option.some.injEq] at h
      obtain ⟨_, hretry, _, hhana, _, hinsights, _, hpublish, _, houtput, rfl⟩ := h
      exact ⟨_, _, _, _, _, hfields, hretry, hhana, hinsights, hpublish, houtput⟩
    · cases h
  · rintro ⟨_, _, _, _, _, hfields, hretry, hhana, hinsights, hpublish, houtput⟩
    rw [fieldNames] at hfields
    simp [decode?, hfields, hretry, hhana, hinsights, hpublish, houtput]

end AgentConfig

/-- The numbers fit where they are held and can be written. -/
structure AgentConfig.Bounded (c : AgentConfig) : Prop where
  retryCount : c.retryCount < 4294967296
  port : c.hana.port < 65536
  intervalSecs : c.insights.intervalSecs < 9223372036854775808
  commandTimeout : c.insights.commandTimeout < 9223372036854775808

theorem InsightsConfig.bounded_of_decode? {s : Json.Source} {v : Json} {c : InsightsConfig}
    (hv : v.Signed) (h : decode? s v = some c) :
    c.intervalSecs < 9223372036854775808 ∧ c.commandTimeout < 9223372036854775808 := by
  obtain ⟨_, _, _, _, hfields, -, -, hinterval, htimeout⟩ := decode?_eq_some_iff.1 h
  constructor
  · rcases Json.orElse_eq_some hinterval with hdefault | ⟨w, rfl, hread⟩
    · omega
    · exact (hv.of_fields? hfields (by simp)).lt_of_natBelow? hread
  · rcases Json.orElse_eq_some htimeout with hdefault | ⟨w, rfl, hread⟩
    · omega
    · exact (hv.of_fields? hfields (by simp)).lt_of_natBelow? hread

theorem Connection.port_of_decode? {s : Json.Source} {v : Json} {c : Connection}
    (h : decode? s v = some c) : c.port < 65536 := by
  obtain ⟨_, _, _, _, _, _, _, -, -, hport, -⟩ := decode?_eq_some_iff.1 h
  rcases Json.orElse_eq_some hport with hdefault | ⟨w, -, hread⟩
  · omega
  · exact Json.lt_of_natBelow? hread

namespace AgentConfig

theorem bounded_of_decode? {s : Json.Source} {v : Json} {c : AgentConfig} (hv : v.Signed)
    (h : decode? s v = some c) : c.Bounded := by
  obtain ⟨_, _, _, _, _, hfields, hretry, hhana, hinsights, -, -⟩ := decode?_eq_some_iff.1 h
  have hseconds : c.insights.intervalSecs < 9223372036854775808 ∧
      c.insights.commandTimeout < 9223372036854775808 := by
    rcases Json.orElse_eq_some hinsights with hdefault | ⟨w, rfl, hread⟩
    · rw [hdefault]
      decide
    · exact InsightsConfig.bounded_of_decode? (hv.of_fields? hfields (by simp)) hread
  refine ⟨?_, ?_, hseconds.1, hseconds.2⟩
  · rcases Json.orElse_eq_some hretry with hdefault | ⟨w, -, hread⟩
    · omega
    · exact Json.lt_of_natBelow? hread
  · rcases Json.orElse_eq_some hhana with hdefault | ⟨w, -, hread⟩
    · rw [hdefault]
      decide
    · exact Connection.port_of_decode? hread

theorem bounded_of_read? {text : String} {c : AgentConfig} (h : read? text = some c) :
    c.Bounded := by
  obtain ⟨v, hv, hdecode⟩ := Option.bind_eq_some_iff.1 h
  exact bounded_of_decode? (Toml.signed_of_read? hv) hdecode

end AgentConfig

/-! ## What is written -/

namespace Toml

variable {depth : Nat} {names : List String} {given : List (Option Toml)}

def RegularField (depth : Nat) (g : Option Toml) : Prop := ∀ v ∈ g, Regular depth v

theorem regularField_none : RegularField depth none := nofun

theorem regularField_some {v : Toml} (h : Regular depth v) : RegularField depth (some v) := by
  intro w hw
  obtain rfl := Option.some.inj hw
  exact h

theorem regularField_string (s : String) : RegularField depth (some (.string s)) :=
  regularField_some (.leaf (.string s))

theorem regularField_bool (b : Bool) : RegularField depth (some (.bool b)) :=
  regularField_some (.leaf (.bool b))

theorem regularField_natural {n : Nat} (h : n < 9223372036854775808) :
    RegularField depth (some (.integer n)) :=
  regularField_some (regular_natural h)

theorem regularField_text (text : Option String) : RegularField depth (text.map Toml.string) := by
  cases text with
  | none => exact regularField_none
  | some s => exact regularField_string s

theorem regular_written (hnames : names.Nodup) (h : given.Forall (RegularField depth)) :
    Regular (depth + 1) (.table (Json.written names given)) :=
  .table (hnames.sublist (Json.keys_written names given)) fun _ he =>
    List.forall_iff_forall_mem.1 h _ (Json.given_of_mem_written he) _ rfl

theorem fields?_written (s : Json.Source) (hnames : names.Nodup)
    (hlength : names.length = given.length) :
    ((table (Json.written names given)).toJson.arranged Json.pairsFirst).fields? s names =
      some (given.map (·.map fun v => v.toJson.arranged Json.pairsFirst)) := by
  rw [toJson, toJsonEntries_eq_map, Json.written_map,
    Json.fields?_arranged_written Json.pairsFirst_perm s hnames (by rwa [List.length_map]),
    List.map_map]
  congr 2
  funext g
  cases g <;> rfl

end Toml

/-- The value of a setting after its document has been printed and read. -/
def reread (v : Toml) : Json := v.toJson.arranged Json.pairsFirst

theorem optionalText_reread (text : Option String) :
    optionalText ((text.map Toml.string).map reread) = some text := by
  cases text <;> rfl

namespace Connection

def given (c : Connection) : List (Option Toml) :=
  [some (.string c.host), some (.integer c.port), c.database.map .string, c.user.map .string,
    c.passwordEnv.map .string, c.userstoreKey.map .string, some (.string c.clientPath)]

theorem toToml_eq_written (c : Connection) :
    c.toToml = .table (Json.written fieldNames c.given) := by
  rw [toToml, given]
  cases c.database <;> cases c.user <;> cases c.passwordEnv <;> cases c.userstoreKey <;> rfl

theorem regular_toToml {depth : Nat} {c : Connection} (h : c.port < 65536) :
    Toml.Regular (depth + 1) c.toToml := by
  rw [toToml_eq_written]
  exact Toml.regular_written (by decide) ⟨Toml.regularField_string _,
    Toml.regularField_natural (by omega), Toml.regularField_text _, Toml.regularField_text _,
    Toml.regularField_text _, Toml.regularField_text _, Toml.regularField_string _⟩

theorem decode?_reread (s : Json.Source) {c : Connection} (h : c.port < 65536) :
    decode? s (reread c.toToml) = some c := by
  have hfields : (reread c.toToml).fields? s fieldNames =
      some [some (.string c.host), some (.natural c.port), (c.database.map .string).map reread,
        (c.user.map .string).map reread, (c.passwordEnv.map .string).map reread,
        (c.userstoreKey.map .string).map reread, some (.string c.clientPath)] := by
    rw [toToml_eq_written]
    exact Toml.fields?_written s (by decide) rfl
  have hport : Json.orElse 30015 (Json.natBelow? 65536) (some (.natural c.port)) = some c.port := by
    rw [Json.orElse, Json.natBelow?_natural h]
  exact decode?_eq_some_iff.2 ⟨_, _, _, _, _, _, _, hfields, rfl, hport,
    optionalText_reread _, optionalText_reread _, optionalText_reread _, optionalText_reread _,
    rfl⟩

end Connection

namespace InsightsConfig

def given (c : InsightsConfig) : List (Option Toml) :=
  [c.rulesDir.map .string, some (.bool c.strict), some (.integer c.intervalSecs),
    some (.integer c.commandTimeout)]

section
variable {c : InsightsConfig} (hinterval : c.intervalSecs < 9223372036854775808)
  (htimeout : c.commandTimeout < 9223372036854775808)
include hinterval htimeout

theorem toToml?_eq_written : c.toToml? = some (.table (Json.written fieldNames c.given)) := by
  simp only [toToml?, Toml.natural?_of_lt hinterval, Toml.natural?_of_lt htimeout,
    Option.bind_eq_bind, Option.bind_some, given]
  cases c.rulesDir <;> rfl

theorem regular_given {depth : Nat} :
    Toml.Regular (depth + 1) (.table (Json.written fieldNames c.given)) :=
  Toml.regular_written (by decide) ⟨Toml.regularField_text _, Toml.regularField_bool _,
    Toml.regularField_natural hinterval, Toml.regularField_natural htimeout⟩

theorem decode?_reread (s : Json.Source) :
    decode? s (reread (.table (Json.written fieldNames c.given))) = some c := by
  have hfields : (reread (.table (Json.written fieldNames c.given))).fields? s fieldNames =
      some [(c.rulesDir.map .string).map reread, some (.bool c.strict),
        some (.natural c.intervalSecs), some (.natural c.commandTimeout)] :=
    Toml.fields?_written s (by decide) rfl
  have hread : ∀ {default n : Nat}, n < 9223372036854775808 →
      Json.orElse default Json.word64? (some (.natural n)) = some n := by
    intro default n hn
    rw [Json.orElse, Json.word64?, Json.natBelow?_natural (by omega)]
  exact decode?_eq_some_iff.2 ⟨_, _, _, _, hfields, optionalText_reread _, rfl,
    hread hinterval, hread htimeout⟩

end

end InsightsConfig

namespace PublishConfig

def labelsToToml (labels : List (String × String)) : Toml :=
  .table (labels.map fun e => (e.1, .string e.2))

def given (c : PublishConfig) (labels : List (String × String)) : List (Option Toml) :=
  [some (.string c.endpoint), none, c.authTokenEnv.map .string, some (.bool c.skipTlsVerify),
    some (labelsToToml labels)]

def tokenless (c : PublishConfig) : PublishConfig := { c with authToken := none }

theorem toToml_eq_written (c : PublishConfig) (labels : List (String × String)) :
    c.toToml labels = .table (Json.written fieldNames (c.given labels)) := by
  rw [toToml, given]
  cases c.authTokenEnv <;> rfl

section
variable {c : PublishConfig} {labels : List (String × String)}
  (h : labels.Perm c.labels.entries)
include h

theorem regular_toToml {depth : Nat} : Toml.Regular (depth + 2) (c.toToml labels) := by
  have hlabels : Toml.Regular (depth + 1) (labelsToToml labels) := by
    refine .table ?_ fun e he => ?_
    · rw [List.map_map]
      exact (h.map Prod.fst).nodup_iff.2 c.labels.nodup_keys
    · obtain ⟨e, -, rfl⟩ := List.mem_map.1 he
      exact .leaf (.string e.2)
  rw [toToml_eq_written]
  exact Toml.regular_written (by decide) ⟨Toml.regularField_string _, Toml.regularField_none,
    Toml.regularField_text _, Toml.regularField_bool _, Toml.regularField_some hlabels⟩

theorem labels?_reread : labels? (reread (labelsToToml labels)) = some c.labels := by
  have hread : Json.pairsOf? Json.string? (.object (labels.map fun e => (e.1, .string e.2))) =
      some labels :=
    Json.pairsOf?_map Json.string fun _ _ => rfl
  obtain ⟨pairs, hpairs, hperm⟩ := Json.pairsOf?_perm (Json.pairsFirst_perm _) hread
  have hofList := Keyed.ofList_perm (h.symm.trans hperm) c.labels.nodup_keys
  rw [Keyed.ofList_entries] at hofList
  have hobject : reread (labelsToToml labels) =
      .object (Json.pairsFirst (labels.map fun e => (e.1, .string e.2))) := by
    rw [reread, labelsToToml, Toml.toJson, Toml.toJsonEntries_eq_map, Json.arranged,
      Json.arrangedMembers_eq_map, List.map_map, List.map_map]
    rfl
  rw [labels?, hobject, hpairs, Option.map_some, ← hofList]

theorem decode?_reread (s : Json.Source) :
    decode? s (reread (c.toToml labels)) = some c.tokenless := by
  have hfields : (reread (c.toToml labels)).fields? s fieldNames =
      some [some (.string c.endpoint), none, (c.authTokenEnv.map .string).map reread,
        some (.bool c.skipTlsVerify), some (reread (labelsToToml labels))] := by
    rw [toToml_eq_written]
    exact Toml.fields?_written s (by decide) rfl
  exact decode?_eq_some_iff.2 ⟨_, _, _, _, _, hfields, rfl, rfl, optionalText_reread _, rfl,
    labels?_reread h⟩

end

end PublishConfig

namespace OutputConfig

def given (c : OutputConfig) : List (Option Toml) :=
  [some (.string c.format.extension), c.directory.map .string]

theorem toToml_eq_written (c : OutputConfig) :
    c.toToml = .table (Json.written fieldNames c.given) := by
  rw [toToml, given]
  cases c.directory <;> rfl

theorem regular_toToml {depth : Nat} (c : OutputConfig) : Toml.Regular (depth + 1) c.toToml := by
  rw [toToml_eq_written]
  exact Toml.regular_written (by decide)
    ⟨Toml.regularField_string _, Toml.regularField_text _⟩

theorem decode?_reread (s : Json.Source) (c : OutputConfig) :
    decode? s (reread c.toToml) = some c := by
  have hfields : (reread c.toToml).fields? s fieldNames =
      some [some (.string c.format.extension), (c.directory.map .string).map reread] := by
    rw [toToml_eq_written]
    exact Toml.fields?_written s (by decide) rfl
  refine decode?_of_fields hfields ?_ (optionalText_reread _)
  cases c.format <;> rfl

end OutputConfig

namespace AgentConfig

def given (c : AgentConfig) (labels : List (String × String)) : List (Option Toml) :=
  [some (.integer c.retryCount), some c.hana.toToml,
    some (.table (Json.written InsightsConfig.fieldNames c.insights.given)),
    some (c.publish.toToml labels), some c.output.toToml]

def tokenless (c : AgentConfig) : AgentConfig := { c with publish := c.publish.tokenless }

section
variable {c : AgentConfig} (h : c.Bounded)
include h

theorem toToml?_eq_written (labels : List (String × String)) :
    c.toToml? labels = some (Json.written fieldNames (c.given labels)) := by
  rw [toToml?, InsightsConfig.toToml?_eq_written h.intervalSecs h.commandTimeout]
  rfl

variable {labels : List (String × String)} (hlabels : labels.Perm c.publish.labels.entries)
include hlabels

theorem regular_given :
    Toml.Regular 3 (.table (Json.written fieldNames (c.given labels))) := by
  have hretry := h.retryCount
  exact Toml.regular_written (by decide) ⟨Toml.regularField_natural (by omega),
    Toml.regularField_some (Connection.regular_toToml h.port),
    Toml.regularField_some (InsightsConfig.regular_given h.intervalSecs h.commandTimeout),
    Toml.regularField_some (PublishConfig.regular_toToml hlabels),
    Toml.regularField_some c.output.regular_toToml⟩

theorem decode?_reread (s : Json.Source) :
    decode? s (reread (.table (Json.written fieldNames (c.given labels)))) = some c.tokenless := by
  have hfields : (reread (.table (Json.written fieldNames (c.given labels)))).fields? s fieldNames =
      some [some (.natural c.retryCount), some (reread c.hana.toToml),
        some (reread (.table (Json.written InsightsConfig.fieldNames c.insights.given))),
        some (reread (c.publish.toToml labels)), some (reread c.output.toToml)] :=
    Toml.fields?_written s (by decide) rfl
  have hretry : Json.orElse 2 (Json.natBelow? 4294967296) (some (.natural c.retryCount)) =
      some c.retryCount := by
    rw [Json.orElse, Json.natBelow?_natural h.retryCount]
  exact decode?_eq_some_iff.2 ⟨_, _, _, _, _, hfields, hretry,
    Connection.decode?_reread s h.port,
    InsightsConfig.decode?_reread h.intervalSecs h.commandTimeout s,
    PublishConfig.decode?_reread hlabels s, c.output.decode?_reread s⟩

/-- The printed text is read as the same settings but for the token. -/
theorem exists_renderWith? :
    ∃ printed, c.renderWith? labels = some printed ∧ read? printed = some c.tokenless := by
  obtain ⟨v, hv, hjson⟩ := Toml.exists_read?_print (regular_given h hlabels) (by decide)
  refine ⟨_, by rw [renderWith?, toToml?_eq_written h, Option.map_some], ?_⟩
  rw [read?, hv, Option.bind_some, hjson]
  exact decode?_reread h hlabels .toml

end

end AgentConfig
end HanaInsights
