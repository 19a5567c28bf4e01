import HanaInsights.CommandLine.Outcome
import HanaInsights.Proofs.Files
import HanaInsights.Proofs.Settings
set_option autoImplicit false

/-!
Printed settings and the token. A token is read from a file or from the environment and is never
printed, so what is printed depends on neither; it is read again as the settings that it was
printed from, with the token looked up anew.
-/

namespace HanaInsights

namespace PublishConfig

/-- What is said apart from the token. In an array its place is kept. -/
def hideToken : Json → Json
  | .object members => .object (members.filter fun m => m.1 != "auth_token")
  | .array (endpoint :: _ :: rest) => .array (endpoint :: .string "" :: rest)
  | v => v

variable {s : Json.Source} {v : Json} {endpoint token tokenEnv skip labels : Option Json}

theorem fields?_hideToken_object {members : List (String × Json)}
    (h : (Json.object members).fields? s fieldNames =
      some [endpoint, token, tokenEnv, skip, labels]) :
    (hideToken (.object members)).fields? s fieldNames =
      some [endpoint, none, tokenEnv, skip, labels] := by
  have hother : ∀ name, name ≠ "auth_token" →
      Json.given? [name] (members.filter fun m => m.1 != "auth_token") =
        Json.given? [name] members := by
    intro name hname
    refine Json.given?_filter fun m hm => ?_
    rw [List.mem_singleton.1 hm, bne_iff_ne]
    exact hname
  have hhidden : Json.given? ["auth_token"] (members.filter fun m => m.1 != "auth_token") =
      some none := by
    refine Json.given?_absent fun m hm => ?_
    rw [List.mem_singleton]
    exact bne_iff_ne.1 (List.mem_filter.1 hm).2
  rw [Json.fields?_object_eq_some_iff] at h
  rw [hideToken, Json.fields?_object_eq_some_iff]
  simp only [fieldNames, List.forall₂_cons, List.forall₂_nil_left_iff, and_true] at h ⊢
  obtain ⟨hendpoint, -, htokenEnv, hskip, hlabels⟩ := h
  exact ⟨(hother _ (by decide)).trans hendpoint, hhidden, (hother _ (by decide)).trans htokenEnv,
    (hother _ (by decide)).trans hskip, (hother _ (by decide)).trans hlabels⟩

theorem fields?_hideToken_array {first second : Json} {rest : List Json}
    (h : (Json.array (first :: second :: rest)).fields? s fieldNames =
      some [endpoint, token, tokenEnv, skip, labels]) :
    (hideToken (.array (first :: second :: rest))).fields? s fieldNames =
      some [endpoint, some (.string ""), tokenEnv, skip, labels] := by
  rw [Json.fields?] at h
  rw [hideToken, Json.fields?]
  split at h
  next hlength =>
    refine (if_pos hlength).trans ?_
    simp only [fieldNames, List.length_cons, List.take_succ_cons, List.map_cons, List.cons_append,
      Option.some.injEq, List.cons.injEq] at h ⊢
    exact ⟨h.1, trivial, h.2.2⟩
  next => cases h

theorem fields?_hideToken
    (h : v.fields? s fieldNames = some [endpoint, token, tokenEnv, skip, labels]) :
    ∃ hidden kept, optionalText hidden = some kept ∧
      (hideToken v).fields? s fieldNames = some [endpoint, hidden, tokenEnv, skip, labels] := by
  cases v with
  | object members => exact ⟨none, none, rfl, fields?_hideToken_object h⟩
  | array items =>
    match items, h with
    | [], h | [_], h =>
      cases h
      exact ⟨none, none, rfl, rfl⟩
    | _ :: _ :: _, h => exact ⟨_, some "", rfl, fields?_hideToken_array h⟩
  | _ => cases h

theorem decode?_hideToken {c : PublishConfig} (h : decode? s v = some c) :
    ∃ token, decode? s (hideToken v) = some { c with authToken := token } := by
  obtain ⟨_, _, _, _, _, hfields, hendpoint, -, hrest⟩ := decode?_eq_some_iff.1 h
  obtain ⟨hidden, kept, hkept, hfields'⟩ := fields?_hideToken hfields
  exact ⟨kept, decode?_eq_some_iff.2 ⟨_, _, _, _, _, hfields', hendpoint, hkept, hrest⟩⟩

end PublishConfig

namespace AgentConfig

def hideMember (name : String) (v : Json) : Json :=
  if name = "publish" then PublishConfig.hideToken v else v

theorem hideMember_publish : hideMember "publish" = PublishConfig.hideToken := rfl

theorem hideMember_other {name : String} (h : name ≠ "publish") : hideMember name = id :=
  funext fun _ => if_neg h

def hideToken : Json → Json
  | .object members => .object (members.map fun m => (m.1, hideMember m.1 m.2))
  | v => v

variable {s : Json.Source} {c : AgentConfig}

theorem fields?_hideToken_object {members : List (String × Json)}
    {retryCount hana insights publish output : Option Json}
    (h : (Json.object members).fields? s fieldNames =
      some [retryCount, hana, insights, publish, output]) :
    (hideToken (.object members)).fields? s fieldNames =
      some [retryCount, hana, insights, publish.map PublishConfig.hideToken, output] := by
  rw [Json.fields?_object_eq_some_iff] at h
  rw [hideToken, Json.fields?_object_eq_some_iff]
  simp only [fieldNames, List.forall₂_cons, List.forall₂_nil_left_iff, and_true,
    Json.given?_map_values hideMember] at h ⊢
  obtain ⟨hretry, hhana, hinsights, hpublish, houtput⟩ := h
  simp [hideMember_publish, hideMember_other, hretry, hhana, hinsights, hpublish, houtput]

theorem exists_publish_hideToken {publish : Option Json} {c : PublishConfig}
    (h : Json.orElse {} (PublishConfig.decode? s) publish = some c) :
    ∃ token, Json.orElse {} (PublishConfig.decode? s) (publish.map PublishConfig.hideToken) =
      some { c with authToken := token } := by
  cases publish with
  | none => exact ⟨c.authToken, h⟩
  | some v => exact PublishConfig.decode?_hideToken h

theorem decode?_hideToken {v : Json} (h : decode? s v = some c) :
    ∃ token, decode? s (hideToken v) =
      some { c with publish := { c.publish with authToken := token } } := by
  cases v with
  | object members =>
    obtain ⟨_, _, _, _, _, hfields, hretry, hhana, hinsights, hpublish, houtput⟩ :=
      decode?_eq_some_iff.1 h
    obtain ⟨token, htoken⟩ := exists_publish_hideToken hpublish
    exact ⟨token, decode?_eq_some_iff.2 ⟨_, _, _, _, _, fields?_hideToken_object hfields, hretry,
      hhana, hinsights, htoken, houtput⟩⟩
  | _ => exact ⟨c.publish.authToken, h⟩

/-- Texts of the same document but for the token, which either may lack. -/
def SameButToken (text text' : String) : Prop :=
  (Toml.read? text).map (fun v => hideToken v.toJson) =
    (Toml.read? text').map fun v => hideToken v.toJson

theorem tokenless_eq_of_sameButToken {text text' : String} {c' : AgentConfig}
    (hsame : SameButToken text text') (h : read? text = some c) (h' : read? text' = some c') :
    c'.tokenless = c.tokenless := by
  obtain ⟨v, hv, hdecode⟩ := Option.bind_eq_some_iff.1 h
  obtain ⟨v', hv', hdecode'⟩ := Option.bind_eq_some_iff.1 h'
  rw [SameButToken, hv, hv'] at hsame
  obtain ⟨token, htoken⟩ := decode?_hideToken hdecode
  obtain ⟨token', htoken'⟩ := decode?_hideToken hdecode'
  -- Both are decoded from the one document that is left once the token is hidden.
  have hdocument : hideToken v.toJson = hideToken v'.toJson := Option.some.inj hsame
  rw [← hdocument, htoken] at htoken'
  have hsettings := congrArg tokenless (Option.some.inj htoken')
  exact hsettings.symm

end AgentConfig

def labelChars (label : String × String) : List Char :=
  Toml.keyChars label.1.toList ++ ' ' :: '=' :: ' ' :: Toml.stringChars label.2.toList ++ ['\n']

/-- What a label is printed as. -/
def labelLine (label : String × String) : String := String.ofList (labelChars label)

namespace PublishConfig

theorem pairsChars_labels (labels : List (String × String)) :
    Toml.pairsChars (labels.map fun e => (e.1, .string e.2)) = labels.flatMap labelChars := by
  induction labels with
  | nil => rfl
  | cons e rest ih =>
    rw [List.map_cons, Toml.pairsChars, ih, List.flatMap_cons, labelChars]
    simp [Toml.isSection, Toml.valueChars]

theorem sectionsChars_labels (path : List String) (labels : List (String × String)) :
    Toml.sectionsChars path (labels.map fun e => (e.1, .string e.2)) = [] := by
  induction labels with
  | nil => rfl
  | cons e rest ih => simp [Toml.sectionsChars, Toml.sectionChars, ih]

theorem sectionChars_labels (path : List String) (labels : List (String × String)) :
    Toml.sectionChars path (.table (labels.map fun e => (e.1, .string e.2))) =
      Toml.headerChars path ++ labels.flatMap labelChars := by
  have hheader : Toml.needsHeader (labels.map fun e => (e.1, .string e.2)) = true := by
    cases labels <;> simp [Toml.needsHeader, Toml.isSection]
  rw [Toml.sectionChars, if_pos hheader, pairsChars_labels, sectionsChars_labels, List.append_nil]

theorem sectionChars_string (path : List String) (text : String) :
    Toml.sectionChars path (.string text) = [] := rfl

theorem sectionChars_bool (path : List String) (b : Bool) :
    Toml.sectionChars path (.bool b) = [] := rfl

theorem exists_sectionChars (c : PublishConfig) (path : List String) :
    ∃ front, ∀ labels, Toml.sectionChars path (c.toToml labels) =
      front ++ labels.flatMap labelChars := by
  refine ⟨Toml.headerChars path ++ Toml.pairsChars ([("endpoint", .string c.endpoint)] ++
    optionalEntry "auth_token_env" c.authTokenEnv ++
    [("skip_tls_verify", .bool c.skipTlsVerify)]) ++ Toml.headerChars (path ++ ["labels"]), ?_⟩
  intro labels
  rw [toToml, Toml.sectionChars]
  cases c.authTokenEnv <;>
    simp [optionalEntry, Toml.needsHeader, Toml.isSection, Toml.pairsChars, Toml.sectionsChars,
      sectionChars_string, sectionChars_bool, sectionChars_labels]

end PublishConfig

namespace AgentConfig

variable {c : AgentConfig}

/-- Printed settings are one text around the lines of their labels, whatever the order. -/
theorem exists_renderWith?_around (h : c.Bounded) :
    ∃ front back, ∀ labels, c.renderWith? labels =
      some (front ++ String.join (labels.map labelLine) ++ back) := by
  obtain ⟨front, hfront⟩ := c.publish.exists_sectionChars ["publish"]
  have hinsights := InsightsConfig.toToml?_eq_written h.intervalSecs h.commandTimeout
  generalize Json.written InsightsConfig.fieldNames c.insights.given = insights at hinsights
  -- Only the section of the publisher has labels in it, and the sections around it are fixed.
  refine ⟨String.ofList (Toml.pairsChars [("retry_count", .integer c.retryCount)] ++
      Toml.sectionsChars [] [("hana", c.hana.toToml), ("insights", .table insights)] ++ front),
    String.ofList (Toml.sectionChars ["output"] c.output.toToml), fun labels => ?_⟩
  have hjoin : String.join (labels.map labelLine) = String.ofList (labels.flatMap labelChars) := by
    rw [← String.toList_inj, String.toList_join, String.toList_ofList, List.flatMap_map]
    simp only [labelLine, String.toList_ofList]
  have hpairs : Toml.pairsChars [("retry_count", .integer c.retryCount), ("hana", c.hana.toToml),
      ("insights", .table insights), ("publish", c.publish.toToml labels),
      ("output", c.output.toToml)] = Toml.pairsChars [("retry_count", .integer c.retryCount)] := rfl
  have hretry : Toml.sectionChars ["retry_count"] (.integer c.retryCount) = [] := rfl
  rw [renderWith?, toToml?, hinsights, Option.bind_eq_bind, Option.bind_some, Option.map_some,
    Toml.print, hjoin, hpairs]
  simp [Toml.sectionsChars, hretry, hfront, String.append_assoc]

theorem renderWith?_eq_of_tokenless {c' : AgentConfig} (h : c'.tokenless = c.tokenless)
    (labels : List (String × String)) : c'.renderWith? labels = c.renderWith? labels :=
  show c'.tokenless.renderWith? labels = c.tokenless.renderWith? labels by rw [h]

end AgentConfig

namespace ConfigProvider

theorem ofText_eq_ok_iff {env : Environment} {text : String} {p : ConfigProvider} :
    ofText env text = .ok p ↔ ∃ c, AgentConfig.read? text = some c ∧ ofConfig env c = p := by
  rw [ofText]
  cases AgentConfig.read? text <;> simp

end ConfigProvider

namespace CommandLine

variable {s : Setting} {path text printed : String} {p : ConfigProvider}

theorem perform_printConfig (verbose : Bool) (words : Wording) {order : Arrangement}
    (hfile : s.host.files.readText path = .ok text)
    (h : ConfigProvider.ofText s.host.environment text = .ok p)
    (hprinted : p.config.render? order = some printed) :
    (perform s ⟨some path, verbose, .printConfig⟩ words order).value =
      succeeded s.host.files printed := by
  have hload : (loadConfig s (some path)).value = .ok p.config := by
    simp [loadConfig, ConfigProvider.load, hfile, h]
  rw [perform, Logged.value_bind, hload]
  simp only [Logged.value_pure, printConfig, hprinted]

theorem exists_printed_around {c : AgentConfig} (hread : AgentConfig.read? text = some c) :
    ∃ front back, ∀ (s : Setting) (path : String) (verbose : Bool) (words : Wording)
      (order : Arrangement) (text' : String) (p' : ConfigProvider),
      AgentConfig.SameButToken text text' → s.host.files.readText path = .ok text' →
      ConfigProvider.ofText s.host.environment text' = .ok p' →
      (perform s ⟨some path, verbose, .printConfig⟩ words order).value =
        succeeded s.host.files
          (front ++ String.join ((order.arrange c.publish.labels.entries).map labelLine) ++
            back) := by
  obtain ⟨front, back, haround⟩ :=
    AgentConfig.exists_renderWith?_around (AgentConfig.bounded_of_read? hread)
  refine ⟨front, back, fun s path verbose words order text' p' hsame hfile h => ?_⟩
  refine perform_printConfig verbose words hfile h ?_
  obtain ⟨c', hread', rfl⟩ := ConfigProvider.ofText_eq_ok_iff.1 h
  have htokenless := AgentConfig.tokenless_eq_of_sameButToken hsame hread hread'
  have hlabels : c'.publish.labels = c.publish.labels :=
    show c'.tokenless.publish.labels = c.tokenless.publish.labels by rw [htokenless]
  calc (c'.withToken s.host.environment).render? order
      = c'.renderWith? (order.arrange c'.publish.labels.entries) := rfl
    _ = c.renderWith? (order.arrange c.publish.labels.entries) := by
      rw [hlabels, AgentConfig.renderWith?_eq_of_tokenless htokenless]
    _ = _ := haround _

/-- Settings that were read can be printed, whatever the order of their labels, and the text is read
as the same settings with the token looked up anew. All that is open in the text is the order of the
lines of the labels: the environment and a token in the file have no say in it. -/
theorem printed_settings_read_back {env : Environment} {text : String} {p : ConfigProvider}
    (h : ConfigProvider.ofText env text = .ok p) :
    (∀ (s : Setting) (path : String) (verbose : Bool) (words : Wording) (order : Arrangement),
      s.host.environment = env → s.host.files.readText path = .ok text →
      ∃ printed, (perform s ⟨some path, verbose, .printConfig⟩ words order).value =
          succeeded s.host.files printed ∧
        ∀ env', ConfigProvider.ofText env' printed = .ok (.file { p.config with
          publish := { p.config.publish with
            authToken := (p.config.publish.authTokenEnv.bind env'.get?).filter
              fun token => !token.isEmpty } })) ∧
    (∀ env', ∃ p', ConfigProvider.ofText env' text = .ok p') ∧
    ∃ front back, ∀ (s : Setting) (path : String) (verbose : Bool) (words : Wording)
      (order : Arrangement) (text' : String) (p' : ConfigProvider),
      AgentConfig.SameButToken text text' → s.host.files.readText path = .ok text' →
      ConfigProvider.ofText s.host.environment text' = .ok p' →
      (perform s ⟨some path, verbose, .printConfig⟩ words order).value =
        succeeded s.host.files
          (front ++ String.join ((order.arrange p.config.publish.labels.entries).map labelLine) ++
            back) := by
  obtain ⟨c, hread, rfl⟩ := ConfigProvider.ofText_eq_ok_iff.1 h
  refine ⟨?_, fun env' => ⟨_, ConfigProvider.ofText_eq_ok_iff.2 ⟨c, hread, rfl⟩⟩,
    exists_printed_around (c := c) hread⟩
  rintro s path verbose words order rfl hfile
  obtain ⟨printed, hprinted, hagain⟩ :=
    AgentConfig.exists_renderWith? (AgentConfig.bounded_of_read? hread) (order.perm _)
  exact ⟨printed, perform_printConfig verbose words hfile h hprinted,
    fun env' => ConfigProvider.ofText_eq_ok_iff.2 ⟨_, hagain, rfl⟩⟩

def tokenDocument (token : String) : List (String × Toml) :=
  [("publish", .table [("auth_token", .string token), ("auth_token_env", .string "TOKEN"),
    ("labels", .table [("sid", .string "HXE"), ("zone", .string "b")])])]

def tokenText (token : String) : String := Toml.print (tokenDocument token)

theorem read?_tokenText (token : String) :
    Toml.read? (tokenText token) = some (.table (tokenDocument token)) := by
  have hlabels : Toml.Regular 1 (.table [("sid", .string "HXE"), ("zone", .string "b")]) :=
    .table (by simp) <| List.forall_mem_cons.2
      ⟨.leaf (.string _), List.forall_mem_singleton.2 (.leaf (.string _))⟩
  have hpublish : Toml.Regular 2 (.table [("auth_token", .string token),
      ("auth_token_env", .string "TOKEN"),
      ("labels", .table [("sid", .string "HXE"), ("zone", .string "b")])]) :=
    .table (by simp) <| List.forall_mem_cons.2 ⟨.leaf (.string _), List.forall_mem_cons.2
      ⟨.leaf (.string _), List.forall_mem_singleton.2 hlabels⟩⟩
  have hregular : Toml.Regular 3 (.table (tokenDocument token)) :=
    .table (List.nodup_singleton _) (List.forall_mem_singleton.2 hpublish)
  rw [tokenText, Toml.read?_print hregular (by decide)]
  rfl

def tokenConfig (token : String) : AgentConfig :=
  { publish := { authToken := some token, authTokenEnv := some "TOKEN",
                 labels := Keyed.ofList [("sid", "HXE"), ("zone", "b")] } }

theorem read?_tokenText_eq (token : String) :
    AgentConfig.read? (tokenText token) = some (tokenConfig token) := by
  rw [AgentConfig.read?, read?_tokenText]
  rfl

theorem ofText_tokenText (env : Environment) (token : String) :
    ConfigProvider.ofText env (tokenText token) = .ok (.file (tokenConfig token)) :=
  ConfigProvider.ofText_eq_ok_iff.2 ⟨tokenConfig token, read?_tokenText_eq token, rfl⟩

theorem sameButToken_tokenText (token token' : String) :
    AgentConfig.SameButToken (tokenText token) (tokenText token') := by
  rw [AgentConfig.SameButToken, read?_tokenText, read?_tokenText]
  rfl

def tokenSetting (token : String) (env : Environment) : Setting where
  host := ⟨({} : FileTree).put ["agent.toml"] (.file (Utf8.encode (tokenText token)) false), env⟩
  hostname := "host"
  now := 0
  send := fun _ => .error ""

theorem readText_tokenSetting (token : String) (env : Environment) :
    (tokenSetting token env).host.files.readText "agent.toml" = .ok (tokenText token) :=
  FileTree.readText_of_write (t := {}) rfl

def printTokenConfig : Invocation := ⟨some "agent.toml", false, .printConfig⟩

def backwards : Arrangement := ⟨List.reverse, List.reverse_perm⟩

theorem labelLines_eq :
    String.join ((tokenConfig "first").publish.labels.entries.map labelLine) =
      "sid = \"HXE\"\nzone = \"b\"\n" ∧
    String.join ((backwards.arrange (tokenConfig "first").publish.labels.entries).map labelLine) =
      "zone = \"b\"\nsid = \"HXE\"\n" := by
  decide +kernel

/-- Two labels can stand in either order. -/
theorem printed_settings_differ_in_order :
    ConfigProvider.ofText Keyed.empty (tokenText "first") = .ok (.file (tokenConfig "first")) ∧
    (perform (tokenSetting "first" Keyed.empty) printTokenConfig {} .byName).value.stdout ≠
      (perform (tokenSetting "first" Keyed.empty) printTokenConfig {} backwards).value.stdout := by
  have hread := ofText_tokenText Keyed.empty "first"
  obtain ⟨front, back, haround⟩ := exists_printed_around (read?_tokenText_eq "first")
  have hprinted := fun order => haround (tokenSetting "first" Keyed.empty) "agent.toml" false {}
    order _ _ (sameButToken_tokenText _ _) (readText_tokenSetting _ _) hread
  refine ⟨hread, fun hsame => ?_⟩
  rw [printTokenConfig, hprinted, hprinted] at hsame
  have hlines := (String.append_right_inj _).1 ((String.append_left_inj _).1 hsame)
  rw [labelLines_eq.2] at hlines
  exact absurd (labelLines_eq.1.symm.trans hlines) (by decide)

theorem printed_settings_read_back_of_token :
    ConfigProvider.ofText (Keyed.empty.insert "TOKEN" "fresh")
        (perform (tokenSetting "first" Keyed.empty) printTokenConfig {} backwards).value.stdout =
      .ok (.file (tokenConfig "fresh")) ∧
    ∃ front back,
      (perform (tokenSetting "first" Keyed.empty) printTokenConfig {} .byName).value.stdout =
        front ++ "sid = \"HXE\"\nzone = \"b\"\n" ++ back ∧
      (perform (tokenSetting "second" (Keyed.empty.insert "TOKEN" "fresh")) printTokenConfig {}
          backwards).value.stdout =
        front ++ "zone = \"b\"\nsid = \"HXE\"\n" ++ back := by
  obtain ⟨hprints, -, front, back, haround⟩ :=
    printed_settings_read_back (ofText_tokenText Keyed.empty "first")
  refine ⟨?_, front, back, ?_, ?_⟩
  · obtain ⟨printed, hprinted, hagain⟩ := hprints (tokenSetting "first" Keyed.empty) "agent.toml"
      false {} backwards rfl (readText_tokenSetting _ _)
    rw [printTokenConfig, hprinted]
    exact hagain _
  · rw [printTokenConfig, haround _ "agent.toml" false {} .byName _ _ (sameButToken_tokenText _ _)
      (readText_tokenSetting _ _) (ofText_tokenText _ _), ← labelLines_eq.1]
    rfl
  · rw [printTokenConfig, haround _ "agent.toml" false {} backwards _ _ (sameButToken_tokenText _ _)
      (readText_tokenSetting _ _) (ofText_tokenText _ _), ← labelLines_eq.2]
    rfl

end CommandLine
end HanaInsights
