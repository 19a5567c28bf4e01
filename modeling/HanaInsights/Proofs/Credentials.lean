import HanaInsights.Proofs.Masking
set_option autoImplicit false

namespace HanaInsights
namespace Client

open SystemCommand (Argument Call built)

inductive DatabaseArgs (c : Connection) : List String → Prop where
  | named {name : String} (h : c.database = some name) (hne : name ≠ "") :
    DatabaseArgs c ["-d", name]
  | unnamed (h : ∀ name, c.database = some name → name = "") : DatabaseArgs c []

inductive CredentialArgs (env : Environment) (c : Connection) : List String → Prop where
  | key {key : String} (h : c.userstoreKey = some key) (hne : key ≠ "") :
    CredentialArgs env c ["-U", key]
  | password {user name secret : String} (hkey : ∀ key, c.userstoreKey = some key → key = "")
    (huser : c.user = some user) (hne : user ≠ "") (hname : c.passwordEnv = some name)
    (hsecret : env.get? name = some secret) : CredentialArgs env c ["-u", user, "-p", secret]

theorem given_eq_some_iff {text : Option String} {t : String} :
    given text = some t ↔ text = some t ∧ t ≠ "" := by
  simp [given, Option.filter_eq_some_iff]

theorem given_eq_none_iff {text : Option String} :
    given text = none ↔ ∀ t, text = some t → t = "" := by
  simp [given, Option.filter_eq_none_iff]

theorem databaseArgs_named (c : Connection) : DatabaseArgs c (databaseArgs c) := by
  rw [databaseArgs]
  cases h : given c.database with
  | none => exact .unnamed (given_eq_none_iff.1 h)
  | some name => exact .named (given_eq_some_iff.1 h).1 (given_eq_some_iff.1 h).2

section
variable {env : Environment} {c : Connection}

/-- Credentials are complete, or what is wrong is the connection's fault. -/
theorem credentialCalls_cases (env : Environment) (c : Connection) :
    (∃ calls, credentialCalls env c = .ok calls ∧
        CredentialArgs env c ((calls.flatMap Call.arguments).map Argument.text)) ∨
      ∃ reason, credentialCalls env c = .error (.invalidConnection reason) := by
  rw [credentialCalls]
  cases hkey : given c.userstoreKey with
  | some key =>
    exact .inl ⟨_, rfl, .key (given_eq_some_iff.1 hkey).1 (given_eq_some_iff.1 hkey).2⟩
  | none =>
    cases huser : given c.user with
    | none => exact .inr ⟨_, rfl⟩
    | some user =>
      obtain ⟨huser, hne⟩ := given_eq_some_iff.1 huser
      cases hname : c.passwordEnv with
      | none => exact .inr ⟨_, by simp only [password, hname]; rfl⟩
      | some name =>
        cases hsecret : env.get? name with
        | none => exact .inr ⟨_, by simp only [password, hname, hsecret]; rfl⟩
        | some secret =>
          refine .inl ⟨_, by simp only [password, hname, hsecret]; rfl, ?_⟩
          exact .password (given_eq_none_iff.1 hkey) huser hne hname hsecret

theorem args_commandCalls (c : Connection) (timeout : Nat) (q : Query) (credentials : List Call) :
    (built c.clientPath (commandCalls c timeout q credentials)).args =
      ["-n", address c] ++ databaseArgs c ++
        (credentials.flatMap Call.arguments).map Argument.text ++ ["-j", "-a", "-x", q.sql] := by
  rw [(SystemCommand.holds_built _ _).args]
  simp [commandCalls, Call.arguments, Argument.text, Function.comp_def]

end

/-- What a query comes to once the client has been started; nothing is started any more. -/
def concluded (q : Query) (c : Connection) :
    Except CommandError CommandOutput → Logged (Except QueryError (List Row))
  | .error e => pure (.error (.command e))
  | .ok output =>
    match rowsOf c q output with
    | .error e => pure (.error e)
    | .ok rows => do
      Logged.write .debug ("Query " ++ q.name ++ " returned " ++ toString rows.length ++ " rows")
      pure (.ok rows)

section
variable {env : Environment} {c : Connection} {timeout : Nat} {q : Query}

theorem execute_of_blank (h : Text.isBlankText q.sql = true) (runner : Runner) :
    execute env c timeout runner q =
      pure (.error (.command (.invalidArguments ("query '" ++ q.name ++ "' has no SQL")))) := by
  rw [execute, if_pos h]

theorem execute_of_error (h : Text.isBlankText q.sql = false) {e : QueryError}
    (hcommand : command env c timeout q = .error e) (runner : Runner) :
    execute env c timeout runner q = pure (.error e) := by
  rw [execute, if_neg (by simp [h]), hcommand]

theorem execute_of_command (h : Text.isBlankText q.sql = false) {cmd : SystemCommand}
    (hcommand : command env c timeout q = .ok cmd) (runner : Runner) :
    execute env c timeout runner q = runner cmd >>= concluded q c := by
  rw [execute, if_neg (by simp [h]), hcommand]
  rfl

theorem value_missing (timeout : Nat) {available : String → Logged (Except CommandError Bool)}
    {found : Bool} (h : (available c.clientPath).value = .ok found) :
    (missing env c timeout available).value =
      .ok ((if found then [] else [c.clientPath]) ++ credentialProblems env c timeout) := by
  simp [missing, h]

theorem credentialProblems_of_ok {calls : List Call} (h : credentialCalls env c = .ok calls) :
    credentialProblems env c timeout = [] := by
  simp [credentialProblems, command_eq, h, Except.map]

theorem credentialProblems_of_error {reason : String}
    (h : credentialCalls env c = .error (.invalidConnection reason)) :
    credentialProblems env c timeout = ["HANA credentials (" ++ reason ++ ")"] := by
  simp [credentialProblems, command_eq, h, Except.map]

theorem command_of_credentials {calls : List Call} (h : credentialCalls env c = .ok calls)
    (timeout : Nat) (q : Query) : command env c timeout q =
      .ok (built c.clientPath (commandCalls c timeout q calls)) := by
  rw [command_eq, h]
  rfl

theorem not_fails_of_credentials {calls : List Call} (h : credentialCalls env c = .ok calls)
    (hsql : Text.isBlankText q.sql = false) (timeout : Nat) (reason : String) :
    ¬ ∀ runner, execute env c timeout runner q = pure (.error (.invalidConnection reason)) := by
  intro hfails
  have hnever := hfails fun _ => pure (.error (.executionFailed ""))
  rw [execute_of_command hsql (command_of_credentials h timeout q)] at hnever
  cases congrArg Logged.value hnever

theorem credential_problem_inj {reason reason' : String}
    (h : "HANA credentials (" ++ reason ++ ")" = "HANA credentials (" ++ reason' ++ ")") :
    reason = reason' := by
  simpa [← String.toList_inj] using h

end

/-- What is listed behind the client, if that is missing, is what is wrong with the credentials: at
most one reason, which is why every query with a text fails before a client is started. If there is
none, every such query starts one client and does nothing with it but wait for its answer. -/
theorem missing_credentials_predict_execution (env : Environment) (c : Connection) (timeout : Nat)
    (available : String → Logged (Except CommandError Bool)) {found : Bool}
    (h : (available c.clientPath).value = .ok found) :
    (∃ problems, (missing env c timeout available).value =
        .ok ((if found then [] else [c.clientPath]) ++ problems) ∧
      (problems = [] ∨ ∃ reason, problems = ["HANA credentials (" ++ reason ++ ")"]) ∧
      (∀ reason, "HANA credentials (" ++ reason ++ ")" ∈ problems ↔
        ∀ q : Query, Text.isBlankText q.sql = false → ∀ runner,
          execute env c timeout runner q = pure (.error (.invalidConnection reason))) ∧
      (problems = [] → ∀ q : Query, Text.isBlankText q.sql = false →
        ∃ cmd database credentials, (∀ runner, execute env c timeout runner q =
            runner cmd >>= concluded q c) ∧
          cmd.program = c.clientPath ∧ DatabaseArgs c database ∧
          CredentialArgs env c credentials ∧
          cmd.args = ["-n", c.host ++ ":" ++ toString c.port] ++ database ++ credentials ++
            ["-j", "-a", "-x", q.sql])) ∧
    ∀ q : Query, Text.isBlankText q.sql = true → ∀ runner, execute env c timeout runner q =
      pure (.error (.command (.invalidArguments ("query '" ++ q.name ++ "' has no SQL")))) := by
  refine ⟨⟨credentialProblems env c timeout, value_missing timeout h, ?_⟩,
    fun q hsql => execute_of_blank hsql⟩
  obtain ⟨query, hsome⟩ : ∃ q : Query, Text.isBlankText q.sql = false :=
    ⟨⟨"", "SELECT 1", []⟩, rfl⟩
  rcases credentialCalls_cases env c with ⟨calls, hcalls, hcredentials⟩ | ⟨reason, hreason⟩
  · rw [credentialProblems_of_ok hcalls]
    refine ⟨.inl rfl, fun reason => iff_of_false List.not_mem_nil fun hfails => ?_,
      fun _ q hsql => ?_⟩
    · exact not_fails_of_credentials hcalls hsome timeout reason (hfails _ hsome)
    · refine ⟨_, _, _, execute_of_command hsql (command_of_credentials hcalls timeout q), ?_,
        databaseArgs_named c, hcredentials, args_commandCalls c timeout q calls⟩
      exact SystemCommand.program_built _ _
  · have hfails : ∀ q : Query, Text.isBlankText q.sql = false → ∀ runner,
        execute env c timeout runner q = pure (.error (.invalidConnection reason)) :=
      fun q hsql => execute_of_error hsql (by rw [command_eq, hreason]; rfl)
    rw [credentialProblems_of_error hreason]
    refine ⟨.inr ⟨reason, rfl⟩, fun reason' => ?_, fun hnone => absurd hnone (by simp)⟩
    rw [List.mem_singleton]
    constructor
    · intro heq
      rw [credential_problem_inj heq]
      exact hfails
    · intro hfails'
      have hboth := (hfails query hsome fun _ => pure (.error (.executionFailed ""))).symm.trans
        (hfails' query hsome _)
      cases congrArg Logged.value hboth
      rfl

def unsetPassword : String := "environment variable DB_PASSWORD is not set"

/-- Neither the client nor the password is there; then there is a password. -/
theorem missing_credentials_of_unset_password :
    let nowhere : String → Logged (Except CommandError Bool) := fun _ => pure (.ok false)
    (nowhere monitored.clientPath).value = .ok false ∧
    (missing Keyed.empty monitored 5 nowhere).value =
      .ok ["hdbsql", "HANA credentials (" ++ unsetPassword ++ ")"] ∧
    (∀ q : Query, Text.isBlankText q.sql = false → ∀ runner,
      execute Keyed.empty monitored 5 runner q =
        pure (.error (.invalidConnection unsetPassword))) ∧
    (missing (Keyed.empty.insert "DB_PASSWORD" "") monitored 5 nowhere).value = .ok ["hdbsql"] ∧
    ∀ q : Query, Text.isBlankText q.sql = false → ∃ cmd,
      (∀ runner, execute (Keyed.empty.insert "DB_PASSWORD" "") monitored 5 runner q =
        runner cmd >>= concluded q monitored) ∧
      cmd.args.getLast? = some q.sql := by
  intro nowhere
  have hunset : (missing Keyed.empty monitored 5 nowhere).value =
      .ok ["hdbsql", "HANA credentials (" ++ unsetPassword ++ ")"] := rfl
  have hset : (missing (Keyed.empty.insert "DB_PASSWORD" "") monitored 5 nowhere).value =
      .ok ["hdbsql"] := rfl
  obtain ⟨⟨problems, hproblems, -, hiff, -⟩, -⟩ :=
    missing_credentials_predict_execution Keyed.empty monitored 5 nowhere rfl
  obtain ⟨⟨problems', hproblems', -, -, hnone⟩, -⟩ :=
    missing_credentials_predict_execution (Keyed.empty.insert "DB_PASSWORD" "") monitored 5 nowhere
      rfl
  have hlisted := Except.ok.inj (hproblems.symm.trans hunset)
  have hlisted' := Except.ok.inj (hproblems'.symm.trans hset)
  refine ⟨rfl, hunset, (hiff unsetPassword).1 ?_, hset, fun q hsql => ?_⟩
  · rw [List.append_cancel_left hlisted]
    exact List.mem_singleton_self _
  · obtain ⟨cmd, _, _, hexecute, -, -, -, hargs⟩ := hnone (List.append_cancel_left hlisted') q hsql
    exact ⟨cmd, hexecute, by rw [hargs, List.getLast?_append]; rfl⟩

end Client
end HanaInsights
