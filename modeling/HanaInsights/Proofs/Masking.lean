import Mathlib.Data.List.Forall2
import HanaInsights.Client.Basic
import HanaInsights.Proofs.Keyed
set_option autoImplicit false

/-!
Commands as they are shown. Secrets are remembered by their places, and arguments are only added at
the end, so the places keep pointing at the secrets and what is shown depends on none of them.
-/

namespace HanaInsights

namespace SystemCommand

/-- A step of putting a command together. -/
inductive Call where
  | args (texts : List String)
  | secret (text : String)
  | timeout (milliseconds : Nat)

def call (c : SystemCommand) : Call → SystemCommand
  | .args texts => c.withArgs texts
  | .secret text => c.withSecret text
  | .timeout milliseconds => c.withTimeout milliseconds

def built (program : String) (calls : List Call) : SystemCommand := calls.foldl call { program }

inductive Argument where
  | plain (text : String)
  | secret (text : String)

def Argument.text : Argument → String
  | .plain text => text
  | .secret text => text

def Argument.shown : Argument → String
  | .plain text => text
  | .secret _ => mask

def Call.arguments : Call → List Argument
  | .args texts => texts.map .plain
  | .secret text => [.secret text]
  | .timeout _ => []

/-- The same step, but for the secret in it. -/
inductive Call.Alike : Call → Call → Prop where
  | args (texts : List String) : Alike (.args texts) (.args texts)
  | secret (text text' : String) : Alike (.secret text) (.secret text')
  | timeout (milliseconds : Nat) : Alike (.timeout milliseconds) (.timeout milliseconds)

theorem Call.Alike.refl (k : Call) : k.Alike k := by cases k <;> constructor

/-- The command has these arguments, and the places it remembers are those of the secrets. -/
structure Holds (c : SystemCommand) (arguments : List Argument) : Prop where
  args : c.args = arguments.map Argument.text
  secrets : ∀ i, i ∈ c.secrets ↔ ∃ text, arguments[i]? = some (.secret text)

theorem Holds.call {c : SystemCommand} {arguments : List Argument} (h : c.Holds arguments)
    (k : Call) : (c.call k).Holds (arguments ++ k.arguments) := by
  have hlength : c.args.length = arguments.length := by rw [h.args, List.length_map]
  cases k with
  | args texts =>
    have htexts : (texts.map Argument.plain).map Argument.text = texts := by
      simp [Function.comp_def, Argument.text]
    refine ⟨by simp only [SystemCommand.call, withArgs, Call.arguments, List.map_append, h.args,
      htexts], fun i => ?_⟩
    rw [SystemCommand.call, withArgs, Call.arguments, h.secrets i]
    -- Places in front of the new arguments keep what they point at.
    by_cases hi : i < arguments.length
    · rw [List.getElem?_append_left hi]
    · have hnone : arguments[i]? = none := List.getElem?_eq_none (by omega)
      rw [hnone, List.getElem?_append_right (by omega), List.getElem?_map]
      cases texts[i - arguments.length]? <;> simp
  | secret text =>
    refine ⟨by simp [SystemCommand.call, withSecret, Call.arguments, Argument.text, h.args],
      fun i => ?_⟩
    rw [SystemCommand.call, withSecret, Call.arguments, List.mem_append, List.mem_singleton,
      h.secrets i, hlength]
    by_cases hi : i < arguments.length
    · have hne : i ≠ arguments.length := by omega
      rw [List.getElem?_append_left hi]
      simp [hne]
    · have hnone : arguments[i]? = none := List.getElem?_eq_none (by omega)
      rw [hnone, List.getElem?_append_right (by omega)]
      by_cases he : i = arguments.length
      · simp [he]
      · have hbeyond : i - arguments.length ≠ 0 := by omega
        simp [he, hbeyond]
  | timeout milliseconds =>
    rw [Call.arguments, List.append_nil]
    exact ⟨h.args, h.secrets⟩

theorem Holds.foldl_call {c : SystemCommand} {arguments : List Argument} (h : c.Holds arguments)
    (calls : List Call) :
    (calls.foldl SystemCommand.call c).Holds (arguments ++ calls.flatMap Call.arguments) := by
  induction calls generalizing c arguments with
  | nil => simpa using h
  | cons k calls ih =>
    have hrest := ih (h.call k)
    rwa [List.append_assoc] at hrest

theorem holds_built (program : String) (calls : List Call) :
    (built program calls).Holds (calls.flatMap Call.arguments) := by
  have hempty : Holds { program } [] := ⟨rfl, by simp⟩
  exact hempty.foldl_call calls

theorem program_call (c : SystemCommand) (k : Call) : (c.call k).program = c.program := by
  cases k <;> rfl

theorem program_built (program : String) (calls : List Call) :
    (built program calls).program = program := by
  suffices h : ∀ c : SystemCommand, (calls.foldl call c).program = c.program from h _
  induction calls with
  | nil => exact fun _ => rfl
  | cons k calls ih => exact fun c => (ih (c.call k)).trans (program_call c k)

def commandLine (program : String) (arguments : List String) : String :=
  if arguments.isEmpty then program else program ++ " " ++ " ".intercalate arguments

theorem shownArgs_eq {secrets : List Nat} {place : Nat} {arguments : List Argument}
    (h : ∀ i, place + i ∈ secrets ↔ ∃ text, arguments[i]? = some (.secret text)) :
    shownArgs secrets place (arguments.map Argument.text) = arguments.map Argument.shown := by
  induction arguments generalizing place with
  | nil => rfl
  | cons a rest ih =>
    have hfirst := h 0
    have hrest : ∀ i, place + 1 + i ∈ secrets ↔ ∃ text, rest[i]? = some (.secret text) := by
      intro i
      have hnext := h (i + 1)
      rwa [← Nat.add_assoc, Nat.add_right_comm, List.getElem?_cons_succ] at hnext
    rw [List.map_cons, List.map_cons, shownArgs, ih hrest]
    congr 1
    cases a with
    | plain text =>
      have hplain : ¬ secrets.contains place := by simpa using hfirst
      rw [if_neg hplain]
      rfl
    | secret text =>
      have hsecret : secrets.contains place := by simpa using hfirst
      rw [if_pos hsecret]
      rfl

theorem Holds.display {c : SystemCommand} {arguments : List Argument} (h : c.Holds arguments) :
    c.display = commandLine c.program (arguments.map Argument.shown) := by
  have hshown : shownArgs c.secrets 0 c.args = arguments.map Argument.shown := by
    rw [h.args]
    exact shownArgs_eq fun i => by rw [Nat.zero_add]; exact h.secrets i
  have hempty : c.args.isEmpty = (arguments.map Argument.shown).isEmpty := by
    rw [h.args]
    cases arguments <;> rfl
  rw [SystemCommand.display, commandLine, hshown, hempty]

theorem display_built (program : String) (calls : List Call) :
    (built program calls).display =
      commandLine program ((calls.flatMap Call.arguments).map Argument.shown) := by
  rw [(holds_built program calls).display, program_built]

theorem Call.Alike.shown_arguments {k k' : Call} (h : k.Alike k') :
    k.arguments.map Argument.shown = k'.arguments.map Argument.shown := by
  cases h <;> rfl

theorem display_built_of_alike (program : String) {calls calls' : List Call}
    (h : List.Forall₂ Call.Alike calls calls') :
    (built program calls).display = (built program calls').display := by
  rw [display_built, display_built]
  congr 1
  induction h with
  | nil => rfl
  | cons hk _ ih =>
    rw [List.flatMap_cons, List.flatMap_cons, List.map_append, List.map_append,
      hk.shown_arguments, ih]

end SystemCommand

namespace Client

open SystemCommand (Argument Call built)

def setPassword (env : Environment) (c : Connection) (secret : String) : Environment :=
  match c.passwordEnv with
  | some name => env.insert name secret
  | none => env

def databaseArgs (c : Connection) : List String :=
  match given c.database with
  | some database => ["-d", database]
  | none => []

def credentialCalls (env : Environment) (c : Connection) : Except QueryError (List Call) :=
  match given c.userstoreKey, given c.user with
  | some key, _ => .ok [.args ["-U", key]]
  | none, some user =>
    match password env c with
    | .ok secret => .ok [.args ["-u", user, "-p"], .secret secret]
    | .error e => .error e
  | none, none => .error (.invalidConnection noCredentials)

def commandCalls (c : Connection) (timeout : Nat) (q : Query) (credentials : List Call) :
    List Call :=
  [.args ["-n", address c], .timeout timeout, .args (databaseArgs c)] ++ credentials ++
    [.args ["-j", "-a", "-x", q.sql]]

theorem built_append (program : String) (xs ys : List Call) :
    built program (xs ++ ys) = ys.foldl SystemCommand.call (built program xs) :=
  List.foldl_append

theorem withDatabase_eq (c : Connection) (cmd : SystemCommand) :
    withDatabase c cmd = cmd.withArgs (databaseArgs c) := by
  unfold withDatabase databaseArgs
  cases given c.database with
  | none => simp [SystemCommand.withArgs]
  | some database => rfl

theorem withCredentials_eq (env : Environment) (c : Connection) (cmd : SystemCommand) :
    withCredentials env c cmd =
      (credentialCalls env c).map fun calls => calls.foldl SystemCommand.call cmd := by
  unfold withCredentials credentialCalls
  cases given c.userstoreKey with
  | some key => rfl
  | none =>
    cases given c.user with
    | none => rfl
    | some user => cases password env c <;> rfl

theorem command_eq (env : Environment) (c : Connection) (timeout : Nat) (q : Query) :
    command env c timeout q = (credentialCalls env c).map fun credentials =>
      built c.clientPath (commandCalls c timeout q credentials) := by
  have hstart :
      (({ program := c.clientPath, args := ["-n", address c] } : SystemCommand).withTimeout
        timeout).withArgs (databaseArgs c) = built c.clientPath
          [.args ["-n", address c], .timeout timeout, .args (databaseArgs c)] := rfl
  simp only [command, withDatabase_eq, withCredentials_eq, hstart, ← built_append]
  cases credentialCalls env c with
  | error e => rfl
  | ok credentials =>
    simp only [Except.map, commandCalls, built_append _ _ [Call.args ["-j", "-a", "-x", q.sql]]]
    rfl

theorem password_setPassword {c : Connection} {name : String} (h : c.passwordEnv = some name)
    (env : Environment) (secret : String) : password (setPassword env c secret) c = .ok secret := by
  simp [password, setPassword, h, Keyed.insert, Keyed.get?_update]

theorem credentialCalls_setPassword (env : Environment) (c : Connection) (secret secret' : String) :
    credentialCalls (setPassword env c secret) c = credentialCalls (setPassword env c secret') c ∨
    ∃ user, given c.userstoreKey = none ∧ given c.user = some user ∧ ∀ secret,
      credentialCalls (setPassword env c secret) c =
        .ok [.args ["-u", user, "-p"], .secret secret] := by
  cases hname : c.passwordEnv with
  | none => exact .inl (by simp [setPassword, hname])
  | some name =>
    have hpassword := password_setPassword hname env
    unfold credentialCalls
    cases given c.userstoreKey with
    | some key => exact .inl rfl
    | none =>
      cases given c.user with
      | none => exact .inl rfl
      | some user => exact .inr ⟨user, rfl, rfl, fun secret => by rw [hpassword secret]⟩

theorem display_command_setPassword (env : Environment) (c : Connection) (timeout : Nat) (q : Query)
    (secret secret' : String) :
    (command (setPassword env c secret) c timeout q).map SystemCommand.display =
      (command (setPassword env c secret') c timeout q).map SystemCommand.display := by
  rw [command_eq, command_eq]
  rcases credentialCalls_setPassword env c secret secret' with h | ⟨user, -, -, h⟩
  · rw [h]
  · rw [h secret, h secret']
    refine congrArg Except.ok (SystemCommand.display_built_of_alike c.clientPath ?_)
    have hsame : ∀ calls : List Call, List.Forall₂ Call.Alike calls calls := fun calls =>
      List.forall₂_same.2 fun k _ => .refl k
    exact List.rel_append (List.rel_append (hsame _) (.cons (.args _) (.cons (.secret _ _) .nil)))
      (hsame _)

theorem secret_place_iff (before after : List String) (secret : String) (i : Nat) :
    (∃ text, (before.map Argument.plain ++ .secret secret :: after.map Argument.plain)[i]? =
      some (.secret text)) ↔ i = before.length := by
  have hplain : ∀ (texts : List String) (j : Nat),
      ¬ ∃ text, (texts.map Argument.plain)[j]? = some (.secret text) := by
    intro texts j
    rw [List.getElem?_map]
    cases texts[j]? <;> simp
  rw [List.getElem?_append, List.length_map]
  by_cases hi : i < before.length
  · have hne : i ≠ before.length := by omega
    rw [if_pos hi]
    exact iff_of_false (hplain before i) hne
  · rw [if_neg hi]
    cases hj : i - before.length with
    | zero =>
      have he : i = before.length := by omega
      simp [he]
    | succ j =>
      have hne : i ≠ before.length := by omega
      rw [List.getElem?_cons_succ]
      exact iff_of_false (hplain after j) hne

/-- Where a password is passed, it stands behind its option and its place is remembered. -/
theorem args_command_setPassword (env : Environment) {c : Connection} {name user : String}
    (hname : c.passwordEnv = some name) (hkey : given c.userstoreKey = none)
    (huser : given c.user = some user) (timeout : Nat) (q : Query) :
    ∃ before after : List String, ∀ secret, ∃ cmd,
      command (setPassword env c secret) c timeout q = .ok cmd ∧
      cmd.args = before ++ "-p" :: secret :: after ∧
      ∀ i, i ∈ cmd.secrets ↔ i = before.length + 1 := by
  let before : List String := ["-n", address c] ++ databaseArgs c ++ ["-u", user]
  let after : List String := ["-j", "-a", "-x", q.sql]
  refine ⟨before, after, fun secret => ?_⟩
  let credentials : List Call := [.args ["-u", user, "-p"], .secret secret]
  have hcredentials : credentialCalls (setPassword env c secret) c = .ok credentials := by
    simp only [credentialCalls, hkey, huser, password_setPassword hname env secret, credentials]
  have harguments : (commandCalls c timeout q credentials).flatMap Call.arguments =
      (before ++ ["-p"]).map Argument.plain ++ .secret secret :: after.map Argument.plain := by
    simp [commandCalls, Call.arguments, credentials, before, after]
  have hholds := SystemCommand.holds_built c.clientPath (commandCalls c timeout q credentials)
  rw [harguments] at hholds
  refine ⟨_, by rw [command_eq, hcredentials]; rfl, ?_, fun i => ?_⟩
  · rw [hholds.args]
    simp [Argument.text, Function.comp_def]
  · rw [hholds.secrets, secret_place_iff, List.length_append, List.length_singleton]

/-- What is shown of a command has a mask for each secret and every other argument as it is. So all
passwords of a connection are shown alike, and the one that is passed is the password. -/
theorem commands_are_shown_without_secrets :
    (∀ program calls, let arguments := calls.flatMap Call.arguments
      (built program calls).args = arguments.map Argument.text ∧
      (∀ i, i ∈ (built program calls).secrets ↔ ∃ text, arguments[i]? = some (.secret text)) ∧
      (built program calls).display =
        SystemCommand.commandLine program (arguments.map Argument.shown)) ∧
    (∀ program calls calls', List.Forall₂ Call.Alike calls calls' →
      (built program calls).display = (built program calls').display) ∧
    ∀ env c timeout q,
      (∀ secret secret',
        (command (setPassword env c secret) c timeout q).map SystemCommand.display =
          (command (setPassword env c secret') c timeout q).map SystemCommand.display) ∧
      ∀ name user, c.passwordEnv = some name → given c.userstoreKey = none →
        given c.user = some user → ∃ before after : List String, ∀ secret, ∃ cmd,
          command (setPassword env c secret) c timeout q = .ok cmd ∧
          cmd.args = before ++ "-p" :: secret :: after ∧
          ∀ i, i ∈ cmd.secrets ↔ i = before.length + 1 := by
  refine ⟨fun program calls => ?_, fun program _ _ => SystemCommand.display_built_of_alike program,
    fun env c timeout q => ⟨display_command_setPassword env c timeout q,
      fun _ _ hname hkey huser => args_command_setPassword env hname hkey huser timeout q⟩⟩
  have hholds := SystemCommand.holds_built program calls
  exact ⟨hholds.args, hholds.secrets, SystemCommand.display_built program calls⟩

def monitored : Connection :=
  { host := "db", user := some "MONITOR", passwordEnv := some "DB_PASSWORD" }

/-- One secret is also the name of the user, the other one is empty. -/
theorem commands_of_repeated_and_empty_secret :
    let calls := fun secret => [Call.args ["-u", "MONITOR", "-p"], .secret secret, .timeout 5,
      .args [], .args ["-x", "SELECT 1"]]
    (built "hdbsql" (calls "MONITOR")).display =
        "hdbsql -u MONITOR -p ******** -x SELECT 1" ∧
      (built "hdbsql" (calls "")).display = (built "hdbsql" (calls "MONITOR")).display ∧
      ∃ before after, ∀ secret, ∃ cmd,
        command (setPassword Keyed.empty monitored secret) monitored 5 ⟨"hosts", "SELECT 1", []⟩ =
          .ok cmd ∧
        cmd.args = before ++ "-p" :: secret :: after ∧
        ∀ i, i ∈ cmd.secrets ↔ i = before.length + 1 := by
  intro calls
  have halike : List.Forall₂ Call.Alike (calls "") (calls "MONITOR") :=
    .cons (.refl _) (.cons (.secret _ _) (.cons (.refl _) (.cons (.refl _) (.cons (.refl _) .nil))))
  obtain ⟨-, halikes, hcommands⟩ := commands_are_shown_without_secrets
  exact ⟨rfl, halikes _ _ _ halike, (hcommands _ _ _ _).2 _ _ rfl rfl rfl⟩

end Client

end HanaInsights
