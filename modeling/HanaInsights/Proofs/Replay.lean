import HanaInsights.Client.Basic
import HanaInsights.Proofs.Dependence
import HanaInsights.Proofs.Layout
import HanaInsights.Proofs.Printed
import HanaInsights.Proofs.Record
import HanaInsights.Proofs.Reordering
import HanaInsights.Query.Recording
set_option autoImplicit false

/-!
A cycle over recorded results against one through the database client. Both see the same rows of
each query, or no rows, so the two knowledge bases are the same and so is all that is found out.
-/

namespace HanaInsights

namespace Client

/-- What a client process came to that was to answer with these rows, all text quoted, or to
fail. -/
inductive Answered : Option (List Row) → Except CommandError CommandOutput → Prop
  | printed {table : List Row} (h : ∀ row ∈ table, row ≠ []) {output : CommandOutput}
    (success : output.success = true)
    (stdout : output.stdout = (ClientOutput.Printed.quoting table h).text) :
    Answered (some table) (.ok output)
  | exited {output : CommandOutput} (failure : output.success = false) : Answered none (.ok output)
  | notRun (e : CommandError) : Answered none (.error e)

/-- A process may answer the same command differently each time, so each query has its own. -/
def executeEach (env : Environment) (c : Connection) (timeout : Nat) (runner : Query → Runner) :
    Executor :=
  fun q => execute env c timeout (runner q) q

section
variable {env : Environment} {c : Connection} {timeout : Nat} {runner : Query → Runner} {q : Query}
  {cmd : SystemCommand} (hsql : Text.isBlankText q.sql = false)
  (hcommand : command env c timeout q = .ok cmd)
include hsql hcommand

theorem value_executeEach : (executeEach env c timeout runner q).value =
    match (runner q cmd).value with
    | .error e => .error (.command e)
    | .ok output => rowsOf c q output := by
  simp only [executeEach, execute, hsql, hcommand, Bool.false_eq_true, if_false]
  cases hresult : (runner q cmd).value with
  | error e => simp [hresult]
  | ok output => cases hrows : rowsOf c q output <;> simp [hresult, hrows]

theorem value_executeEach_of_rows {table : List Row}
    (h : Answered (some table) (runner q cmd).value) :
    (executeEach env c timeout runner q).value = .ok table := by
  rw [value_executeEach hsql hcommand]
  generalize (runner q cmd).value = result at h
  cases h with
  | printed hrows success stdout =>
    simp only [rowsOf, success, if_true, stdout, ClientOutput.rows_printed,
      ClientOutput.Printed.rows_quoting]

theorem value_executeEach_of_failure (h : Answered none (runner q cmd).value) :
    ∃ e, (executeEach env c timeout runner q).value = .error e := by
  rw [value_executeEach hsql hcommand]
  generalize (runner q cmd).value = result at h
  cases h with
  | exited failure =>
    simp only [rowsOf, failure, Bool.false_eq_true, if_false]
    exact ⟨_, rfl⟩
  | notRun e => exact ⟨_, rfl⟩

end
end Client

namespace Recording

def cellJson : Option String → Json
  | none => .null
  | some text => .string text

def rowsJson (table : List Row) : Json := .array (table.map fun row => .array (row.map cellJson))

def toJson (results : List (String × List Row)) : Json :=
  .object (results.map fun r => (r.1, rowsJson r.2))

theorem mapM_map_of_ok {α β ε : Type} {write : β → α} {read : α → Except ε β}
    (h : ∀ x, read (write x) = .ok x) (xs : List β) : (xs.map write).mapM read = .ok xs := by
  induction xs with
  | nil => rfl
  | cons x xs ih => rw [List.map_cons, List.mapM_cons, h, ih]; rfl

theorem rows_map_cellJson (query : String) (table : List Row) :
    rows query (table.map (·.map cellJson)) = .ok table := by
  have hcell : ∀ cell' : Option String, cell query (cellJson cell') = .ok cell' := by
    rintro (_ | text) <;> rfl
  exact mapM_map_of_ok (fun row => mapM_map_of_ok hcell row) table

theorem pairsOf?_toJson (results : List (String × List Row)) :
    Json.pairsOf? (Json.listOf? (Json.listOf? some)) (toJson results) =
      some (results.map fun r => (r.1, r.2.map (·.map cellJson))) := by
  have hlist : ∀ items : List Json, Json.listOf? some (.array items) = some items := fun items =>
    Json.listOf?_eq_some_iff.2 ⟨items, rfl, List.forall₂_same.2 fun _ _ => rfl⟩
  have hrows : ∀ r ∈ results.map fun r => (r.1, r.2.map (·.map cellJson)),
      Json.listOf? (Json.listOf? some) (.array (r.2.map .array)) = some r.2 :=
    fun r _ => Json.listOf?_map fun items _ => hlist items
  have hpairs := Json.pairsOf?_map (fun table : List (List Json) => .array (table.map .array)) hrows
  rw [← hpairs]
  simp [toJson, rowsJson, Function.comp_def]

/-- Names may repeat; then the last result of a name is the one that is replayed. -/
theorem ofJson_toJson (results : List (String × List Row)) :
    ofJson (toJson results) = .ok (Keyed.ofList results) := by
  have hrows : ∀ e : String × List Row,
      (do return (e.1, ← rows e.1 (e.2.map (·.map cellJson))) : Except RecordingFault _) =
        .ok e := by
    rintro ⟨query, table⟩
    simp only [rows_map_cellJson]
    rfl
  rw [ofJson, pairsOf?_toJson]
  simp only [Keyed.entries_ofList_map]
  have hentries : ((Keyed.ofList results).entries.map fun e => (e.1, e.2.map (·.map cellJson))).mapM
      (fun e => do return (e.1, ← rows e.1 e.2)) = .ok (Keyed.ofList results).entries :=
    mapM_map_of_ok hrows _
  rw [hentries]
  exact congrArg Except.ok (Keyed.ofList_entries _)

theorem read?_toJson (results : List (String × List Row)) :
    Json.read? (toJson results).compact = some (toJson results) ∧
      Json.read? (toJson results).pretty = some (toJson results) := by
  have hcell : ∀ cell depth, Json.Held depth (cellJson cell) := by
    rintro (_ | text) depth
    · exact .null
    · exact .string text
  have hheld : Json.Held Json.depthLimit (toJson results) := by
    refine .object fun m hm => ?_
    obtain ⟨r, -, rfl⟩ := List.mem_map.1 hm
    refine .array fun items hitems => ?_
    obtain ⟨row, -, rfl⟩ := List.mem_map.1 hitems
    refine .array fun v hv => ?_
    obtain ⟨cell, -, rfl⟩ := List.mem_map.1 hv
    exact hcell cell _
  exact ⟨Json.read?_compact hheld, Json.read?_pretty hheld⟩

def resultsOf (answers : Query → Option (List Row)) (queries : List Query) :
    List (String × List Row) :=
  queries.filterMap fun q => (answers q).map fun table => (q.name, table)

section
variable {answers : Query → Option (List Row)} {queries : List Query}

theorem mem_resultsOf {name : String} {table : List Row} :
    (name, table) ∈ resultsOf answers queries ↔
      ∃ q ∈ queries, q.name = name ∧ answers q = some table := by
  simp only [resultsOf, List.mem_filterMap, Option.map_eq_some_iff, Prod.mk.injEq]
  constructor
  · rintro ⟨q, hq, table', hanswer, hname, rfl⟩
    exact ⟨q, hq, hname, hanswer⟩
  · rintro ⟨q, hq, hname, hanswer⟩
    exact ⟨q, hq, table, hanswer, hname, rfl⟩

theorem names_resultsOf_sublist (answers : Query → Option (List Row)) (queries : List Query) :
    ((resultsOf answers queries).map (·.1)).Sublist (queries.map (·.name)) := by
  induction queries with
  | nil => exact .slnil
  | cons q rest ih =>
    cases hanswer : answers q with
    | none => simpa [resultsOf, hanswer] using ih.cons q.name
    | some table => simpa [resultsOf, hanswer] using ih.cons_cons q.name

variable (hnames : (queries.map (·.name)).Nodup)
include hnames

theorem get?_resultsOf {q : Query} (hq : q ∈ queries) :
    (Keyed.ofList (resultsOf answers queries)).get? q.name = answers q := by
  apply Option.ext
  intro table
  rw [Keyed.get?_ofList (hnames.sublist (names_resultsOf_sublist answers queries)), mem_resultsOf]
  constructor
  · rintro ⟨p, hp, hname, hanswer⟩
    rwa [List.inj_on_of_nodup_map hnames hp hq hname] at hanswer
  · exact fun hanswer => ⟨q, hq, rfl, hanswer⟩

end
end Recording

namespace Cycle

theorem contribution_congr (q : Query) (key : String) {x y : Except QueryError (List Row)}
    (h : x.toOption = y.toOption) : q.contribution key x = q.contribution key y := by
  cases x <;> cases y <;> simp_all [Except.toOption, Query.contribution]

def executed (strict : Bool) (rules : List Rule) : List Query :=
  distinctQueries [] ((select strict rules).value.flatMap (·.queries))

theorem value_run_congr {execute execute' : Executor} {strict : Bool} {rules : List Rule}
    (h : ∀ q ∈ executed strict rules,
      (execute q).value.toOption = (execute' q).value.toOption) :
    (run execute strict rules).value = (run execute' strict rules).value := by
  have hheld : held execute (executed strict rules) = held execute' (executed strict rules) := by
    funext key
    refine List.flatMap_congr fun q hq => contribution_congr q key (h q hq)
  have hknowledge : knowledge execute strict rules = knowledge execute' strict rules := by
    apply Keyed.ext_get?
    intro key
    rw [knowledge, knowledge, get?_collect, get?_collect]
    exact congrArg (KnowledgeBase.grown none) (congrFun hheld key)
  rw [value_run, value_run, hknowledge]

theorem executed_subset (strict : Bool) (rules : List Rule) :
    executed strict rules ⊆ rules.flatMap (·.queries) := by
  have hselected : ((select strict rules).value.flatMap (·.queries)).Sublist
      (rules.flatMap (·.queries)) := by
    cases strict with
    | false => rw [value_select_lenient]
    | true =>
      rw [value_select_strict]
      exact (kept_queries_sublist rules).trans (distinctQueries_sublist _ _)
  exact ((distinctQueries_sublist [] _).trans hselected).subset

/-- A recording that holds at least the results of the executed queries, in whatever order and
layout, is as good as the client that gave them. -/
theorem replay_agrees_with_client {env : Environment} {c : Connection} {timeout : Nat}
    {runner : Query → Client.Runner} {answers : Query → Option (List Row)} {strict : Bool}
    {rules : List Rule} {recorded : List Query}
    (hsql : ∀ q ∈ rules.flatMap (·.queries), Text.isBlankText q.sql = false)
    (hcommand : ∀ q ∈ executed strict rules, ∃ cmd, Client.command env c timeout q = .ok cmd ∧
      Client.Answered (answers q) (runner q cmd).value)
    (hnames : (recorded.map (·.name)).Nodup) (hrecorded : executed strict rules ⊆ recorded) :
    let document := Recording.toJson (Recording.resultsOf answers recorded)
    Json.read? document.compact = some document ∧ Json.read? document.pretty = some document ∧
    ∀ text, Json.read? text = some document →
      ∃ recording, Recording.ofText text = .ok recording ∧
        (run (.ofFunction recording.execute) strict rules).value =
          (run (Client.executeEach env c timeout runner) strict rules).value := by
  intro document
  obtain ⟨hcompact, hpretty⟩ := Recording.read?_toJson (Recording.resultsOf answers recorded)
  refine ⟨hcompact, hpretty, fun text htext => ?_⟩
  refine ⟨_, by rw [Recording.ofText, htext]; exact Recording.ofJson_toJson _, ?_⟩
  apply value_run_congr
  intro q hq
  obtain ⟨cmd, hbuilt, hanswer⟩ := hcommand q hq
  have hblank := hsql q (executed_subset strict rules hq)
  have hget := @Recording.get?_resultsOf answers _ hnames _ (hrecorded hq)
  rw [Executor.ofFunction, Logged.value_pure, Recording.execute, hget]
  cases hrows : answers q with
  | none =>
    rw [hrows] at hanswer
    obtain ⟨e, he⟩ := Client.value_executeEach_of_failure hblank hbuilt hanswer
    rw [he]
    rfl
  | some table =>
    rw [hrows] at hanswer
    rw [Client.value_executeEach_of_rows hblank hbuilt hanswer]

/-- One query has a text that runs over two lines, one fails, and one result is too wide. -/
def threeHostQueries : List Rule :=
  [{ id := "hosts"
     queries := [
      { name := "hosts", sql := "SELECT HOST, NOTE FROM M_HOSTS", columns := ["HOST", "NOTE"] },
      { name := "down", sql := "SELECT HOST FROM M_DOWN", columns := ["HOST"] }]
     recommendations := [
      { id := "pair", trigger := some (.compare (.comparison .eq) "size(hosts:HOST)" "2") },
      { id := "down", trigger := some (.compare (.comparison .gt) "size(down:HOST)" "0") }] },
    { id := "wide"
      queries := [{ name := "wide", sql := "SELECT * FROM M_LOADS", columns := ["LOAD"] }]
      recommendations :=
        [{ id := "loaded", trigger := some (.compare (.comparison .gt) "size(wide:LOAD)" "0") }] }]

def threeHostAnswers (q : Query) : Option (List Row) :=
  if q.name = "hosts" then some [[some "a\"b", none], [some "", some "x\ny"]]
  else if q.name = "wide" then some [[some "1", some "2"]]
  else none

def threeHostRunner (q : Query) : Client.Runner := fun _ => pure <|
  if q.name = "hosts" then .ok ⟨"\"a\"\"b\",?\n\"\",\"x\ny\"\n", "", some 0, true⟩
  else if q.name = "wide" then .ok ⟨"\"1\",\"2\"\n", "", some 0, true⟩
  else .ok ⟨"", "* 259: invalid table name", some 3, false⟩

theorem replay_agrees_with_client_over_failed_query :
    let rules := threeHostQueries
    let live :=
      (run (Client.executeEach .empty { userstoreKey := some "SDB" } 30 threeHostRunner) true
        rules).value
    live.insights.entries =
        [("hosts", [⟨"pair", true⟩, ⟨"down", false⟩]), ("wide", [⟨"loaded", false⟩])] ∧
      live.knowledgeBaseKeys = 2 ∧
      live.diagnostics = [
        ⟨"hosts", "down", "knowledge base key not found: down:HOST"⟩,
        ⟨"wide", "loaded", "knowledge base key not found: wide:LOAD"⟩] ∧
    ∃ recording,
      Recording.ofText ("\x7b\"wide\": [[\"1\", \"2\"]], " ++
        "\"hosts\": [[\"a\\\"b\", null], [\"\", \"x\\ny\"]]\x7d") = .ok recording ∧
      (run (.ofFunction recording.execute) true rules).value = live := by
  intro rules live
  have hexecuted : executed true rules = rules.flatMap (·.queries) := by rfl
  have hcommand : ∀ q ∈ executed true rules, ∃ cmd,
      Client.command .empty { userstoreKey := some "SDB" } 30 q = .ok cmd ∧
        Client.Answered (threeHostAnswers q) (threeHostRunner q cmd).value := by
    rw [hexecuted]
    intro q hq
    rcases List.mem_cons.1 hq with rfl | hq
    · exact ⟨_, rfl, .printed (by decide) rfl rfl⟩
    rcases List.mem_cons.1 hq with rfl | hq
    · exact ⟨_, rfl, .exited rfl⟩
    obtain rfl := List.mem_singleton.1 hq
    exact ⟨_, rfl, .printed (by decide) rfl rfl⟩
  have hrecorded : executed true rules ⊆ (rules.flatMap (·.queries)).reverse := by
    rw [hexecuted]
    exact fun q hq => List.mem_reverse.2 hq
  refine ⟨by decide +kernel, by decide +kernel, by decide +kernel, ?_⟩
  exact (replay_agrees_with_client (by decide) hcommand (by decide) hrecorded).2.2 _ rfl

end Cycle
end HanaInsights
