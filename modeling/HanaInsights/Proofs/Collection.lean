import Mathlib.Data.List.Nodup
import Mathlib.Tactic.Tauto
import HanaInsights.Cycle
import HanaInsights.Proofs.KnowledgeBase
set_option autoImplicit false

/-!
Collecting a knowledge base. Of the queries with one name the first is executed and the others are
only noted; what is executed adds its own values under each key, and nothing else is ever there.
-/

namespace HanaInsights

/-- A failure contributes nothing, and neither does a result with one row that does not fit. -/
def Query.contribution (q : Query) (key : String) : Except QueryError (List Row) → List String
  | .error _ => []
  | .ok rows => if q.Fits rows then q.valuesUnder key rows else []

theorem Query.mem_contribution {q : Query} {rows : List Row} (hfits : q.Fits rows) {row : Row}
    (hrow : row ∈ rows) {i : Nat} (hi : i < q.columns.length) {value : String}
    (hcell : row[i]? = some (some value)) :
    value ∈ q.contribution (q.name ++ ":" ++ q.columns[i]) (.ok rows) := by
  simp only [contribution, if_pos hfits, valuesUnder, List.mem_flatMap, Row.mem_cellsUnder]
  exact ⟨row, hrow, i, q.columns[i], List.getElem?_eq_getElem hi, hcell, rfl⟩

/-- One query for each name, in the order in which the names first occur. -/
def Query.firstDeclared (queries : List Query) : List Query :=
  (queries.map (·.name)).eraseDups.filterMap fun name => queries.find? fun q => q.name == name

theorem Query.firstDeclared_cons (q : Query) (rest : List Query) :
    Query.firstDeclared (q :: rest) =
      q :: Query.firstDeclared (rest.filter fun p => !(p.name == q.name)) := by
  have hnames : (rest.map (·.name)).filter (fun name => !(name == q.name)) =
      (rest.filter fun p => !(p.name == q.name)).map (·.name) := by
    rw [List.filter_map]
    rfl
  have hfind : ∀ name ∈ ((rest.filter fun p => !(p.name == q.name)).map (·.name)).eraseDups,
      (q :: rest).find? (fun p => p.name == name) =
        (rest.filter fun p => !(p.name == q.name)).find? fun p => p.name == name := by
    intro name hname
    rw [List.mem_eraseDups, ← hnames, List.mem_filter] at hname
    have hne : name ≠ q.name := by simpa using hname.2
    rw [List.find?_cons_of_neg (by simpa using Ne.symm hne), List.find?_filter]
    congr 1
    funext p
    by_cases hp : p.name = name <;> simp [hp, hne]
  rw [Query.firstDeclared, List.map_cons, List.eraseDups_cons, List.filterMap_cons_some (b := q)
    (by simp), hnames]
  congr 1
  exact List.filterMap_congr hfind

theorem Query.map_name_firstDeclared (queries : List Query) :
    (Query.firstDeclared queries).map (·.name) = (queries.map (·.name)).eraseDups := by
  have hfound : ∀ name ∈ (queries.map (·.name)).eraseDups,
      (queries.find? fun q => q.name == name).map (·.name) = some name := by
    intro name hname
    rw [List.mem_eraseDups, List.mem_map] at hname
    obtain ⟨q, hq, hqname⟩ := hname
    cases hf : queries.find? fun p => p.name == name with
    | none =>
      rw [List.find?_eq_none] at hf
      exact absurd (by simpa using hqname) (hf q hq)
    | some p => simpa using List.find?_some hf
  rw [Query.firstDeclared, List.map_filterMap, List.filterMap_congr hfound, List.filterMap_some]

namespace Cycle

theorem distinctQueries_eq (seen : List String) (queries : List Query) :
    distinctQueries seen queries =
      Query.firstDeclared (queries.filter fun q => !seen.contains q.name) := by
  induction queries generalizing seen with
  | nil => rfl
  | cons q rest ih =>
    by_cases h : seen.contains q.name
    · rw [distinctQueries, if_pos h, ih, List.filter_cons_of_neg (by simpa using h)]
    · rw [distinctQueries, if_neg h, ih, List.filter_cons_of_pos (by simpa using h),
        Query.firstDeclared_cons, List.filter_filter]
      congr 2
      apply List.filter_congr
      intro p _
      simp only [List.contains_cons, Bool.not_or]

theorem distinctQueries_congr {seen seen' : List String} (h : ∀ name, name ∈ seen ↔ name ∈ seen')
    (queries : List Query) : distinctQueries seen queries = distinctQueries seen' queries := by
  simp only [distinctQueries_eq, List.contains_eq_mem, h]

theorem distinctQueries_append (seen : List String) (xs ys : List Query) :
    distinctQueries seen (xs ++ ys) =
      distinctQueries seen xs ++ distinctQueries (xs.map (·.name) ++ seen) ys := by
  induction xs generalizing seen with
  | nil => rfl
  | cons q xs ih =>
    by_cases h : seen.contains q.name
    · rw [List.cons_append, distinctQueries, distinctQueries, if_pos h, if_pos h, ih]
      congr 1
      apply distinctQueries_congr
      intro name
      have hq : q.name ∈ seen := by simpa using h
      by_cases hn : name = q.name <;> simp [hn, hq]
    · rw [List.cons_append, distinctQueries, distinctQueries, if_neg h, if_neg h, ih,
        List.cons_append]
      congr 2
      apply distinctQueries_congr
      intro name
      simp only [List.mem_append, List.mem_cons, List.map_cons]
      tauto

theorem distinctQueries_of_firsts {seen : List String} {queries : List Query}
    (h : ∀ before q after, queries = before ++ q :: after →
      q.name ∉ before.map (·.name) ++ seen) : distinctQueries seen queries = queries := by
  induction queries generalizing seen with
  | nil => rfl
  | cons q rest ih =>
    have hq : ¬ seen.contains q.name := by simpa using h [] q rest rfl
    rw [distinctQueries, if_neg hq, ih]
    intro before p after hsplit hmem
    refine h (q :: before) p after (by rw [hsplit]; rfl) ?_
    simp only [List.map_cons, List.mem_append, List.mem_cons] at hmem ⊢
    tauto

theorem distinctQueries_of_nodup {queries : List Query} (h : (queries.map (·.name)).Nodup) :
    distinctQueries [] queries = queries := by
  apply distinctQueries_of_firsts
  rintro before q after rfl hmem
  rw [List.map_append, List.map_cons, List.nodup_append] at h
  rw [List.append_nil] at hmem
  exact h.2.2 q.name hmem q.name List.mem_cons_self rfl

theorem nodup_names_distinctQueries (seen : List String) (queries : List Query) :
    ((distinctQueries seen queries).map (·.name)).Nodup ∧
      ∀ q ∈ distinctQueries seen queries, q.name ∉ seen := by
  induction queries generalizing seen with
  | nil => simp [distinctQueries]
  | cons q rest ih =>
    by_cases h : seen.contains q.name
    · rw [distinctQueries, if_pos h]
      exact ih seen
    · rw [distinctQueries, if_neg h, List.map_cons, List.nodup_cons]
      obtain ⟨hnodup, hfresh⟩ := ih (q.name :: seen)
      refine ⟨⟨fun hmem => ?_, hnodup⟩, fun p hp => ?_⟩
      · obtain ⟨p, hp, hname⟩ := List.mem_map.1 hmem
        exact hfresh p hp (hname ▸ List.mem_cons_self)
      · rcases List.mem_cons.1 hp with rfl | hp
        · simpa using h
        · exact fun hmem => hfresh p hp (List.mem_cons_of_mem _ hmem)

theorem nodup_distinctQueries (queries : List Query) : (distinctQueries [] queries).Nodup :=
  List.Nodup.of_map (·.name) (nodup_names_distinctQueries [] queries).1

/-- What is logged about a result, whatever the knowledge base held before. -/
def outcomeLines (q : Query) : Except QueryError (List Row) → List LogLine
  | .error e => [warnLine ("Query " ++ q.name ++ " failed: " ++ e.message)]
  | .ok rows =>
    match rows.find? fun row => row.length != q.columns.length with
    | none => [debugLine ("Query " ++ q.name ++ " returned " ++ toString rows.length ++ " rows")]
    | some bad =>
      [errorLine ("Discarding result of query " ++ q.name ++ ": " ++
        (KnowledgeBase.mismatch q bad).message)]

theorem ingest_spec (kb : KnowledgeBase) (q : Query) (result : Except QueryError (List Row)) :
    (∀ key, (ingest kb q result).value.get? key =
      KnowledgeBase.grown (kb.get? key) (q.contribution key result)) ∧
    (ingest kb q result).log = outcomeLines q result ∧ (ingest kb q result).signals = [] := by
  cases result with
  | error e => exact ⟨fun key => rfl, rfl, rfl⟩
  | ok rows =>
    by_cases hfits : q.Fits rows
    · simp only [ingest, outcomeLines, Query.find?_misfit hfits,
        KnowledgeBase.addRows_of_fits hfits kb]
      refine ⟨fun key => ?_, rfl, rfl⟩
      simp only [Query.contribution, if_pos hfits]
      exact KnowledgeBase.get?_addFitting kb q key rows
    · obtain ⟨bad, hbad, herror⟩ := KnowledgeBase.addRows_of_not_fits hfits kb
      simp only [ingest, outcomeLines, hbad, herror]
      refine ⟨fun key => ?_, rfl, rfl⟩
      simp only [Query.contribution, if_neg hfits]
      rfl

section
variable (execute : Executor)

/-- The values that executed queries leave under a key. -/
def held (queries : List Query) (key : String) : List String :=
  queries.flatMap fun q => q.contribution key (execute q).value

theorem collectFrom_value (executed : List String) (kb : KnowledgeBase) (queries : List Query)
    (key : String) :
    (collectFrom execute executed kb queries).value.get? key =
      KnowledgeBase.grown (kb.get? key) (held execute (distinctQueries executed queries) key) := by
  induction queries generalizing executed kb with
  | nil => rfl
  | cons q rest ih =>
    by_cases h : executed.contains q.name
    · rw [collectFrom, distinctQueries, if_pos h, if_pos h]
      exact ih executed kb
    · rw [collectFrom, distinctQueries, if_neg h, if_neg h]
      have hstep := ih (q.name :: executed) (ingest kb q (execute q).value).value
      rw [(ingest_spec kb q (execute q).value).1, KnowledgeBase.grown_append] at hstep
      exact hstep

theorem get?_collect (rules : List Rule) (key : String) :
    (collect execute rules).value.get? key =
      KnowledgeBase.grown none
        (held execute (distinctQueries [] (rules.flatMap (·.queries))) key) := by
  rw [collect, collectFrom_value]
  rfl

theorem collectFrom_signals (executed : List String) (kb : KnowledgeBase) (queries : List Query) :
    (collectFrom execute executed kb queries).signals =
      (distinctQueries executed queries).flatMap fun q => (execute q).signals := by
  induction queries generalizing executed kb with
  | nil => rfl
  | cons q rest ih =>
    by_cases h : executed.contains q.name
    · rw [collectFrom, distinctQueries, if_pos h, if_pos h]
      exact ih executed kb
    · rw [collectFrom, distinctQueries, if_neg h, if_neg h, List.flatMap_cons]
      simp only [Logged.signals_bind, (ingest_spec kb q (execute q).value).2.2, List.nil_append, ih]

/-- The lines of one query's turn, given the names of the queries before it. -/
def turnLines (before : List String) (q : Query) : List LogLine :=
  if before.contains q.name then
    [debugLine ("Query " ++ q.name ++ " already executed this cycle")]
  else (execute q).log ++ outcomeLines q (execute q).value

theorem collectFrom_log (executed before : List String)
    (h : ∀ name, executed.contains name = before.contains name) (kb : KnowledgeBase)
    (queries : List Query) :
    (collectFrom execute executed kb queries).log =
      queries.zipIdx.flatMap fun p =>
        turnLines execute (before ++ (queries.take p.2).map (·.name)) p.1 := by
  induction queries generalizing executed before kb with
  | nil => rfl
  | cons q rest ih =>
    -- Indices count from the head, so the head's name moves to the names that stood before.
    have hshift : (List.zipIdx (q :: rest)).flatMap (fun p =>
          turnLines execute (before ++ ((q :: rest).take p.2).map (·.name)) p.1) =
        turnLines execute before q ++ rest.zipIdx.flatMap fun p =>
          turnLines execute ((before ++ [q.name]) ++ (rest.take p.2).map (·.name)) p.1 := by
      rw [List.zipIdx_cons, List.zipIdx_succ, List.flatMap_cons, List.flatMap_map]
      simp
    rw [hshift]
    by_cases hq : executed.contains q.name
    · have hnext : ∀ name, executed.contains name = (before ++ [q.name]).contains name := by
        intro name
        by_cases hn : name = q.name
        · subst hn
          simpa using hq
        · have hname := h name
          simp only [List.contains_eq_mem, decide_eq_decide] at hname
          simp [hname, hn]
      rw [collectFrom, if_pos hq, turnLines, if_pos (h q.name ▸ hq)]
      simp only [Logged.log_bind, ih executed (before ++ [q.name]) hnext]
      rfl
    · have hnext : ∀ name,
          (q.name :: executed).contains name = (before ++ [q.name]).contains name := by
        intro name
        have hname := h name
        simp only [List.contains_eq_mem, decide_eq_decide] at hname
        by_cases hn : name = q.name <;> simp [hname, hn]
      rw [collectFrom, if_neg hq, turnLines, if_neg (h q.name ▸ hq)]
      simp only [Logged.log_bind, (ingest_spec kb q (execute q).value).2.1,
        ih (q.name :: executed) (before ++ [q.name]) hnext, List.append_assoc]

/-- The executor is asked for the first query of each name and for nothing else, which its signals
and its share of the log show, and the knowledge base is what these queries contribute. -/
theorem collect_determined_by_first_declarations (rules : List Rule) :
    let queries := rules.flatMap (·.queries)
    let executed := Query.firstDeclared queries
    executed.map (·.name) = (queries.map (·.name)).eraseDups ∧
    (collect execute rules).signals = executed.flatMap (fun q => (execute q).signals) ∧
    (collect execute rules).log = queries.zipIdx.flatMap (fun p =>
      turnLines execute ((queries.take p.2).map (·.name)) p.1) ∧
    ∀ key, (collect execute rules).value.get? key =
      if held execute executed key = [] then none else some (held execute executed key) := by
  intro queries executed
  have hexecuted : distinctQueries [] queries = executed := by
    rw [distinctQueries_eq]
    simp [executed]
  refine ⟨Query.map_name_firstDeclared queries, ?_, ?_, fun key => ?_⟩
  · rw [← hexecuted]
    exact collectFrom_signals execute [] KnowledgeBase.empty queries
  · exact collectFrom_log execute [] [] (fun _ => rfl) KnowledgeBase.empty queries
  · rw [← hexecuted, get?_collect]
    generalize held execute (distinctQueries [] queries) key = values
    cases values <;> rfl

end

def rulesOfOneName : List Rule :=
  [{ id := "hosts"
     queries := [
      { name := "q_lost", columns := ["HOST"] },
      { name := "q_hosts", columns := ["HOST", "STATE"] }] },
    { id := "loads"
      queries := [
      { name := "q_hosts", columns := ["LOAD"] },
      { name := "q_loads", columns := ["LOAD"] },
      { name := "q_lost", columns := ["LOAD"] }] }]

/-- Each query is noted as it is executed; one fails and one gives a row that is too wide. -/
def answerOfOneName : Executor := fun q =>
  .withLog
    (if q.name = "q_hosts" then .ok [[some "hana01", none], [some "hana02", some "down"]]
      else if q.name = "q_loads" then .ok [[some "1"], [some "2", some "3"]]
      else .error (.invalidConnection "no password"))
    [infoLine ("SELECT " ++ ", ".intercalate q.columns)]

theorem collected_of_repeated_names :
    let collected := collect answerOfOneName rulesOfOneName
    collected.log = [
      infoLine "SELECT HOST",
      warnLine "Query q_lost failed: invalid connection settings: no password",
      infoLine "SELECT HOST, STATE", debugLine "Query q_hosts returned 2 rows",
      debugLine "Query q_hosts already executed this cycle",
      infoLine "SELECT LOAD",
      errorLine ("Discarding result of query q_loads: " ++
        "query 'q_loads' declares 1 columns but row has 2"),
      debugLine "Query q_lost already executed this cycle"] ∧
    collected.value.get? "q_hosts:HOST" = some ["hana01", "hana02"] ∧
    collected.value.get? "q_hosts:STATE" = some ["down"] ∧
    collected.value.get? "q_hosts:LOAD" = none ∧ collected.value.get? "q_loads:LOAD" = none ∧
    collected.value.get? "q_lost:HOST" = none ∧ collected.value.get? "" = none := by
  obtain ⟨-, -, hlog, hget⟩ :=
    collect_determined_by_first_declarations answerOfOneName rulesOfOneName
  refine ⟨hlog.trans ?_, (hget _).trans ?_, (hget _).trans ?_, (hget _).trans ?_,
    (hget _).trans ?_, (hget _).trans ?_, (hget _).trans ?_⟩
  all_goals decide +kernel

end Cycle
end HanaInsights
