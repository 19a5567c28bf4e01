import HanaInsights.Proofs.Evaluation
import HanaInsights.Proofs.Size
set_option autoImplicit false

/-!
What an outcome depends on. A trigger looks at the sizes of its own keys and at nothing else, so the
values under a key can be any others, and queries without such a key can be answered in any way.
-/

namespace HanaInsights

theorem KnowledgeBase.map_length_grown_none {xs ys : List String} :
    (grown none xs).map List.length = (grown none ys).map List.length ↔
      xs.length = ys.length := by
  cases xs <;> cases ys <;> simp [grown]

namespace Cycle

section
variable {execute execute' : Executor} {rules rules' : List Rule} {key : String}

theorem sameSize_collect_iff :
    (collect execute rules).value.SameSize (collect execute' rules').value key ↔
      (held execute (distinctQueries [] (rules.flatMap (·.queries))) key).length =
        (held execute' (distinctQueries [] (rules'.flatMap (·.queries))) key).length := by
  rw [KnowledgeBase.SameSize, get?_collect, get?_collect, KnowledgeBase.map_length_grown_none]

theorem distinctQueries_sublist (seen : List String) (queries : List Query) :
    (distinctQueries seen queries).Sublist queries := by
  induction queries generalizing seen with
  | nil => exact List.Sublist.refl _
  | cons q rest ih =>
    rw [distinctQueries]
    split
    · exact (ih seen).cons q
    · exact (ih (q.name :: seen)).cons_cons q

theorem held_congr {queries : List Query}
    (h : ∀ q ∈ queries, key ∈ q.keys → (execute q).value = (execute' q).value) :
    held execute queries key = held execute' queries key := by
  apply List.flatMap_congr
  intro q hq
  by_cases hkey : key ∈ q.keys
  · rw [h q hq hkey]
  · have hcolumns : ∀ column ∈ q.columns, q.name ++ ":" ++ column ≠ key := by
      intro column hcolumn hspelled
      exact hkey (List.mem_map.2 ⟨column, hcolumn, hspelled⟩)
    rw [Query.contribution_eq_nil hcolumns, Query.contribution_eq_nil hcolumns]

end
end Cycle

namespace Trigger

/-- Two knowledge bases that hold as many values under each key of a trigger, or none, give the
same result, the same errors and the same log. So do two executors that answer the queries alike
which declare such a key. -/
theorem outcome_depends_on_sizes_of_keys (t : Trigger) :
    (∀ kb kb' : KnowledgeBase, (∀ key ∈ t.keys, kb.SameSize kb' key) →
      diagnose kb t = diagnose kb' t ∧ firesLogged kb (some t) = firesLogged kb' (some t)) ∧
    ∀ (execute execute' : Executor) (rules : List Rule),
      (∀ q ∈ rules.flatMap (·.queries), ∀ key ∈ q.keys, key ∈ t.keys →
        (execute q).value = (execute' q).value) →
      diagnose (Cycle.collect execute rules).value t =
        diagnose (Cycle.collect execute' rules).value t := by
  refine ⟨fun kb kb' h => ?_, fun execute execute' rules h => ?_⟩
  · have hsame : diagnose? kb (some t) = diagnose? kb' (some t) := diagnose_congr h
    exact ⟨hsame, by simp only [firesLogged, fires, hsame]⟩
  · apply diagnose_congr
    intro key hkey
    rw [Cycle.sameSize_collect_iff]
    congr 1
    apply Cycle.held_congr
    intro q hq hdeclared
    exact h q ((Cycle.distinctQueries_sublist _ _).subset hq) key hdeclared hkey

/-- Other hosts in another order, beside a key that only one of the knowledge bases has; and a query
that is no longer answered, where the trigger counts the rows of another one. -/
theorem outcome_depends_on_sizes_of_two_hosts :
    let t := any [all [compare (.comparison .gt) "size(q_hosts:HOST)" "2"],
      compare (.comparison .eq) "size(q_absent:ID)" "0", .node .undefined "size(q_hosts:HOST)" "" []]
    let kb := (KnowledgeBase.empty.append "q_hosts:HOST" "hana01").append "q_hosts:HOST" "hana02"
    let kb' := ((KnowledgeBase.empty.append "q_hosts:HOST" "db2").append "q_log:MODE" "").append
      "q_hosts:HOST" "db1"
    let execute := Executor.ofFunction fun q =>
      if q.name = "q_hosts" then .ok [[some "hana01", none]] else .ok [[some "done"]]
    let execute' := Executor.ofFunction fun q =>
      if q.name = "q_hosts" then .ok [[some "hana01", none]] else .error (.failed q.name "locked")
    (∀ key ∈ t.keys, kb.SameSize kb' key) ∧
      diagnose kb t = (false, [.keyNotFound "q_absent:ID", .unrecognizedOperation "UNDEFINED"]) ∧
      diagnose kb' t = diagnose kb t ∧
      (Cycle.collect execute Cycle.hostRules).value ≠ (Cycle.collect execute' Cycle.hostRules).value ∧
      diagnose (Cycle.collect execute Cycle.hostRules).value t =
        diagnose (Cycle.collect execute' Cycle.hostRules).value t := by
  intro t kb kb' execute execute'
  have hsizes : ∀ key ∈ t.keys, kb.SameSize kb' key := by decide
  have hanswers : ∀ q ∈ Cycle.hostRules.flatMap (·.queries), ∀ key ∈ q.keys, key ∈ t.keys →
      (execute q).value = (execute' q).value := by
    intro q hq
    simp only [Cycle.hostRules, List.flatMap_cons, List.flatMap_nil, List.append_nil,
      List.cons_append, List.nil_append, List.mem_cons, List.not_mem_nil, or_false] at hq
    rcases hq with rfl | rfl
    · exact fun _ _ _ => rfl
    · decide
  obtain ⟨hsame, hcollected⟩ := outcome_depends_on_sizes_of_keys t
  exact ⟨hsizes, by decide +kernel, (hsame kb kb' hsizes).1.symm, by decide,
    hcollected execute execute' Cycle.hostRules hanswers⟩

end Trigger
end HanaInsights
