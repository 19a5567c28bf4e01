import HanaInsights.Proofs.Evaluation
import HanaInsights.Proofs.Insights
import HanaInsights.Proofs.Selection
set_option autoImplicit false

/-!
A strict and a lenient cycle over the same rules. Strictness drops rules, and with them the queries
that only they declare, so the two knowledge bases differ under the keys to which those queries
contribute. A kept rule that reads none of these keys has the same outcomes in both cycles.
-/

namespace HanaInsights

/-- The keys whose sizes the triggers of a rule look at. -/
def Rule.reads (rule : Rule) : List String :=
  rule.recommendations.flatMap fun r => (r.trigger.map Trigger.keys).getD []

theorem Rule.outcomes_congr {kb kb' : KnowledgeBase} {rule : Rule}
    (h : ∀ key ∈ rule.reads, kb.SameSize kb' key) : rule.outcomes kb = rule.outcomes kb' := by
  apply List.map_congr_left
  intro r hr
  have hsame : Trigger.diagnose? kb r.trigger = Trigger.diagnose? kb' r.trigger := by
    apply Trigger.diagnose?_congr
    intro t ht key hkey
    exact h key (List.mem_flatMap.2 ⟨r, hr, by simpa [Option.mem_def.1 ht] using hkey⟩)
  simp only [Recommendation.outcome, Trigger.fires, hsame]

namespace Cycle

theorem filter_mem_of_sublist {xs ys : List Query} (h : xs.Sublist ys) (hys : ys.Nodup) :
    ys.filter (fun q => decide (q ∈ xs)) = xs := by
  induction h with
  | slnil => rfl
  | @cons xs ys q hsub ih =>
    rw [List.nodup_cons] at hys
    have hq : q ∉ xs := fun hmem => hys.1 (hsub.subset hmem)
    rw [List.filter_cons_of_neg (by simpa using hq), ih hys.2]
  | @cons_cons xs ys q hsub ih =>
    rw [List.nodup_cons] at hys
    have hrest := ih hys.2
    rw [List.filter_cons_of_pos (by simp)]
    congr 1
    rw [← hrest]
    apply List.filter_congr
    intro p hp
    have hne : p ≠ q := fun he => hys.1 (he ▸ hp)
    simp [hne, hp]

section
variable {β : Type} (f : Query → List β) (keep : Query → Bool) (queries : List Query)

theorem length_flatMap_filter :
    (queries.flatMap f).length = ((queries.filter keep).flatMap f).length +
      ((queries.filter fun q => !keep q).flatMap f).length := by
  induction queries with
  | nil => rfl
  | cons q rest ih =>
    cases h : keep q <;> simp only [List.flatMap_cons, List.length_append, List.filter_cons, h, ih,
      Bool.not_true, Bool.not_false, if_true, Bool.false_eq_true, if_false] <;> omega

theorem flatMap_filter_eq_iff :
    (queries.filter keep).flatMap f = queries.flatMap f ↔
      ∀ q ∈ queries.filter fun q => !keep q, f q = [] := by
  rw [← List.flatMap_eq_nil_iff]
  constructor
  · intro h
    have hlength := length_flatMap_filter f keep queries
    rw [h] at hlength
    exact List.eq_nil_of_length_eq_zero (by omega)
  · intro h
    induction queries with
    | nil => rfl
    | cons q rest ih =>
      cases hq : keep q with
      | true =>
        rw [List.filter_cons_of_neg (by simp [hq])] at h
        rw [List.filter_cons_of_pos hq, List.flatMap_cons, List.flatMap_cons, ih h]
      | false =>
        rw [List.filter_cons_of_pos (by simp [hq]), List.flatMap_cons, List.append_eq_nil_iff] at h
        rw [List.filter_cons_of_neg (by simp [hq]), List.flatMap_cons, ih h.2, h.1]
        rfl

end

section
variable (execute : Executor)

/-- What a cycle knows when it evaluates the selected rules. -/
def knowledge (strict : Bool) (rules : List Rule) : KnowledgeBase :=
  (collect execute (select strict rules).value).value

/-- The queries that a lenient cycle executes and a strict one does not. -/
def lost (rules : List Rule) : List Query :=
  (distinctQueries [] (rules.flatMap (·.queries))).filter fun q =>
    !decide (q ∈ (kept rules).flatMap (·.queries))

theorem knowledge_agrees_iff (rules : List Rule) (key : String) :
    (knowledge execute true rules).get? key = (knowledge execute false rules).get? key ↔
      ∀ q ∈ lost rules, q.contribution key (execute q).value = [] := by
  have hsub := kept_queries_sublist rules
  have hnodup := nodup_distinctQueries (rules.flatMap (·.queries))
  rw [knowledge, knowledge, value_select_strict, value_select_lenient, get?_collect, get?_collect,
    distinctQueries_of_sublist hsub, KnowledgeBase.grown_none_inj, held, held, lost,
    ← flatMap_filter_eq_iff, filter_mem_of_sublist hsub hnodup]

theorem insights_run (strict : Bool) (rules : List Rule) (id : String) :
    (run execute strict rules).value.insights.get? id =
      Insights.recorded (knowledge execute strict rules) none
        ((select strict rules).value.filter fun rule => rule.id == id) :=
  RuleSet.get?_evaluate (select strict rules).value (knowledge execute strict rules) strict id

theorem insights_of_kept {rules : List Rule} {rule : Rule} (h : rule ∈ kept rules)
    (strict : Bool) :
    (run execute strict rules).value.insights.get? rule.id =
      some (rule.outcomes (knowledge execute strict rules)) := by
  have hself : ((select strict rules).value.filter fun r => r.id == rule.id) = [rule] := by
    cases strict with
    | false => rw [value_select_lenient, filter_id_of_kept h]
    | true =>
      have hcomm : (kept rules).filter (fun r => r.id == rule.id) =
          (rules.filter fun r => r.id == rule.id).filter (isKept (RuleSet.errors rules)) := by
        rw [kept, List.filter_filter, List.filter_filter]
        exact List.filter_congr fun r _ => Bool.and_comm _ _
      rw [value_select_strict, hcomm, filter_id_of_kept h]
      exact List.filter_cons_of_pos (List.mem_filter.1 h).2
  rw [insights_run, hself]
  simp [Insights.recorded]

/-- Strictness changes what is known under a key exactly if a lost query contributes to it, and the
outcomes of a kept rule only if the rule reads such a key. -/
theorem strictness_keeps_outcomes (rules : List Rule) :
    (∀ key, (knowledge execute true rules).get? key = (knowledge execute false rules).get? key ↔
      ∀ q ∈ lost rules, q.contribution key (execute q).value = []) ∧
    ∀ rule ∈ (select true rules).value,
      (∀ key ∈ rule.reads, ∀ q ∈ lost rules, q.contribution key (execute q).value = []) →
      ∃ outcomes, (run execute true rules).value.insights.get? rule.id = some outcomes ∧
        (run execute false rules).value.insights.get? rule.id = some outcomes := by
  refine ⟨knowledge_agrees_iff execute rules, fun rule hrule hlost => ?_⟩
  rw [value_select_strict] at hrule
  refine ⟨_, insights_of_kept execute hrule true, ?_⟩
  rw [insights_of_kept execute hrule false]
  congr 1
  apply Rule.outcomes_congr
  intro key hkey
  have hsame := (knowledge_agrees_iff execute rules key).2 (hlost key hkey)
  exact congrArg (Option.map List.length) hsame.symm

end

def brokenBeside (reader : String) : List Rule :=
  [{ id := "broken"
     queries := [{ name := "q_lost", columns := ["c"] }]
     recommendations := [{ id := "rec", trigger := some (.node .undefined "" "" []) }] },
    { id := "sound"
      queries := [{ name := "q_own", columns := ["c"] }]
      recommendations :=
        [{ id := "rec", trigger := some (.compare (.comparison .neq) "none" reader) }] }]

def oneRow : Executor := Executor.ofFunction fun _ => .ok [[some "v"]]

theorem strictness_keeps_outcomes_of_own_query :
    ∃ outcomes,
      (run oneRow true (brokenBeside "size(q_own:c)")).value.insights.get? "sound" = some outcomes ∧
      (run oneRow false (brokenBeside "size(q_own:c)")).value.insights.get? "sound" =
        some outcomes := by
  let rule : Rule := (brokenBeside "size(q_own:c)").getLast (by decide)
  have hkept : rule ∈ (select true (brokenBeside "size(q_own:c)")).value :=
    List.mem_singleton_self rule
  exact (strictness_keeps_outcomes oneRow (brokenBeside "size(q_own:c)")).2 rule hkept (by decide)

/-- The rule reads a column that only the broken rule declares, and strictness drops the one but
not the other. -/
theorem strictness_changes_outcome_of_lost_query :
    (select true (brokenBeside "size(q_lost:c)")).value.map (·.id) = ["sound"] ∧
    (run oneRow true (brokenBeside "size(q_lost:c)")).value.insights.get? "sound" =
      some [⟨"rec", false⟩] ∧
    (run oneRow false (brokenBeside "size(q_lost:c)")).value.insights.get? "sound" =
      some [⟨"rec", true⟩] := by
  exact ⟨rfl, rfl, rfl⟩

end Cycle
end HanaInsights
