import HanaInsights.Proofs.Insights
set_option autoImplicit false

namespace HanaInsights

def Outcome.sample (rule : String) (o : Outcome) : Sample := ⟨rule, o.recommendationId, o.result⟩

namespace Insights

theorem samples_append (insights : Insights) (rule : String) (outcomes : List Outcome) :
    (insights.append rule outcomes).samples.Perm
      (insights.samples ++ outcomes.map (Outcome.sample rule)) := by
  obtain ⟨entries, sorted⟩ := insights
  show ((Keyed.updateEntries rule (fun old => old.getD [] ++ outcomes) entries).flatMap fun e =>
    e.2.map (Outcome.sample e.1)).Perm ((entries.flatMap fun e => e.2.map (Outcome.sample e.1)) ++
      outcomes.map (Outcome.sample rule))
  clear sorted
  induction entries with
  | nil => simp [Keyed.updateEntries]
  | cons e rest ih =>
    obtain ⟨k, held⟩ := e
    rw [Keyed.updateEntries]
    split
    · rw [List.flatMap_cons]
      exact List.perm_append_comm
    · split
      next h =>
        -- New outcomes stand behind those of their own entry, in front of the entries after it.
        subst h
        simp only [List.flatMap_cons, Option.getD_some, List.map_append, List.append_assoc]
        exact List.perm_append_comm.append_left _
      next =>
        rw [List.flatMap_cons, List.flatMap_cons, List.append_assoc]
        exact ih.append_left _

theorem samples_foldl_append {α : Type} (rule : α → String) (outcomes : α → List Outcome)
    (parts : List α) (insights : Insights) :
    (parts.foldl (fun acc part => acc.append (rule part) (outcomes part)) insights).samples.Perm
      (insights.samples ++ parts.flatMap fun part =>
        (outcomes part).map (Outcome.sample (rule part))) := by
  induction parts generalizing insights with
  | nil => simp
  | cons part parts ih =>
    rw [List.foldl_cons, List.flatMap_cons, ← List.append_assoc]
    exact (ih _).trans ((samples_append insights _ _).append_right _)

/-- Records a rule by its recommendations, in an entry that is there before the first of them. -/
def recordEach (insights : Insights) (kb : KnowledgeBase) (rule : Rule) : Insights :=
  rule.recommendations.foldl
    (fun acc r => acc.append rule.id [⟨r.id, (Trigger.firesLogged kb r.trigger).value⟩])
    (insights.append rule.id [])

/-- Records a rule by its recommendations and collects what forced them to be false. -/
def diagnoseEach (reported : Insights × List Diagnostic) (kb : KnowledgeBase) (rule : Rule) :
    Insights × List Diagnostic :=
  rule.recommendations.foldl
    (fun acc r =>
      let (fires, errors) := Trigger.diagnose? kb r.trigger
      (acc.1.append rule.id [⟨r.id, fires⟩],
        acc.2 ++ errors.map fun e => ⟨rule.id, r.id, e.message⟩))
    (reported.1.append rule.id [], reported.2)

theorem recordEach_eq (insights : Insights) (kb : KnowledgeBase) (rule : Rule) :
    insights.recordEach kb rule = insights.record kb rule := by
  have hfold : ∀ (rs : List Recommendation) (held : List Outcome),
      rs.foldl (fun acc r => acc.append rule.id [r.outcome kb]) (insights.append rule.id held) =
        insights.append rule.id (held ++ rs.map (Recommendation.outcome kb)) := by
    intro rs
    induction rs with
    | nil => simp
    | cons r rs ih =>
      intro held
      rw [List.foldl_cons, append_append, ih, List.append_assoc]
      rfl
  exact hfold rule.recommendations []

theorem diagnoseEach_eq (reported : Insights × List Diagnostic) (kb : KnowledgeBase)
    (rule : Rule) :
    diagnoseEach reported kb rule =
      (reported.1.recordEach kb rule, reported.2 ++ rule.diagnostics kb) := by
  have hfold : ∀ (rs : List Recommendation) (insights : Insights) (found : List Diagnostic),
      rs.foldl (fun acc r => (acc.1.append rule.id [r.outcome kb],
          acc.2 ++ (r.errors kb).map fun e => ⟨rule.id, r.id, e.message⟩)) (insights, found) =
        (rs.foldl (fun acc r => acc.append rule.id [r.outcome kb]) insights,
          found ++ rs.flatMap fun r => (r.errors kb).map fun e => ⟨rule.id, r.id, e.message⟩) := by
    intro rs
    induction rs with
    | nil => simp
    | cons r rs ih =>
      intro insights found
      rw [List.foldl_cons, List.foldl_cons, List.flatMap_cons, ← List.append_assoc, ih]
  exact hfold rule.recommendations (reported.1.append rule.id []) reported.2

theorem foldl_diagnoseEach (kb : KnowledgeBase) (rules : List Rule)
    (reported : Insights × List Diagnostic) :
    rules.foldl (fun acc rule => diagnoseEach acc kb rule) reported =
      (rules.foldl (fun acc rule => acc.recordEach kb rule) reported.1,
        reported.2 ++ rules.flatMap (Rule.diagnostics kb)) := by
  induction rules generalizing reported with
  | nil => simp
  | cons rule rules ih =>
    rw [List.foldl_cons, List.foldl_cons, List.flatMap_cons, ih, diagnoseEach_eq,
      List.append_assoc]

structure Reports (kb : KnowledgeBase) (rules : List Rule) (insights : Insights) : Prop where
  ids : ∀ id, id ∈ insights.keys ↔ ∃ rule ∈ rules, rule.id = id
  entry : ∀ rule ∈ rules, insights.get? rule.id =
    some ((rules.filter fun other => other.id == rule.id).flatMap fun other =>
      other.recommendations.map fun r => ⟨r.id, (Trigger.firesLogged kb r.trigger).value⟩)
  once : insights.samples.Perm (rules.flatMap fun rule =>
    rule.recommendations.map fun r => ⟨rule.id, r.id, (Trigger.firesLogged kb r.trigger).value⟩)

end Insights

namespace RuleSet

section
variable (rules : List Rule) (kb : KnowledgeBase)

theorem mem_keys_evaluate (diagnose : Bool) (id : String) :
    id ∈ (evaluate rules kb diagnose).value.1.keys ↔ ∃ rule ∈ rules, rule.id = id := by
  rw [Keyed.mem_keys_iff, get?_evaluate, Insights.recorded]
  by_cases h : ∃ rule ∈ rules, rule.id = id <;> simp [h]

theorem samples_evaluate (diagnose : Bool) :
    (evaluate rules kb diagnose).value.1.samples.Perm
      (rules.flatMap fun rule => (rule.outcomes kb).map (Outcome.sample rule.id)) := by
  cases diagnose <;>
    exact Insights.samples_foldl_append Rule.id (Rule.outcomes kb) rules Insights.empty

theorem reports_evaluate (diagnose : Bool) :
    Insights.Reports kb rules (evaluate rules kb diagnose).value.1 := by
  refine ⟨mem_keys_evaluate rules kb diagnose, fun rule hrule => ?_, ?_⟩
  · have hsome : (rules.filter fun other => other.id == rule.id) ≠ [] :=
      List.ne_nil_of_mem (List.mem_filter.2 ⟨hrule, beq_self_eq_true _⟩)
    rw [get?_evaluate, Insights.recorded, if_neg (by simpa using hsome)]
    rfl
  · have hsamples := samples_evaluate rules kb diagnose
    simp only [Rule.outcomes, List.map_map] at hsamples
    exact hsamples

end

/-- With and without diagnostics the same is reported, as if one recommendation was recorded after
the other; the diagnostics are what the triggers met, in that order, and none unless asked for. -/
theorem evaluation_reports_each_recommendation (rules : List Rule) (kb : KnowledgeBase) :
    (evaluate rules kb false).value.1 = (evaluate rules kb true).value.1 ∧
    Insights.Reports kb rules (evaluate rules kb false).value.1 ∧
    (evaluate rules kb false).value.2 = [] ∧
    ((evaluate rules kb true).value.2 = rules.flatMap fun rule =>
      rule.recommendations.flatMap fun r =>
        (Trigger.diagnose? kb r.trigger).2.map fun e => ⟨rule.id, r.id, e.message⟩) ∧
    (evaluate rules kb false).value.1 =
      rules.foldl (fun acc rule => acc.recordEach kb rule) Insights.empty ∧
    (evaluate rules kb true).value =
      rules.foldl (fun acc rule => Insights.diagnoseEach acc kb rule) (Insights.empty, []) := by
  have heach : (evaluate rules kb false).value.1 =
      rules.foldl (fun acc rule => acc.recordEach kb rule) Insights.empty := by
    simp only [Insights.recordEach_eq]
    rfl
  refine ⟨rfl, reports_evaluate rules kb false, rfl, rfl, heach, ?_⟩
  rw [Insights.foldl_diagnoseEach, ← heach]
  rfl

def rulesOfSharedId : List Rule :=
  [{ id := "hosts"
     recommendations := [
      { id := "down", trigger := some (.compare (.comparison .gt) "size(q_hosts:STATE)" "0") },
      { id := "pair", trigger := some (.compare (.comparison .eq) "size(q_hosts:HOST)" "2") }] },
    { id := "empty" },
    { id := "hosts"
      recommendations := [
      { id := "many", trigger := some (.any [
        .compare (.comparison .lt) "size(q_hosts:HOST)" "many",
        .node (.logical .or) "" "" []]) },
      { id := "odd", trigger := some (.node (.unrecognized "XOR") "" "" []) },
      { id := "none" }] }]

theorem evaluation_reports_rules_of_shared_id :
    let kb := (KnowledgeBase.empty.append "q_hosts:HOST" "hana01").append "q_hosts:HOST" "hana02"
    let insights : List (String × List Outcome) :=
      [("empty", []), ("hosts", [⟨"down", false⟩, ⟨"pair", true⟩, ⟨"many", false⟩,
        ⟨"odd", false⟩, ⟨"none", false⟩])]
    (evaluate rulesOfSharedId kb false).value.1.entries = insights ∧
    (evaluate rulesOfSharedId kb true).value.1.entries = insights ∧
    (evaluate rulesOfSharedId kb false).value.2 = [] ∧
    (evaluate rulesOfSharedId kb true).value.2 = [
      ⟨"hosts", "down", "knowledge base key not found: q_hosts:STATE"⟩,
      ⟨"hosts", "many", "operand 'many' is not numeric"⟩,
      ⟨"hosts", "many", "OR node has no child evaluations"⟩,
      ⟨"hosts", "odd", "unrecognized operation: XOR"⟩] := by
  intro kb insights
  obtain ⟨hmodes, -, hnone, hfound, heach, -⟩ :=
    evaluation_reports_each_recommendation rulesOfSharedId kb
  have hentries : (evaluate rulesOfSharedId kb false).value.1.entries = insights := by
    rw [heach]
    decide +kernel
  refine ⟨hentries, hmodes ▸ hentries, hnone, hfound.trans ?_⟩
  decide +kernel

end RuleSet
end HanaInsights
