import HanaInsights.Proofs.Merging
import HanaInsights.Proofs.Saved
import HanaInsights.Publish.Basic
set_option autoImplicit false

/-!
Insights as a flat list of samples. Under each id the samples are what was recorded for it, in that
order, and the ids are in order; so nothing but the entries without outcomes is lost.
-/

namespace HanaInsights
namespace Insights

def held (insights : Insights) (id : String) : List Outcome := (insights.get? id).getD []

theorem held_append (insights : Insights) (rule : String) (outcomes : List Outcome) (id : String) :
    (insights.append rule outcomes).held id =
      insights.held id ++ if rule = id then outcomes else [] := by
  rw [held, get?_append, held]
  by_cases h : rule = id <;> cases insights.get? id <;> simp [h, joined]

theorem held_merge (insights other : Insights) (id : String) :
    (insights.merge other).held id = insights.held id ++ other.held id := by
  rw [held, get?_merge, held, held]
  cases insights.get? id <;> cases other.get? id <;> simp [joined]

theorem filter_samples (insights : Insights) (id : String) :
    (insights.samples.filter fun s => s.ruleId == id) =
      (insights.held id).map (Outcome.sample id) := by
  obtain ⟨entries, sorted⟩ := insights
  show ((entries.flatMap fun e => e.2.map (Outcome.sample e.1)).filter fun s => s.ruleId == id) =
    ((Keyed.lookup id entries).getD []).map (Outcome.sample id)
  induction entries with
  | nil => rfl
  | cons e rest ih =>
    obtain ⟨rule, outcomes⟩ := e
    rw [List.pairwise_cons] at sorted
    rw [List.flatMap_cons, List.filter_append, ih sorted.2, Keyed.lookup]
    by_cases h : rule = id
    · subst h
      have hrest : Keyed.lookup rule rest = none := Keyed.lookup_eq_none_of_lt sorted.1
      simp [hrest, List.filter_map, Function.comp_def, Outcome.sample]
    · simp [h, List.filter_map, Function.comp_def, Outcome.sample]

theorem sorted_samples (insights : Insights) :
    insights.samples.Pairwise fun a b => Utf8.encode a.ruleId ≤ Utf8.encode b.ruleId := by
  refine List.pairwise_flatMap.2 ⟨fun e _ => ?_, insights.sorted.imp fun {a b} hlt s hs s' hs' => ?_⟩
  · exact List.pairwise_map.2 (List.pairwise_of_forall fun _ _ => List.le_refl _)
  · obtain ⟨_, -, rfl⟩ := List.mem_map.1 hs
    obtain ⟨_, -, rfl⟩ := List.mem_map.1 hs'
    exact List.le_of_lt (Utf8.encode_lt_of_lt hlt)

theorem triggered_eq_countP (insights : Insights) :
    insights.triggered = insights.samples.countP (·.result) := by
  obtain ⟨entries, sorted⟩ := insights
  show ((entries.map (·.2)).flatMap fun outcomes => outcomes.filter (·.result)).length =
    (entries.flatMap fun e => e.2.map (Outcome.sample e.1)).countP (·.result)
  clear sorted
  induction entries with
  | nil => rfl
  | cons e rest ih =>
    rw [List.map_cons, List.flatMap_cons, List.flatMap_cons, List.length_append,
      List.countP_append, ih, List.countP_map, ← List.countP_eq_length_filter]
    rfl

theorem triggered_merge (insights other : Insights) :
    (insights.merge other).triggered = insights.triggered + other.triggered := by
  rw [triggered_eq_countP, triggered_eq_countP, triggered_eq_countP,
    (samples_merge insights other).countP_eq, List.countP_append]

theorem length_samples_merge (insights other : Insights) :
    (insights.merge other).samples.length = insights.samples.length + other.samples.length := by
  rw [(samples_merge insights other).length_eq, List.length_append]

def ofSamples (samples : List Sample) : Insights :=
  samples.foldl (fun acc s => acc.append s.ruleId [⟨s.recommendationId, s.result⟩]) empty

/-- The entries with an outcome. -/
def filled (insights : Insights) : Insights :=
  ⟨insights.entries.filter fun e => !e.2.isEmpty, insights.sorted.filter _⟩

theorem foldl_append_each (rule : String) (outcomes : List Outcome) (insights : Insights)
    (held : List Outcome) :
    outcomes.foldl (fun acc o => acc.append rule [o]) (insights.append rule held) =
      insights.append rule (held ++ outcomes) := by
  induction outcomes generalizing held with
  | nil => simp
  | cons o outcomes ih => rw [List.foldl_cons, append_append, ih, List.append_assoc]; rfl

theorem foldl_samples (entries : List (String × List Outcome)) (insights : Insights) :
    (entries.flatMap fun e => e.2.map (Outcome.sample e.1)).foldl
        (fun acc s => acc.append s.ruleId [⟨s.recommendationId, s.result⟩]) insights =
      (entries.filter fun e => !e.2.isEmpty).foldl (fun acc e => acc.append e.1 e.2) insights := by
  induction entries generalizing insights with
  | nil => rfl
  | cons e rest ih =>
    obtain ⟨rule, outcomes⟩ := e
    rw [List.flatMap_cons, List.foldl_append, ih, List.foldl_map]
    cases outcomes with
    | nil => rfl
    | cons o outcomes =>
      have heach := foldl_append_each rule outcomes insights [o]
      rw [List.singleton_append] at heach
      rw [List.filter_cons_of_pos rfl, List.foldl_cons, List.foldl_cons, ← heach]
      rfl

theorem ofSamples_samples (insights : Insights) : ofSamples insights.samples = insights.filled := by
  have hmerge : ofSamples insights.samples = empty.merge insights.filled :=
    foldl_samples insights.entries empty
  refine hmerge.trans (Keyed.ext_get? fun id => ?_)
  rw [get?_merge]
  exact Option.merge_none_left

end Insights

/-- A way to insights: rules are evaluated into what is there, with or without diagnostics, and
other insights are merged in. -/
inductive Assembly where
  | empty
  | evaluate (before : Assembly) (kb : KnowledgeBase) (rule : Rule)
  | diagnose (before : Assembly) (kb : KnowledgeBase) (rule : Rule)
  | merge (before other : Assembly)

namespace Assembly

def insights : Assembly → Insights
  | .empty => Insights.empty
  | .evaluate before kb rule => (before.insights.recordLogged kb rule).value
  | .diagnose before kb rule => (Insights.diagnoseEach (before.insights, []) kb rule).1
  | .merge before other => before.insights.merge other.insights

/-- Every outcome when it was recorded; what is merged in comes after what is there. -/
def recorded : Assembly → List Sample
  | .empty => []
  | .evaluate before kb rule | .diagnose before kb rule =>
    before.recorded ++ rule.recommendations.map fun r => ⟨rule.id, r.id, Trigger.fires kb r.trigger⟩
  | .merge before other => before.recorded ++ other.recorded

theorem insights_evaluate (before : Assembly) (kb : KnowledgeBase) (rule : Rule) :
    (evaluate before kb rule).insights = before.insights.record kb rule := rfl

theorem insights_diagnose (before : Assembly) (kb : KnowledgeBase) (rule : Rule) :
    (diagnose before kb rule).insights = before.insights.record kb rule := by
  rw [insights, Insights.diagnoseEach_eq, Insights.recordEach_eq]

theorem filter_samples_record (insights : Insights) (kb : KnowledgeBase) (rule : Rule)
    (id : String) :
    ((insights.record kb rule).samples.filter fun s => s.ruleId == id) =
      (insights.samples.filter fun s => s.ruleId == id) ++
        ((rule.recommendations.map fun r =>
          Sample.mk rule.id r.id (Trigger.fires kb r.trigger)).filter fun s => s.ruleId == id) := by
  rw [Insights.filter_samples, Insights.filter_samples, Insights.record, Insights.held_append,
    List.map_append]
  by_cases h : rule.id = id
  · subst h
    simp [Rule.outcomes, List.filter_map, Function.comp_def, Outcome.sample, Recommendation.outcome]
  · simp [h, List.filter_map, Function.comp_def]

theorem filter_samples_insights (a : Assembly) (id : String) :
    (a.insights.samples.filter fun s => s.ruleId == id) =
      a.recorded.filter fun s => s.ruleId == id := by
  induction a with
  | empty => rfl
  | evaluate before kb rule ih =>
    rw [insights_evaluate, filter_samples_record, ih, recorded, List.filter_append]
  | diagnose before kb rule ih =>
    rw [insights_diagnose, filter_samples_record, ih, recorded, List.filter_append]
  | merge before other hbefore hother =>
    rw [insights, Insights.filter_samples, Insights.held_merge, List.map_append,
      ← Insights.filter_samples, ← Insights.filter_samples, hbefore, hother, recorded,
      List.filter_append]

end Assembly

theorem Insights.ofJson?_toJson (insights : Insights) :
    Insights.ofJson? insights.toJson = some insights := by
  have hperm : ∀ ms : List (String × Json), (id ms).Perm ms := fun _ => .refl _
  have hdecode := Insights.decode?_arranged_toJson hperm .json insights
  rwa [Json.arranged_id] at hdecode

theorem Run.field?_payload (run : Run) (c : PublishConfig) :
    (run.payload c).field? "samples" = some (.array (run.insights.samples.map Sample.toJson)) ∧
      (run.payload c).field? "insights" = some run.insights.toJson := by
  rw [Run.payload]
  split <;> simp [Json.field?, Json.member?]

/-- However insights came about, their samples are what was recorded, sorted by id and otherwise in
the order in which it was recorded. They make up all entries but those without outcomes, they are
counted as the insights are, and both are sent whatever labels go with them. -/
theorem Insights.samples_keep_recorded (a : Assembly) :
    a.insights.samples.Pairwise (fun s s' => Utf8.encode s.ruleId ≤ Utf8.encode s'.ruleId) ∧
    (∀ id, (a.insights.samples.filter fun s => s.ruleId == id) =
      a.recorded.filter fun s => s.ruleId == id) ∧
    (Insights.ofSamples a.insights.samples).entries =
      a.insights.entries.filter (fun e => !e.2.isEmpty) ∧
    a.insights.triggered = a.insights.samples.countP (·.result) ∧
    (∀ b : Assembly, (a.merge b).insights.triggered =
        a.insights.triggered + b.insights.triggered ∧
      (a.merge b).insights.samples.length =
        a.insights.samples.length + b.insights.samples.length) ∧
    ∀ (run : Run) (c : PublishConfig), ∃ outcomes,
      ({ run with insights := a.insights }.payload c).field? "samples" =
        some (.array (a.insights.samples.map fun s => .object [("ruleId", .string s.ruleId),
          ("recommendationId", .string s.recommendationId), ("result", .bool s.result)])) ∧
      ({ run with insights := a.insights }.payload c).field? "insights" = some outcomes ∧
      Insights.ofJson? outcomes = some a.insights := by
  refine ⟨a.insights.sorted_samples, a.filter_samples_insights, ?_,
    a.insights.triggered_eq_countP, fun b => ⟨?_, ?_⟩, fun run c => ?_⟩
  · rw [ofSamples_samples, filled]
  · exact triggered_merge a.insights b.insights
  · exact length_samples_merge a.insights b.insights
  · obtain ⟨hsamples, hinsights⟩ := Run.field?_payload { run with insights := a.insights } c
    exact ⟨_, hsamples, hinsights, ofJson?_toJson a.insights⟩

end HanaInsights
