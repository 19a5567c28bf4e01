import Mathlib.Algebra.Order.Group.Multiset
import Mathlib.Tactic.Abel
import HanaInsights.Proofs.Repeated
import HanaInsights.Proofs.Shape
import HanaInsights.Proofs.Trimmed
import HanaInsights.Rule.Validation
set_option autoImplicit false

namespace HanaInsights

def Trigger.reason (t : Trigger) : String :=
  ((t.nodes.findSome? localFault?).map ShapeFault.message).getD ""

def reportIf (wrong : Prop) [Decidable wrong] (e : RuleError) : List RuleError :=
  if wrong then [e] else []

section
variable {wrong : Prop} [Decidable wrong] {e e' : RuleError}

@[simp] theorem mem_reportIf : e' ∈ reportIf wrong e ↔ wrong ∧ e' = e := by
  by_cases h : wrong <;> simp [reportIf, h]

@[simp] theorem reportIf_eq_nil_iff : reportIf wrong e = [] ↔ ¬ wrong := by
  by_cases h : wrong <;> simp [reportIf, h]

theorem flatMap_reportIf {α : Type} (wrong : α → Prop) [DecidablePred wrong]
    (error : α → RuleError) (xs : List α) :
    xs.flatMap (fun x => reportIf (wrong x) (error x)) =
      (xs.filter fun x => decide (wrong x)).map error := by
  induction xs with
  | nil => rfl
  | cons x rest ih =>
    rw [List.flatMap_cons, ih]
    by_cases h : wrong x <;> simp [reportIf, h]

end

/-- Some query of some rule has a column that is spelled like the key. -/
def RuleSet.Declares (rules : List Rule) (key : String) : Prop :=
  ∃ rule ∈ rules, ∃ q ∈ rule.queries, ∃ column ∈ q.columns, q.name ++ ":" ++ column = key

instance (rules : List Rule) (key : String) : Decidable (RuleSet.Declares rules key) :=
  inferInstanceAs (Decidable (∃ rule ∈ rules, ∃ q ∈ rule.queries, ∃ column ∈ q.columns,
    q.name ++ ":" ++ column = key))

theorem RuleSet.mem_keys_iff_declares {rules : List Rule} {key : String} :
    key ∈ rules.flatMap Rule.keys ↔ Declares rules key := by
  simp only [List.mem_flatMap, Rule.keys, Query.keys, columnKey, List.mem_map, Declares]

namespace Recommendation
section
variable (rule : String) (r : Recommendation)

def nameless : List RuleError :=
  reportIf (r.id = "") (.invalidNode rule "" "recommendation has an empty id")

def repetition : List RuleError :=
  reportIf (r.id ≠ "") (.duplicateRecommendation rule r.id)

def misshapen : List RuleError :=
  r.trigger.toList.flatMap fun t => reportIf (¬ t.WellShaped) (.invalidNode rule r.id t.reason)

/-- One for each operand, wherever it stands in the trigger. -/
def undeclared (rules : List Rule) : List RuleError :=
  r.trigger.toList.flatMap fun t => (t.operands.filterMap Operand.sizeKey?).flatMap fun key =>
    reportIf (¬ RuleSet.Declares rules key) (.unknownKey rule r.id key)

theorem idErrors_eq (seen : List String) :
    r.idErrors rule seen = r.nameless rule ++
      (if seen.contains r.id then [r] else []).flatMap (repetition rule) := by
  by_cases hid : r.id = "" <;> by_cases hseen : r.id ∈ seen <;>
    simp [idErrors, nameless, repetition, reportIf, hid, hseen]

theorem shapeErrors_eq : r.shapeErrors rule = r.misshapen rule := by
  cases ht : r.trigger with
  | none => simp [shapeErrors, misshapen, ht]
  | some t =>
    cases hf : t.fault? with
    | none =>
      have hshape : t.WellShaped := Trigger.fault?_eq_none_iff.1 hf
      simp [shapeErrors, misshapen, ht, hf, hshape]
    | some fault =>
      have hshape : ¬ t.WellShaped := by simp [← Trigger.fault?_eq_none_iff, hf]
      have hreason : t.reason = fault.message := by
        simp [Trigger.reason, ← Trigger.fault?_eq_findSome?, hf]
      simp [shapeErrors, misshapen, reportIf, ht, hf, hshape, hreason]

end
end Recommendation

namespace Rule

def blank (rule : Rule) : List RuleError := reportIf (Text.trim rule.id = "") .missingId

def repetition (rule : Rule) : List RuleError := reportIf (rule.id ≠ "") (.duplicateRule rule.id)

def nameless (rule : Rule) : List RuleError := rule.recommendations.flatMap (·.nameless rule.id)

def misshapen (rule : Rule) : List RuleError := rule.recommendations.flatMap (·.misshapen rule.id)

def repeatedRecommendations (rule : Rule) : List RuleError :=
  (repeated (·.id) rule.recommendations).flatMap (·.repetition rule.id)

def undeclared (rules : List Rule) (rule : Rule) : List RuleError :=
  rule.recommendations.flatMap (·.undeclared rule.id rules)

theorem blank_eq_nil_iff {rule : Rule} : rule.blank = [] ↔ Text.trim rule.id ≠ "" :=
  reportIf_eq_nil_iff

theorem nameless_eq_nil_iff {rule : Rule} :
    rule.nameless = [] ↔ ∀ r ∈ rule.recommendations, r.id ≠ "" := by
  simp [nameless, Recommendation.nameless]

theorem misshapen_eq_nil_iff {rule : Rule} :
    rule.misshapen = [] ↔ ∀ r ∈ rule.recommendations, ∀ t ∈ r.trigger, t.WellShaped := by
  simp [misshapen, Recommendation.misshapen]

theorem mem_undeclared_iff {rules : List Rule} {rule : Rule} {e : RuleError} :
    e ∈ rule.undeclared rules ↔ ∃ r ∈ rule.recommendations, ∃ t ∈ r.trigger, ∃ key ∈ t.keys,
      ¬ RuleSet.Declares rules key ∧ e = .unknownKey rule.id r.id key := by
  simp only [undeclared, Recommendation.undeclared, ← Trigger.keys_eq_sizes_of_operands,
    List.mem_flatMap, Option.mem_toList, Option.mem_def, mem_reportIf]

theorem undeclared_eq_nil_iff {rules : List Rule} {rule : Rule} :
    rule.undeclared rules = [] ↔ ∀ r ∈ rule.recommendations, ∀ t ∈ r.trigger, ∀ key ∈ t.keys,
      RuleSet.Declares rules key := by
  simp only [undeclared, Recommendation.undeclared, ← Trigger.keys_eq_sizes_of_operands,
    List.flatMap_eq_nil_iff, Option.mem_toList, Option.mem_def, reportIf_eq_nil_iff, not_not]

/-- What is wrong with a rule and is reported under its id, its queries and the id itself apart. -/
def faults (rules : List Rule) (rule : Rule) : List RuleError :=
  rule.nameless ++ rule.misshapen ++ rule.repeatedRecommendations ++ rule.undeclared rules

theorem rule?_of_mem_faults {rules : List Rule} {rule : Rule} {e : RuleError}
    (h : e ∈ rule.faults rules) : e.rule? = some rule.id := by
  simp only [faults, nameless, misshapen, repeatedRecommendations, undeclared,
    Recommendation.nameless, Recommendation.misshapen, Recommendation.repetition,
    Recommendation.undeclared, List.mem_append, List.mem_flatMap, mem_reportIf] at h
  rcases h with ((⟨_, _, _, rfl⟩ | ⟨_, _, _, _, _, rfl⟩) | ⟨_, _, _, rfl⟩) |
    ⟨_, _, _, _, _, _, _, rfl⟩ <;> rfl

def ownedQueries (rule : Rule) : List (String × Query) := rule.queries.map fun q => (rule.id, q)

theorem coe_recommendationErrors (rule : String) (seen : List String)
    (recommendations : List Recommendation) :
    (↑(recommendationErrors rule seen recommendations) : Multiset RuleError) =
      ↑(recommendations.flatMap (·.nameless rule)) +
      ↑(recommendations.flatMap (·.misshapen rule)) +
      ↑((repeatedAfter (·.id) seen recommendations).flatMap (·.repetition rule)) := by
  induction recommendations generalizing seen with
  | nil => rfl
  | cons r rest ih =>
    rw [recommendationErrors, Recommendation.idErrors_eq, Recommendation.shapeErrors_eq,
      repeatedAfter]
    simp only [List.flatMap_cons, List.flatMap_append, ← Multiset.coe_add, ih]
    abel

theorem hasBlankId_iff {rule : Rule} : rule.hasBlankId = true ↔ Text.trim rule.id = "" :=
  Text.trim_eq_empty_iff.symm

theorem coe_errors (rule : Rule) :
    (↑rule.errors : Multiset RuleError) =
      ↑rule.blank + ↑rule.nameless + ↑rule.misshapen + ↑rule.repeatedRecommendations := by
  have hblank : (if rule.hasBlankId then [RuleError.missingId] else []) = rule.blank := by
    by_cases h : rule.hasBlankId = true <;> simp [blank, reportIf, ← hasBlankId_iff, h]
  rw [errors, hblank, ← Multiset.coe_add, coe_recommendationErrors, repeatedAfter_nil, nameless,
    misshapen, repeatedRecommendations]
  abel

theorem errors_eq_nil_iff {rule : Rule} :
    rule.errors = [] ↔ rule.blank = [] ∧ rule.nameless = [] ∧ rule.misshapen = [] ∧
      rule.repeatedRecommendations = [] := by
  rw [← Multiset.coe_eq_zero, coe_errors]
  simp only [Multiset.coe_add, Multiset.coe_eq_zero, List.append_eq_nil_iff, and_assoc]

theorem repeatedQueries_eq (rule : String) (seen : List String) (queries : List Query) :
    repeatedQueries rule seen queries =
      (repeatedAfter (fun p : String × Query => p.2.name) seen
        (queries.map fun q => (rule, q))).map fun p => .duplicateQuery p.1 p.2.name := by
  induction queries generalizing seen with
  | nil => rfl
  | cons q rest ih =>
    rw [repeatedQueries, ih, List.map_cons, repeatedAfter, List.map_append]
    by_cases h : q.name ∈ seen <;> simp [h]

theorem unknownKeys_eq (rules : List Rule) (rule : Rule) :
    rule.unknownKeys (rules.flatMap Rule.keys) = rule.undeclared rules := by
  apply List.flatMap_congr
  intro r _
  cases ht : r.trigger with
  | none => simp [Recommendation.undeclared, ht]
  | some t =>
    simp only [Recommendation.undeclared, ht, Option.toList_some, List.flatMap_singleton,
      ← Trigger.keys_eq_sizes_of_operands, flatMap_reportIf, ← RuleSet.mem_keys_iff_declares,
      List.contains_eq_mem, decide_not]

end Rule

namespace RuleSet

def repeatedRules (rules : List Rule) : List RuleError :=
  (repeated (·.id) rules).flatMap Rule.repetition

def repeatedQueries (rules : List Rule) : List RuleError :=
  (repeated (fun p : String × Query => p.2.name) (rules.flatMap Rule.ownedQueries)).map fun p =>
    .duplicateQuery p.1 p.2.name

/-- One error for each place, kind by kind. -/
def violations (rules : List Rule) : List RuleError :=
  rules.flatMap Rule.blank ++ rules.flatMap Rule.nameless ++ rules.flatMap Rule.misshapen ++
    rules.flatMap Rule.repeatedRecommendations ++ repeatedRules rules ++ repeatedQueries rules ++
    rules.flatMap (Rule.undeclared rules)

theorem coe_declarationErrors (ids names : List String) (rules : List Rule) :
    (↑(declarationErrors ids names rules) : Multiset RuleError) =
      ↑(rules.flatMap Rule.blank) + ↑(rules.flatMap Rule.nameless) +
      ↑(rules.flatMap Rule.misshapen) + ↑(rules.flatMap Rule.repeatedRecommendations) +
      ↑((repeatedAfter (·.id) ids rules).flatMap Rule.repetition) +
      ↑((repeatedAfter (fun p : String × Query => p.2.name) names
        (rules.flatMap Rule.ownedQueries)).map fun p =>
          RuleError.duplicateQuery p.1 p.2.name) := by
  induction rules generalizing ids names with
  | nil => rfl
  | cons rule rest ih =>
    have hrule : (if !rule.id.isEmpty && ids.contains rule.id then
          [RuleError.duplicateRule rule.id] else []) =
        (if ids.contains rule.id then [rule] else []).flatMap Rule.repetition := by
      by_cases hid : rule.id = "" <;> by_cases hids : rule.id ∈ ids <;>
        simp [Rule.repetition, reportIf, hid, hids]
    have hnames : (rule.ownedQueries.map fun p => p.2.name) = rule.queries.map (·.name) := by
      simp [Rule.ownedQueries]
    have howned : (rule.queries.map fun q => (rule.id, q)) = rule.ownedQueries := rfl
    rw [declarationErrors, Rule.declarationErrors, hrule, Rule.repeatedQueries_eq, howned,
      repeatedAfter]
    simp only [List.flatMap_cons, List.flatMap_append, repeatedAfter_append, List.map_append,
      ← Multiset.coe_add, Rule.coe_errors, ih, hnames]
    abel

theorem coe_errors (rules : List Rule) :
    (↑(errors rules) : Multiset RuleError) = ↑(violations rules) := by
  have hunknown : rules.flatMap (Rule.unknownKeys (rules.flatMap Rule.keys)) =
      rules.flatMap (Rule.undeclared rules) :=
    List.flatMap_congr fun rule _ => Rule.unknownKeys_eq rules rule
  rw [errors, hunknown]
  simp only [violations, ← Multiset.coe_add, coe_declarationErrors, repeatedAfter_nil,
    repeatedRules, repeatedQueries]

theorem mem_errors_iff {rules : List Rule} {e : RuleError} :
    e ∈ errors rules ↔ e ∈ violations rules := by
  rw [← Multiset.mem_coe, coe_errors, Multiset.mem_coe]

theorem errors_eq_nil_iff {rules : List Rule} : errors rules = [] ↔ violations rules = [] := by
  rw [← Multiset.coe_eq_zero, coe_errors, Multiset.coe_eq_zero]

theorem mem_errors_of_mem_faults {rules : List Rule} {rule : Rule} (hrule : rule ∈ rules)
    {e : RuleError} (h : e ∈ rule.faults rules) : e ∈ errors rules := by
  simp only [Rule.faults, List.mem_append] at h
  simp only [mem_errors_iff, violations, List.mem_append]
  rcases h with ((h | h) | h) | h
  all_goals
    have hplace := List.mem_flatMap.2 ⟨rule, hrule, h⟩
    simp only [hplace, true_or, or_true]

theorem faults_eq_nil_of_valid {rules : List Rule} (hvalid : errors rules = []) {rule : Rule}
    (hrule : rule ∈ rules) : rule.faults rules = [] :=
  List.eq_nil_iff_forall_not_mem.2 fun _ he =>
    List.not_mem_nil (hvalid ▸ mem_errors_of_mem_faults hrule he)

theorem map_name_ownedQueries (rules : List Rule) :
    ((rules.flatMap Rule.ownedQueries).map fun p => p.2.name) =
      (rules.flatMap (·.queries)).map (·.name) := by
  simp only [List.map_flatMap, Rule.ownedQueries, List.map_map, Function.comp_def]

theorem repeatedQueries_eq_nil_iff {rules : List Rule} :
    repeatedQueries rules = [] ↔ ((rules.flatMap (·.queries)).map (·.name)).Nodup := by
  rw [repeatedQueries, List.map_eq_nil_iff, repeated_eq_nil_iff, map_name_ownedQueries]

theorem duplicateQuery_mem_errors {before after : List Rule} {rule : Rule}
    {queriesBefore queriesAfter : List Query} {q : Query}
    (hqueries : rule.queries = queriesBefore ++ q :: queriesAfter)
    (h : q.name ∈ (before.flatMap (·.queries) ++ queriesBefore).map (·.name)) :
    .duplicateQuery rule.id q.name ∈ errors (before ++ rule :: after) := by
  have hrepeated : (rule.id, q) ∈ repeated (fun p : String × Query => p.2.name)
      ((before ++ rule :: after).flatMap Rule.ownedQueries) := by
    refine mem_repeated.2 ⟨before.flatMap Rule.ownedQueries ++
      queriesBefore.map fun q => (rule.id, q), (queriesAfter.map fun q => (rule.id, q)) ++
        after.flatMap Rule.ownedQueries, ?_, ?_⟩
    · simp [Rule.ownedQueries, hqueries]
    · rw [List.map_append, map_name_ownedQueries]
      simpa [Function.comp_def] using h
  have hviolation : .duplicateQuery rule.id q.name ∈ repeatedQueries (before ++ rule :: after) :=
    List.mem_map.2 ⟨_, hrepeated, rfl⟩
  simp [mem_errors_iff, violations, hviolation]

theorem duplicateRule_mem_errors {before after : List Rule} {rule : Rule} (hid : rule.id ≠ "")
    (h : rule.id ∈ before.map (·.id)) :
    .duplicateRule rule.id ∈ errors (before ++ rule :: after) := by
  have hrepeated : rule ∈ repeated (·.id) (before ++ rule :: after) :=
    mem_repeated.2 ⟨before, after, rfl, h⟩
  have hviolation : .duplicateRule rule.id ∈ repeatedRules (before ++ rule :: after) :=
    List.mem_flatMap.2 ⟨rule, hrepeated, by simp [Rule.repetition, hid]⟩
  simp [mem_errors_iff, violations, hviolation]

theorem missingId_mem_errors {rules : List Rule} {rule : Rule} (h : rule ∈ rules)
    (hid : rule.hasBlankId = true) : .missingId ∈ errors rules := by
  have hviolation : .missingId ∈ rules.flatMap Rule.blank :=
    List.mem_flatMap.2 ⟨rule, h, by simp [Rule.blank, Rule.hasBlankId_iff.1 hid]⟩
  simp [mem_errors_iff, violations, hviolation]

end RuleSet
end HanaInsights
