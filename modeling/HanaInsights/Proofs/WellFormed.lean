import HanaInsights.Proofs.Size
set_option autoImplicit false

namespace HanaInsights

theorem Trigger.mem_keys_iff {t : Trigger} {key : String} :
    key ∈ t.keys ↔ Operand.Plain key ∧ Operand.sizeOf key ∈ t.operands := by
  rw [keys_eq_sizes_of_operands, List.mem_filterMap]
  simp only [Operand.sizeKey?_eq_some_iff]
  constructor
  · rintro ⟨operand, hmem, rfl, hplain⟩
    exact ⟨hplain, hmem⟩
  · rintro ⟨hplain, hmem⟩
    exact ⟨_, hmem, rfl, hplain⟩

namespace RuleSet

/-- Ids and names tell rules, queries and the recommendations of a rule apart, triggers are well
shaped, and every size is of a column that some rule declares, before or after. -/
structure WellFormed (rules : List Rule) : Prop where
  named : ∀ rule ∈ rules, Text.trim rule.id ≠ ""
  distinct : (rules.map (·.id)).Nodup
  distinctQueries : ((rules.flatMap (·.queries)).map (·.name)).Nodup
  namedRecommendations : ∀ rule ∈ rules, ∀ r ∈ rule.recommendations, r.id ≠ ""
  distinctRecommendations : ∀ rule ∈ rules, (rule.recommendations.map (·.id)).Nodup
  shaped : ∀ rule ∈ rules, ∀ r ∈ rule.recommendations, ∀ t ∈ r.trigger, t.WellShaped
  declared : ∀ rule ∈ rules, ∀ r ∈ rule.recommendations, ∀ t ∈ r.trigger, ∀ key,
    Operand.Plain key → Operand.sizeOf key ∈ t.operands → Declares rules key

section
variable {rules : List Rule}

theorem repeatedRules_eq_nil_iff (h : ∀ rule ∈ rules, Text.trim rule.id ≠ "") :
    repeatedRules rules = [] ↔ (rules.map (·.id)).Nodup := by
  apply flatMap_repeated_eq_nil_iff
  intro rule hrule hnil
  have hid : rule.id = "" := by simpa [Rule.repetition] using hnil
  exact h rule hrule (by rw [hid]; rfl)

theorem repeatedRecommendations_eq_nil_iff {rule : Rule}
    (h : ∀ r ∈ rule.recommendations, r.id ≠ "") :
    rule.repeatedRecommendations = [] ↔ (rule.recommendations.map (·.id)).Nodup := by
  apply flatMap_repeated_eq_nil_iff
  intro r hr hnil
  exact h r hr (by simpa [Recommendation.repetition] using hnil)

theorem undeclared_eq_nil_iff_operands {rule : Rule} :
    rule.undeclared rules = [] ↔ ∀ r ∈ rule.recommendations, ∀ t ∈ r.trigger, ∀ key,
      Operand.Plain key → Operand.sizeOf key ∈ t.operands → Declares rules key := by
  simp only [Rule.undeclared_eq_nil_iff, Trigger.mem_keys_iff, and_imp]

theorem violations_eq_nil_iff : violations rules = [] ↔ WellFormed rules := by
  simp only [violations, List.append_eq_nil_iff, List.flatMap_eq_nil_iff, Rule.blank_eq_nil_iff,
    Rule.nameless_eq_nil_iff, Rule.misshapen_eq_nil_iff, undeclared_eq_nil_iff_operands,
    repeatedQueries_eq_nil_iff]
  constructor
  · rintro ⟨⟨⟨⟨⟨⟨hnamed, hrecommendations⟩, hshaped⟩, hdistinct⟩, hrules⟩, hqueries⟩, hdeclared⟩
    exact {
      named := hnamed
      distinct := (repeatedRules_eq_nil_iff hnamed).1 hrules
      distinctQueries := hqueries
      namedRecommendations := hrecommendations
      distinctRecommendations := fun rule hrule =>
        (repeatedRecommendations_eq_nil_iff (hrecommendations rule hrule)).1 (hdistinct rule hrule)
      shaped := hshaped
      declared := hdeclared }
  · intro h
    refine ⟨⟨⟨⟨⟨⟨h.named, h.namedRecommendations⟩, h.shaped⟩, fun rule hrule => ?_⟩,
      (repeatedRules_eq_nil_iff h.named).2 h.distinct⟩, h.distinctQueries⟩, h.declared⟩
    exact (repeatedRecommendations_eq_nil_iff (h.namedRecommendations rule hrule)).2
      (h.distinctRecommendations rule hrule)

/-- The errors are the violations, each as often as it occurs, and a set without errors is one that
is well formed. -/
theorem validation_reports_violations (rules : List Rule) :
    (↑(errors rules) : Multiset RuleError) = ↑(violations rules) ∧
      (errors rules = [] ↔ WellFormed rules) :=
  ⟨coe_errors rules, errors_eq_nil_iff.trans violations_eq_nil_iff⟩

end
end RuleSet
end HanaInsights
