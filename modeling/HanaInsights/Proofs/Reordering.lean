import HanaInsights.Proofs.Dependence
import HanaInsights.Proofs.Merging
import HanaInsights.Proofs.Strictness
import HanaInsights.Proofs.WellFormed
set_option autoImplicit false

/-!
The order of rules. Rules in another order have their queries executed in another order, which shows
in the values under a key that several columns are spelled like. It does not show in their number,
so a set without errors has the same outcomes in any order.
-/

namespace HanaInsights

theorem filter_key_eq_of_perm {α : Type} {key : α → String} {xs ys : List α} (h : xs.Perm ys)
    (hnodup : (xs.map key).Nodup) (k : String) :
    (xs.filter fun x => key x == k) = ys.filter fun x => key x == k := by
  have hperm := h.filter fun x => key x == k
  have hkeys : ((xs.filter fun x => key x == k).map key).Nodup :=
    (List.filter_sublist.map key).nodup hnodup
  have hkey : ∀ x ∈ xs.filter (fun x => key x == k), key x = k := fun x hx => by
    simpa using (List.mem_filter.1 hx).2
  cases hxs : xs.filter fun x => key x == k with
  | nil => exact (hxs ▸ hperm).nil_eq
  | cons x rest =>
    rw [hxs] at hperm hkeys hkey
    cases rest with
    | nil => exact List.singleton_perm.1 hperm
    | cons y rest =>
      have hxy : key x = key y := (hkey x (by simp)).trans (hkey y (by simp)).symm
      simp [hxy] at hkeys

namespace RuleSet

section
variable {rules rules' : List Rule}

theorem declares_of_perm (h : rules'.Perm rules) {key : String} (hdeclares : Declares rules key) :
    Declares rules' key := by
  obtain ⟨rule, hrule, hdeclared⟩ := hdeclares
  exact ⟨rule, h.mem_iff.2 hrule, hdeclared⟩

theorem WellFormed.of_perm (h : WellFormed rules) (hperm : rules'.Perm rules) :
    WellFormed rules' where
  named rule hrule := h.named rule (hperm.mem_iff.1 hrule)
  distinct := (hperm.map (·.id)).nodup_iff.2 h.distinct
  distinctQueries := ((hperm.flatMap_right Rule.queries).map Query.name).nodup_iff.2 h.distinctQueries
  namedRecommendations rule hrule := h.namedRecommendations rule (hperm.mem_iff.1 hrule)
  distinctRecommendations rule hrule := h.distinctRecommendations rule (hperm.mem_iff.1 hrule)
  shaped rule hrule := h.shaped rule (hperm.mem_iff.1 hrule)
  declared rule hrule r hr t ht key hplain hmem :=
    declares_of_perm hperm (h.declared rule (hperm.mem_iff.1 hrule) r hr t ht key hplain hmem)

theorem errors_eq_nil_iff_wellFormed : errors rules = [] ↔ WellFormed rules :=
  errors_eq_nil_iff.trans violations_eq_nil_iff

theorem errors_eq_nil_of_perm (hvalid : errors rules = []) (hperm : rules'.Perm rules) :
    errors rules' = [] :=
  errors_eq_nil_iff_wellFormed.2 ((errors_eq_nil_iff_wellFormed.1 hvalid).of_perm hperm)

theorem evaluate_congr {kb kb' : KnowledgeBase} (h : ∀ key, kb.SameSize kb' key)
    (rules : List Rule) (diagnose : Bool) :
    evaluate rules kb diagnose = evaluate rules kb' diagnose := by
  have hdiagnose : Trigger.diagnose? kb = Trigger.diagnose? kb' :=
    funext fun t => Trigger.diagnose?_congr fun _ _ key _ => h key
  have houtcomes : Rule.outcomes kb = Rule.outcomes kb' :=
    funext fun rule => Rule.outcomes_congr fun key _ => h key
  have hdiagnostics : Rule.diagnostics kb = Rule.diagnostics kb' := by
    funext rule
    simp only [Rule.diagnostics, Recommendation.errors, hdiagnose]
  have hsilenced : Insights.silenced kb = Insights.silenced kb' := by
    funext rule
    simp only [Insights.silenced, Recommendation.errors, hdiagnose]
  simp only [evaluate, Insights.record, houtcomes, hdiagnostics, hsilenced]

end
end RuleSet

namespace Cycle

section
variable (execute : Executor) (strict : Bool) {rules rules' : List Rule}

theorem value_run (rules : List Rule) :
    (run execute strict rules).value =
      { rulesEvaluated := (select strict rules).value.length
        knowledgeBaseKeys := (knowledge execute strict rules).size
        insights := RuleSet.insights (knowledge execute strict rules) strict (select strict rules).value
        diagnostics := (RuleSet.evaluate (select strict rules).value
          (knowledge execute strict rules) strict).value.2 } := rfl

theorem value_select_of_valid (hvalid : RuleSet.errors rules = []) :
    (select strict rules).value = rules := by
  simp [select, hvalid, Logged.withLog]

theorem sameSize_of_perm (hvalid : RuleSet.errors rules = []) (hperm : rules'.Perm rules)
    (key : String) :
    (knowledge execute strict rules').SameSize (knowledge execute strict rules) key := by
  have hvalid' := RuleSet.errors_eq_nil_of_perm hvalid hperm
  rw [knowledge, knowledge, value_select_of_valid strict hvalid, value_select_of_valid strict hvalid',
    sameSize_collect_iff, distinctQueries_of_valid hvalid, distinctQueries_of_valid hvalid']
  exact ((hperm.flatMap_right _).flatMap_right _).length_eq

/-- Without errors, the same rules in another order have no errors either, and a cycle over them
finds the same insights and the same number of keys, and after a strict one the same diagnostics
stand in another order. -/
theorem reordering_keeps_findings (hvalid : RuleSet.errors rules = []) (hperm : rules'.Perm rules) :
    RuleSet.errors rules' = [] ∧
    (run execute strict rules').value.insights = (run execute strict rules).value.insights ∧
    (run execute strict rules').value.knowledgeBaseKeys =
      (run execute strict rules).value.knowledgeBaseKeys ∧
    (run execute strict rules').value.rulesEvaluated =
      (run execute strict rules).value.rulesEvaluated ∧
    (run execute strict rules').value.diagnostics.Perm
      (run execute strict rules).value.diagnostics := by
  have hvalid' := RuleSet.errors_eq_nil_of_perm hvalid hperm
  have hsizes := sameSize_of_perm execute strict hvalid hperm
  have hevaluate := RuleSet.evaluate_congr hsizes
  simp only [value_run, RuleSet.insights, hevaluate, value_select_of_valid strict hvalid,
    value_select_of_valid strict hvalid']
  refine ⟨hvalid', ?_, ?_, hperm.length_eq, ?_⟩
  · apply RuleSet.insights_congr
    exact filter_key_eq_of_perm hperm
      ((RuleSet.errors_eq_nil_iff_wellFormed.1 hvalid').distinct)
  · apply Keyed.size_eq_of_keys
    intro key
    have hsize := hsizes key
    rw [KnowledgeBase.SameSize] at hsize
    rw [← Option.map_eq_none_iff (f := List.length), hsize, Option.map_eq_none_iff]
  · cases strict with
    | false => exact .refl _
    | true => exact hperm.flatMap_right _

end

def sharedKey : List Rule :=
  [{ id := "first"
     queries := [{ name := "a", columns := ["b:c"] }]
     recommendations :=
      [{ id := "rec", trigger := some (.compare (.comparison .lt) "size(a:b:c)" "few") }] },
    { id := "second"
      queries := [{ name := "a:b", columns := ["c"] }, { name := "q_down", columns := ["X"] }]
      recommendations :=
        [{ id := "rec", trigger := some (.compare (.comparison .eq) "3" "size(a:b:c)") },
          { id := "down", trigger := some (.compare (.comparison .eq) "size(q_down:X)" "0") }] }]

def oneDown : Executor := Executor.ofFunction fun q =>
  if q.name = "a" then .ok [[some "x"]]
  else if q.name = "a:b" then .ok [[some "y"], [none], [some "z"]]
  else .error (.failed q.name "not recorded")

theorem reordering_keeps_findings_of_shared_key :
    RuleSet.errors sharedKey = [] ∧
    (knowledge oneDown true sharedKey).get? "a:b:c" = some ["x", "y", "z"] ∧
    (knowledge oneDown true sharedKey.reverse).get? "a:b:c" = some ["y", "z", "x"] ∧
    (run oneDown true sharedKey.reverse).value.insights =
      (run oneDown true sharedKey).value.insights ∧
    (run oneDown true sharedKey.reverse).value.diagnostics.Perm
      [⟨"first", "rec", "operand 'few' is not numeric"⟩,
        ⟨"second", "down", "knowledge base key not found: q_down:X"⟩] := by
  have hvalid : RuleSet.errors sharedKey = [] := by decide
  have hdiagnostics : (run oneDown true sharedKey).value.diagnostics =
      [⟨"first", "rec", "operand 'few' is not numeric"⟩,
        ⟨"second", "down", "knowledge base key not found: q_down:X"⟩] := by decide +kernel
  obtain ⟨-, hinsights, -, -, hperm⟩ :=
    reordering_keeps_findings oneDown true hvalid (List.reverse_perm sharedKey)
  exact ⟨hvalid, rfl, rfl, hinsights, hdiagnostics ▸ hperm⟩

end Cycle
end HanaInsights
