import HanaInsights.Proofs.Collection
import HanaInsights.Proofs.Validation
set_option autoImplicit false

namespace HanaInsights.Cycle

section
variable {rules : List Rule}

def kept (rules : List Rule) : List Rule := rules.filter (isKept (RuleSet.errors rules))

theorem isKept_iff {errors : List RuleError} {rule : Rule} :
    isKept errors rule = true ↔
      rule.hasBlankId = false ∧ ∀ e ∈ errors, e.rule? ≠ some rule.id := by
  simp [isKept]

theorem value_select_strict (rules : List Rule) : (select true rules).value = kept rules := by
  cases herrors : RuleSet.errors rules with
  | cons e es => simp [select, kept, herrors, Logged.withLog]
  | nil =>
    have hkept : ∀ rule ∈ rules, isKept (RuleSet.errors rules) rule = true := by
      intro rule hrule
      refine isKept_iff.2 ⟨?_, by simp [herrors]⟩
      cases hblank : rule.hasBlankId with
      | false => rfl
      | true =>
        have hmem := RuleSet.missingId_mem_errors hrule hblank
        rw [herrors] at hmem
        exact absurd hmem List.not_mem_nil
    rw [kept, List.filter_eq_self.2 hkept]
    simp [select, herrors, Logged.withLog]

theorem value_select_lenient (rules : List Rule) : (select false rules).value = rules := by
  simp [select, Logged.withLog]

theorem id_ne_empty_of_isKept {errors : List RuleError} {rule : Rule}
    (h : isKept errors rule = true) : rule.id ≠ "" := by
  intro hid
  have hblank := (isKept_iff.1 h).1
  rw [Rule.hasBlankId, hid] at hblank
  exact absurd hblank (by decide)

/-- A later rule with the id would be reported under that id, an earlier one would have this rule
reported. -/
theorem filter_id_of_kept {rule : Rule} (h : rule ∈ kept rules) :
    rules.filter (fun r => r.id == rule.id) = [rule] := by
  obtain ⟨hmem, hkept⟩ := List.mem_filter.1 h
  have hid := id_ne_empty_of_isKept hkept
  have hnamed := (isKept_iff.1 hkept).2
  obtain ⟨before, after, rfl⟩ := List.append_of_mem hmem
  have hbefore : ∀ r ∈ before, ¬ (r.id == rule.id) = true := by
    intro r hr heq
    have hr' : rule.id ∈ before.map (·.id) := List.mem_map.2 ⟨r, hr, by simpa using heq⟩
    exact hnamed _ (RuleSet.duplicateRule_mem_errors hid hr') rfl
  have hafter : ∀ r ∈ after, ¬ (r.id == rule.id) = true := by
    intro r hr heq
    have hname : r.id = rule.id := by simpa using heq
    obtain ⟨xs, ys, rfl⟩ := List.append_of_mem hr
    have hr' : r.id ∈ (before ++ rule :: xs).map (·.id) := by simp [hname]
    have herror : .duplicateRule r.id ∈ RuleSet.errors ((before ++ rule :: xs) ++ r :: ys) :=
      RuleSet.duplicateRule_mem_errors (hname ▸ hid) hr'
    rw [List.append_assoc, List.cons_append, hname] at herror
    exact hnamed _ herror rfl
  rw [List.filter_append, List.filter_cons_of_pos (by simp), List.filter_eq_nil_iff.2 hbefore,
    List.filter_eq_nil_iff.2 hafter]
  rfl

theorem queries_sublist_distinctQueries {keep : Rule → Bool}
    (h : ∀ rule ∈ rules, keep rule = true → ∀ name,
      .duplicateQuery rule.id name ∉ RuleSet.errors rules) :
    ((rules.filter keep).flatMap (·.queries)).Sublist
      (distinctQueries [] (rules.flatMap (·.queries))) := by
  -- The rules passed so far are generalized, with the names of their queries as those executed.
  suffices hgen : ∀ before rest, rules = before ++ rest →
      ((rest.filter keep).flatMap (·.queries)).Sublist
        (distinctQueries ((before.flatMap (·.queries)).map (·.name))
          (rest.flatMap (·.queries))) from hgen [] rules rfl
  intro before rest hsplit
  induction rest generalizing before with
  | nil => exact List.Sublist.refl _
  | cons rule rest ih =>
    have hrest := ih (before ++ [rule]) (by simpa using hsplit)
    have hseen : ∀ name, name ∈ ((before ++ [rule]).flatMap (·.queries)).map (·.name) ↔
        name ∈ rule.queries.map (·.name) ++ (before.flatMap (·.queries)).map (·.name) := by
      intro name
      simp only [List.flatMap_append, List.flatMap_singleton, List.map_append, List.mem_append]
      tauto
    rw [distinctQueries_congr hseen] at hrest
    rw [List.flatMap_cons, distinctQueries_append]
    by_cases hkeep : keep rule = true
    · rw [List.filter_cons_of_pos hkeep, List.flatMap_cons]
      have hfresh : distinctQueries ((before.flatMap (·.queries)).map (·.name)) rule.queries =
          rule.queries := by
        apply distinctQueries_of_firsts
        intro queriesBefore q queriesAfter hqueries hmem
        have hduplicate : .duplicateQuery rule.id q.name ∈
            RuleSet.errors (before ++ rule :: rest) := by
          apply RuleSet.duplicateQuery_mem_errors hqueries
          simp only [List.map_append, List.mem_append] at hmem ⊢
          exact hmem.symm
        rw [← hsplit] at hduplicate
        exact h rule (hsplit ▸ by simp) hkeep q.name hduplicate
      rw [hfresh]
      exact (List.Sublist.refl _).append hrest
    · rw [List.filter_cons_of_neg hkeep]
      exact hrest.trans (List.sublist_append_right _ _)

theorem distinctQueries_of_sublist {queries declared : List Query}
    (h : queries.Sublist (distinctQueries [] declared)) : distinctQueries [] queries = queries :=
  distinctQueries_of_nodup
    ((h.map (·.name)).nodup (nodup_names_distinctQueries [] declared).1)

theorem distinctQueries_of_valid (h : RuleSet.errors rules = []) :
    distinctQueries [] (rules.flatMap (·.queries)) = rules.flatMap (·.queries) := by
  have hsub : ((rules.filter fun _ => true).flatMap (·.queries)).Sublist
      (distinctQueries [] (rules.flatMap (·.queries))) :=
    queries_sublist_distinctQueries (by simp [h])
  rw [List.filter_true] at hsub
  exact distinctQueries_of_sublist hsub

theorem kept_queries_sublist (rules : List Rule) :
    ((kept rules).flatMap (·.queries)).Sublist
      (distinctQueries [] (rules.flatMap (·.queries))) := by
  apply queries_sublist_distinctQueries
  intro rule _ hkept name hmem
  exact (isKept_iff.1 hkept).2 _ hmem rfl

theorem faults_eq_nil_of_kept {rule : Rule} (h : rule ∈ kept rules) : rule.faults rules = [] := by
  obtain ⟨hmem, hkept⟩ := List.mem_filter.1 h
  refine List.eq_nil_iff_forall_not_mem.2 fun e he => ?_
  exact (isKept_iff.1 hkept).2 e (RuleSet.mem_errors_of_mem_faults hmem he)
    (Rule.rule?_of_mem_faults he)

theorem errors_eq_nil_of_kept {rule : Rule} (h : rule ∈ kept rules) : rule.errors = [] := by
  have hblank : rule.hasBlankId = false := (isKept_iff.1 (List.mem_filter.1 h).2).1
  have hfaults := faults_eq_nil_of_kept h
  simp only [Rule.faults, List.append_eq_nil_iff, and_assoc] at hfaults
  obtain ⟨hnameless, hmisshapen, hrepeated, -⟩ := hfaults
  refine Rule.errors_eq_nil_iff.2 ⟨?_, hnameless, hmisshapen, hrepeated⟩
  rw [Rule.blank_eq_nil_iff, ne_eq, ← Rule.hasBlankId_iff, hblank]
  exact Bool.false_ne_true

/-- Two kept rules with one id would both be among the rules with that id, which are one. -/
theorem nodup_kept_ids (rules : List Rule) : ((kept rules).map (·.id)).Nodup := by
  rw [List.Nodup, List.pairwise_map, List.pairwise_iff_forall_sublist]
  intro a b hsub hid
  have ha : a ∈ kept rules := hsub.subset List.mem_cons_self
  have hboth : [a, b].filter (fun r => r.id == a.id) = [a, b] := by simp [hid]
  have hone : ([a, b].filter fun r => r.id == a.id).Sublist [a] := by
    rw [← filter_id_of_kept ha]
    exact (hsub.trans List.filter_sublist).filter _
  rw [hboth] at hone
  exact absurd hone.length_le (by simp)

theorem nodup_kept_query_names (rules : List Rule) :
    (((kept rules).flatMap (·.queries)).map (·.name)).Nodup :=
  ((kept_queries_sublist rules).map (·.name)).nodup (nodup_names_distinctQueries [] _).1

/-- Of all that can be wrong with a set, only the sizes of lost columns are left. -/
theorem mem_errors_kept_iff {e : RuleError} :
    e ∈ RuleSet.errors (kept rules) ↔ ∃ rule ∈ kept rules, e ∈ rule.undeclared (kept rules) := by
  have hrules : ∀ rule ∈ kept rules, rule.blank = [] ∧ rule.nameless = [] ∧ rule.misshapen = [] ∧
      rule.repeatedRecommendations = [] := fun rule hrule =>
    Rule.errors_eq_nil_iff.1 (errors_eq_nil_of_kept hrule)
  have hblank : (kept rules).flatMap Rule.blank = [] :=
    List.flatMap_eq_nil_iff.2 fun rule hrule => (hrules rule hrule).1
  have hnameless : (kept rules).flatMap Rule.nameless = [] :=
    List.flatMap_eq_nil_iff.2 fun rule hrule => (hrules rule hrule).2.1
  have hmisshapen : (kept rules).flatMap Rule.misshapen = [] :=
    List.flatMap_eq_nil_iff.2 fun rule hrule => (hrules rule hrule).2.2.1
  have hrepeated : (kept rules).flatMap Rule.repeatedRecommendations = [] :=
    List.flatMap_eq_nil_iff.2 fun rule hrule => (hrules rule hrule).2.2.2
  have hids : RuleSet.repeatedRules (kept rules) = [] := by
    rw [RuleSet.repeatedRules, repeated_eq_nil_iff.2 (nodup_kept_ids rules), List.flatMap_nil]
  have hqueries : RuleSet.repeatedQueries (kept rules) = [] :=
    RuleSet.repeatedQueries_eq_nil_iff.2 (nodup_kept_query_names rules)
  simp only [RuleSet.mem_errors_iff, RuleSet.violations, hblank, hnameless, hmisshapen, hrepeated,
    hids, hqueries, List.nil_append, List.mem_flatMap]

theorem declares_of_kept {rule : Rule} (h : rule ∈ kept rules) :
    ∀ r ∈ rule.recommendations, ∀ t ∈ r.trigger, ∀ key ∈ t.keys, RuleSet.Declares rules key := by
  have hfaults := faults_eq_nil_of_kept h
  rw [Rule.faults, List.append_eq_nil_iff] at hfaults
  exact Rule.undeclared_eq_nil_iff.1 hfaults.2

theorem kept_eq_filter (rules : List Rule) :
    kept rules = rules.filter fun rule => decide (Text.trim rule.id ≠ "" ∧
      ∀ e ∈ RuleSet.errors rules, e.rule? ≠ some rule.id) := by
  apply List.filter_congr
  intro rule _
  rw [Bool.eq_iff_iff, isKept_iff, decide_eq_true_iff, ne_eq, ← Rule.hasBlankId_iff,
    Bool.not_eq_true]

/-- A strict selection drops the rules without an id and those whose id an error bears, and no
other. What it keeps passes every check but one: a rule may ask for the size of a column that only
dropped rules declare. -/
theorem strict_selection_keeps_unblamed (rules : List Rule) :
    let selected := (select true rules).value
    selected = rules.filter (fun rule => decide (Text.trim rule.id ≠ "" ∧
      ∀ e ∈ RuleSet.errors rules, e.rule? ≠ some rule.id)) ∧
    (∀ rule ∈ selected, rule.errors = []) ∧
    (selected.map (·.id)).Nodup ∧
    ((selected.flatMap (·.queries)).map (·.name)).Nodup ∧
    ∀ e ∈ RuleSet.errors selected, ∃ rule ∈ selected, ∃ recommendation key,
      e = .unknownKey rule.id recommendation key ∧ RuleSet.Declares rules key ∧
      ∀ declarer ∈ rules, key ∈ declarer.keys → declarer ∉ selected := by
  intro selected
  have hselected : selected = kept rules := value_select_strict rules
  rw [hselected]
  refine ⟨kept_eq_filter rules, fun rule => errors_eq_nil_of_kept, nodup_kept_ids rules,
    nodup_kept_query_names rules, fun e he => ?_⟩
  obtain ⟨rule, hrule, hmem⟩ := mem_errors_kept_iff.1 he
  obtain ⟨r, hr, t, ht, key, hkey, hlost, rfl⟩ := Rule.mem_undeclared_iff.1 hmem
  refine ⟨rule, hrule, r.id, key, rfl, declares_of_kept hrule r hr t ht key hkey, ?_⟩
  intro declarer _ hdeclared hkept
  exact hlost (RuleSet.mem_keys_iff_declares.1 (List.mem_flatMap.2 ⟨declarer, hkept, hdeclared⟩))

end
end HanaInsights.Cycle
