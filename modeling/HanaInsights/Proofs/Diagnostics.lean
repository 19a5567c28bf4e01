import HanaInsights.Proofs.Causes
import HanaInsights.Proofs.Strictness
set_option autoImplicit false

/-!
What diagnostics can say. A well shaped trigger meets only keys without values and operands that are
no numbers. Validation admits no other trigger, so neither a strict cycle nor a cycle over rules
without errors ever reports another cause; and where every declared column has a value, keys are
always found.
-/

namespace HanaInsights

/-- Errors that lie in the data: a key without values, one of the given, or an operand that is no
number. -/
inductive InsightError.OfData (keys : String → Prop) : InsightError → Prop where
  | keyNotFound {key : String} (h : keys key) : OfData keys (.keyNotFound key)
  | parseFailure (operand : String) : OfData keys (.parseFailure operand)

theorem InsightError.OfData.mono {keys keys' : String → Prop} (h : ∀ key, keys key → keys' key)
    {e : InsightError} (he : e.OfData keys) : e.OfData keys' := by
  cases he with
  | keyNotFound hkey => exact .keyNotFound (h _ hkey)
  | parseFailure operand => exact .parseFailure operand

namespace Trigger

variable {kb : KnowledgeBase}

theorem ofData_of_mem_ownErrors {n : Trigger} (hn : n.localFault? = none) {e : InsightError}
    (he : e ∈ ownErrors kb n) :
    e.OfData fun key => key ∈ ownKeys n.lhs n.rhs ∧ kb.get? key = none := by
  cases cause_of_mem_ownErrors he with
  | keyNotFound hkey habsent => exact .keyNotFound ⟨hkey, habsent⟩
  | parseFailure => exact .parseFailure _
  | undefined => simp [localFault?] at hn
  | unrecognized => simp [localFault?] at hn
  | emptyLogicalNode => exact absurd rfl (localFault?_logical_eq_none_iff.1 hn).2.2

theorem ofData_of_wellShaped {t : Trigger} (ht : t.WellShaped) {e : InsightError}
    (he : e ∈ (diagnose kb t).2) : e.OfData fun key => key ∈ t.keys ∧ kb.get? key = none := by
  obtain ⟨n, hn, hown⟩ := exists_node_of_mem_diagnose he
  refine (ofData_of_mem_ownErrors (wellShaped_iff_nodes.1 ht n hn) hown).mono ?_
  rintro key ⟨hkey, habsent⟩
  exact ⟨ownKeys_subset_keys hn hkey, habsent⟩

end Trigger

theorem Rule.ofData_of_sound {rules : List Rule} {rule : Rule} (h : rule.faults rules = [])
    {kb : KnowledgeBase} {r : Recommendation} (hr : r ∈ rule.recommendations) {e : InsightError}
    (he : e ∈ r.errors kb) :
    e.OfData fun key => RuleSet.Declares rules key ∧ kb.get? key = none := by
  simp only [faults, List.append_eq_nil_iff] at h
  obtain ⟨⟨⟨-, hmisshapen⟩, -⟩, hundeclared⟩ := h
  cases ht : r.trigger with
  | none => simp [Recommendation.errors, ht, Trigger.diagnose?] at he
  | some t =>
    have hshape : t.WellShaped := misshapen_eq_nil_iff.1 hmisshapen r hr t ht
    simp only [Recommendation.errors, ht, Trigger.diagnose?] at he
    refine (Trigger.ofData_of_wellShaped hshape he).mono ?_
    rintro key ⟨hkey, habsent⟩
    exact ⟨undeclared_eq_nil_iff.1 hundeclared r hr t ht key hkey, habsent⟩

/-- Rows of the declared width in which no declared column is NULL throughout. -/
def Query.FilledBy (q : Query) (rows : List Row) : Prop :=
  q.Fits rows ∧ ∀ i < q.columns.length, ∃ row ∈ rows, row[i]?.join.isSome = true

instance (q : Query) (rows : List Row) : Decidable (q.FilledBy rows) :=
  inferInstanceAs (Decidable (q.Fits rows ∧
    ∀ i < q.columns.length, ∃ row ∈ rows, row[i]?.join.isSome = true))

namespace Cycle

/-- Whatever is loaded and whatever fails, the diagnostics of a strict cycle name keys that the
loaded rules declare, or operands. -/
theorem strict_diagnostics_of_data (execute : Executor) (rules : List Rule) :
    let selected := (select true rules).value
    let kb := knowledge execute true rules
    (run execute true rules).value.diagnostics = selected.flatMap (Rule.diagnostics kb) ∧
    ∀ rule ∈ selected, ∀ r ∈ rule.recommendations, ∀ e ∈ r.errors kb,
      e.OfData (RuleSet.Declares rules) := by
  intro selected kb
  refine ⟨rfl, fun rule hrule r hr e he => ?_⟩
  have hkept : rule ∈ kept rules := value_select_strict rules ▸ hrule
  exact (Rule.ofData_of_sound (faults_eq_nil_of_kept hkept) hr he).mono fun key h => h.1

section
variable {execute : Executor} {rules : List Rule}

theorem get?_collect_of_filled (hvalid : RuleSet.errors rules = [])
    (hfilled : ∀ q ∈ rules.flatMap (·.queries),
      ∃ rows, (execute q).value = .ok rows ∧ q.FilledBy rows)
    {key : String} (h : RuleSet.Declares rules key) :
    (collect execute rules).value.get? key ≠ none := by
  obtain ⟨rule, hrule, q, hq, column, hcolumn, rfl⟩ := h
  have hmem : q ∈ rules.flatMap (·.queries) := List.mem_flatMap.2 ⟨rule, hrule, hq⟩
  obtain ⟨rows, hrows, hfits, hcells⟩ := hfilled q hmem
  obtain ⟨i, hi, rfl⟩ := List.getElem_of_mem hcolumn
  obtain ⟨row, hrow, hcell⟩ := hcells i hi
  obtain ⟨value, hvalue⟩ := Option.isSome_iff_exists.1 hcell
  rw [Option.join_eq_some_iff] at hvalue
  have hcontribution : value ∈ q.contribution (q.name ++ ":" ++ q.columns[i]) (execute q).value :=
    hrows ▸ Query.mem_contribution hfits hrow hi hvalue
  have hheld : value ∈ held execute (rules.flatMap (·.queries)) (q.name ++ ":" ++ q.columns[i]) :=
    List.mem_flatMap.2 ⟨q, hmem, hcontribution⟩
  rw [get?_collect, distinctQueries_of_valid hvalid, ne_eq, KnowledgeBase.grown_none_eq_none_iff]
  exact List.ne_nil_of_mem hheld

/-- Where validation finds no error and each query answers with a value for each of its columns, only
operands that are no numbers are left to diagnose. -/
theorem filled_answers_leave_parse_failures (hvalid : RuleSet.errors rules = [])
    (hfilled : ∀ q ∈ rules.flatMap (·.queries),
      ∃ rows, (execute q).value = .ok rows ∧ q.FilledBy rows) :
    let kb := (collect execute rules).value
    (RuleSet.evaluate rules kb true).value.2 = rules.flatMap (Rule.diagnostics kb) ∧
    ∀ rule ∈ rules, ∀ r ∈ rule.recommendations, ∀ e ∈ r.errors kb,
      ∃ operand, e = .parseFailure operand := by
  intro kb
  refine ⟨rfl, fun rule hrule r hr e he => ?_⟩
  have hsound : rule.faults rules = [] := RuleSet.faults_eq_nil_of_valid hvalid hrule
  cases Rule.ofData_of_sound hsound hr he with
  | keyNotFound h => exact absurd h.2 (get?_collect_of_filled hvalid hfilled h.1)
  | parseFailure operand => exact ⟨operand, rfl⟩

end

def countedHosts : List Rule :=
  [{ id := "hosts"
     queries := [{ name := "q_hosts", columns := ["HOST", "STATE"] }]
     recommendations :=
      [{ id := "rec"
         trigger := some (.any [
          .compare (.comparison .gt) "size(q_hosts:STATE)" "many",
          .compare (.comparison .eq) "size(q_hosts:HOST)" "0"]) }] }]

def scatteredHosts : Executor :=
  Executor.ofFunction fun _ => .ok [[some "hana01", none], [none, some "down"]]

theorem filled_answers_of_scattered_hosts :
    let kb := (collect scatteredHosts countedHosts).value
    RuleSet.errors countedHosts = [] ∧
    (RuleSet.evaluate countedHosts kb true).value.2 =
      [⟨"hosts", "rec", "operand 'many' is not numeric"⟩] ∧
    ∀ rule ∈ countedHosts, ∀ r ∈ rule.recommendations, ∀ e ∈ r.errors kb,
      ∃ operand, e = .parseFailure operand := by
  have hvalid : RuleSet.errors countedHosts = [] := by decide
  refine ⟨hvalid, by decide +kernel, (filled_answers_leave_parse_failures hvalid ?_).2⟩
  intro q hq
  obtain rfl := List.mem_singleton.1 hq
  exact ⟨_, rfl, by decide⟩

end Cycle
end HanaInsights
