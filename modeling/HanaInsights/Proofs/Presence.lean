import HanaInsights.Proofs.Counts
import HanaInsights.Proofs.Ingestion
import HanaInsights.Proofs.Strictness
set_option autoImplicit false

namespace HanaInsights

namespace KnowledgeBase

/-- What operations make of an empty knowledge base, and what a cycle collects. -/
inductive Reached : KnowledgeBase → Prop where
  | operations (ops : List Ingestion) : Reached (empty.after ops)
  | collected (execute : Executor) (rules : List Rule) :
      Reached (Cycle.collect execute rules).value

theorem Reached.exists_grown {kb : KnowledgeBase} (h : Reached kb) (key : String) :
    ∃ values, kb.get? key = grown none values := by
  cases h with
  | operations ops => exact ⟨_, get?_after empty ops key⟩
  | collected execute rules => exact ⟨_, Cycle.get?_collect execute rules key⟩

end KnowledgeBase

namespace Operand

theorem equal_toString_zero {n : Nat} (h : 0 < n) : equal (toString n) "0" = false := by
  obtain ⟨place, hplace, hpos⟩ := Binary64.exists_rank?_ofDecimal h
  have hzero : Binary64.parse? "0" = some (Binary64.ofDecimal ⟨false, 0, 0⟩) :=
    Binary64.parse?_toString 0
  have hrank : (Binary64.ofDecimal ⟨false, 0, 0⟩).rank? = some 0 := rfl
  simp only [equal, Binary64.parse?_toString, hzero, Binary64.eq, Binary64.relates, hplace, hrank]
  simpa using Int.ne_of_gt hpos

theorem equal_sizeOf_zero (key : String) : equal (sizeOf key) "0" = false := by
  rw [equal_of_no_number (.inl (parse?_sizeOf key)), beq_eq_false_iff_ne]
  intro h
  have hchars := congrArg String.toList h
  simp [sizeOf] at hchars

theorem resolve_sizeOf_of_not_plain {key : String} (h : ¬ Plain key) (kb : KnowledgeBase) :
    resolve kb (sizeOf key) = .ok (sizeOf key) := by
  simp only [resolve, sizeKey?_sizeOf_of_not_plain h]

theorem resolve_sizeOf_of_reached {kb : KnowledgeBase} (hkb : kb.Reached) {key : String}
    (h : Plain key) :
    resolve kb (sizeOf key) = .error (.keyNotFound key) ∨
      ∃ n, 0 < n ∧ resolve kb (sizeOf key) = .ok (toString n) := by
  obtain ⟨values, hvalues⟩ := hkb.exists_grown key
  rw [resolve_sizeOf h hvalues, counted]
  split
  · exact .inl rfl
  next hn => exact .inr ⟨values.length, Nat.pos_of_ne_zero hn, rfl⟩

/-- Whatever becomes of the operand, it is no zero. -/
theorem equal_zero_of_resolve {kb : KnowledgeBase} (hkb : kb.Reached) {key resolved : String}
    (h : resolve kb (sizeOf key) = .ok resolved) : equal resolved "0" = false := by
  by_cases hplain : Plain key
  · rcases resolve_sizeOf_of_reached hkb hplain with hnone | ⟨n, hn, hsome⟩
    · rw [hnone] at h
      cases h
    · obtain rfl := Except.ok.inj (hsome.symm.trans h)
      exact equal_toString_zero hn
  · obtain rfl := Except.ok.inj ((resolve_sizeOf_of_not_plain hplain kb).symm.trans h)
    exact equal_sizeOf_zero key

end Operand

namespace Trigger

theorem not_sizeOf_eq_zero {kb : KnowledgeBase} (hkb : kb.Reached) (key : String) :
    (verdict (compareIn kb .eq (Operand.sizeOf key) "0")).1 = false ∧
      (verdict (compareIn kb .eq "0" (Operand.sizeOf key))).1 = false := by
  have hzero : Operand.resolve kb "0" = .ok "0" := rfl
  cases h : Operand.resolve kb (Operand.sizeOf key) with
  | error e => simp [compareIn, h, hzero, verdict]
  | ok resolved =>
    have hne := Operand.equal_zero_of_resolve hkb h
    have hne' := (Operand.equal_comm "0" resolved).trans hne
    simp [compareIn, h, hzero, verdict, Operand.compare, hne, hne']

end Trigger

namespace Cycle

theorem exists_outcomes_run (execute : Executor) {strict : Bool} {rules : List Rule} {rule : Rule}
    (h : rule ∈ (select strict rules).value) :
    ∃ outcomes, (run execute strict rules).value.insights.get? rule.id = some outcomes ∧
      rule.outcomes (knowledge execute strict rules) ⊆ outcomes := by
  have hmem : rule ∈ (select strict rules).value.filter fun other => other.id == rule.id :=
    List.mem_filter.2 ⟨h, beq_self_eq_true _⟩
  have hsome : ((select strict rules).value.filter fun other => other.id == rule.id) ≠ [] :=
    List.ne_nil_of_mem hmem
  rw [insights_run, Insights.recorded, if_neg (by simpa using hsome)]
  exact ⟨_, rfl, fun o ho => List.mem_flatMap.2 ⟨rule, hmem, ho⟩⟩

end Cycle

namespace KnowledgeBase

open Operand HanaInsights.Cycle

/-- What is present has values, so a size that is found is positive, and a trigger that compares it
with zero fires in no cycle. Only with a parenthesis in the key the operand is no size. -/
theorem present_keys_hold_values :
    (∀ kb : KnowledgeBase, kb.Reached → ∀ key,
      (∀ values, kb.get? key = some values → values ≠ []) ∧
      (Plain key → resolve kb (Operand.sizeOf key) = .error (.keyNotFound key) ∨
        ∃ n, 0 < n ∧ resolve kb (Operand.sizeOf key) = .ok (toString n)) ∧
      (¬ Plain key → resolve kb (Operand.sizeOf key) = .ok (Operand.sizeOf key)) ∧
      ∀ children,
        (Trigger.diagnose kb
          (.node (.comparison .eq) (Operand.sizeOf key) "0" children)).1 = false ∧
        (Trigger.diagnose kb
          (.node (.comparison .eq) "0" (Operand.sizeOf key) children)).1 = false) ∧
    ∀ (execute : Executor) strict rules, ∀ rule ∈ (select strict rules).value,
      ∀ r ∈ rule.recommendations, ∀ key children,
      r.trigger = some (.node (.comparison .eq) (Operand.sizeOf key) "0" children) ∨
        r.trigger = some (.node (.comparison .eq) "0" (Operand.sizeOf key) children) →
      ∃ outcomes, (run execute strict rules).value.insights.get? rule.id = some outcomes ∧
        r.outcome (knowledge execute strict rules) = ⟨r.id, false⟩ ∧ ⟨r.id, false⟩ ∈ outcomes := by
  refine ⟨fun kb hkb key => ⟨fun values hvalues => ?_, resolve_sizeOf_of_reached hkb,
    fun hnot => resolve_sizeOf_of_not_plain hnot kb,
    fun children => Trigger.not_sizeOf_eq_zero hkb key⟩, ?_⟩
  · obtain ⟨held, hheld⟩ := hkb.exists_grown key
    rw [hvalues] at hheld
    rintro rfl
    cases held <;> cases hheld
  · intro execute strict rules rule hrule r hr key children htrigger
    obtain ⟨outcomes, hget, hsubset⟩ := exists_outcomes_run execute hrule
    have hnot := Trigger.not_sizeOf_eq_zero (.collected execute (select strict rules).value) key
    have hfalse : r.outcome (knowledge execute strict rules) = ⟨r.id, false⟩ := by
      rcases htrigger with ht | ht <;> rw [Recommendation.outcome, ht]
      · exact congrArg (Outcome.mk r.id) hnot.1
      · exact congrArg (Outcome.mk r.id) hnot.2
    exact ⟨outcomes, hget, hfalse, hfalse ▸ hsubset (List.mem_map_of_mem hr)⟩

def unusedHosts : List Rule :=
  [{ id := "hosts"
     queries := [{ name := "q_hosts", columns := ["HOST", "STATE"] }]
     recommendations := [
      { id := "none"
        trigger := some (.compare (.comparison .eq) (Operand.sizeOf "q_hosts:STATE") "0") }] }]

def hostsWithoutState : Executor := Executor.ofFunction fun _ => .ok [[some "hana01", none]]

theorem present_keys_hold_values_of_unused_hosts :
    let kb := (collect hostsWithoutState unusedHosts).value
    kb.get? "q_hosts:HOST" = some ["hana01"] ∧
    (resolve kb (Operand.sizeOf "q_hosts:HOST") = .error (.keyNotFound "q_hosts:HOST") ∨
      ∃ n, 0 < n ∧ resolve kb (Operand.sizeOf "q_hosts:HOST") = .ok (toString n)) ∧
    ∃ outcomes,
      (run hostsWithoutState true unusedHosts).value.insights.get? "hosts" = some outcomes ∧
      ⟨"none", false⟩ ∈ outcomes := by
  intro kb
  obtain ⟨hreached, hcycle⟩ := present_keys_hold_values
  have hkey := hreached kb (.collected hostsWithoutState unusedHosts) "q_hosts:HOST"
  obtain ⟨outcomes, hget, -, hmem⟩ := hcycle hostsWithoutState true unusedHosts
    (unusedHosts.head (by decide)) (List.mem_singleton_self _) _ (List.mem_singleton_self _)
    "q_hosts:STATE" [] (.inl rfl)
  exact ⟨rfl, hkey.2.1 (by decide), outcomes, hget, hmem⟩

/-- The name of a query may hold parentheses, and then the size of its column is a text. -/
theorem present_key_without_size :
    let kb := empty.after [.single { name := "q(1)", columns := ["c"] } [some "v"]]
    kb.get? "q(1):c" = some ["v"] ∧
    ¬ (resolve kb (Operand.sizeOf "q(1):c") = .error (.keyNotFound "q(1):c") ∨
      ∃ n, 0 < n ∧ resolve kb (Operand.sizeOf "q(1):c") = .ok (toString n)) := by
  intro kb
  refine ⟨rfl, ?_⟩
  rw [resolve_sizeOf_of_not_plain (by decide)]
  rintro (h | ⟨n, -, h⟩)
  · cases h
  · have hparse := parse?_sizeOf "q(1):c"
    rw [Except.ok.inj h, Binary64.parse?_toString] at hparse
    cases hparse

end KnowledgeBase
end HanaInsights
