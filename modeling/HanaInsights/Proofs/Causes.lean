import Mathlib.Data.List.Forall2
import HanaInsights.Proofs.Comparison
import HanaInsights.Proofs.Shape
set_option autoImplicit false

namespace HanaInsights

namespace Operand

theorem resolve_error {kb : KnowledgeBase} {operand : String} {e : InsightError}
    (h : resolve kb operand = .error e) :
    ∃ key ∈ sizeKey? operand, kb.get? key = none ∧ e = .keyNotFound key := by
  cases hk : sizeKey? operand with
  | none => simp [resolve, hk] at h
  | some key =>
    cases hv : kb.get? key with
    | some values => simp [resolve, hk, hv] at h
    | none =>
      simp only [resolve, hk, hv, Except.error.injEq] at h
      exact ⟨key, rfl, hv, h.symm⟩

theorem unresolved_of_no_number {kb : KnowledgeBase} {operand text : String}
    (h : resolve kb operand = .ok text) (hnone : Binary64.parse? text = none) :
    text = operand ∧ sizeKey? operand = none := by
  cases hk : sizeKey? operand with
  | none =>
    simp only [resolve, hk, Except.ok.injEq] at h
    exact ⟨h.symm, rfl⟩
  | some key =>
    cases hv : kb.get? key with
    | none => simp [resolve, hk, hv] at h
    | some values =>
      simp only [resolve, hk, hv, Except.ok.injEq] at h
      rw [← h, Binary64.parse?_toString] at hnone
      cases hnone

end Operand

namespace Trigger

/-- What a node can have for an error. -/
inductive Cause (kb : KnowledgeBase) : Trigger → InsightError → Prop where
  | keyNotFound {c : Comparison} {lhs rhs : String} {children : List Trigger} {key : String}
      (hkey : key ∈ ownKeys lhs rhs) (habsent : kb.get? key = none) :
      Cause kb (.node (.comparison c) lhs rhs children) (.keyNotFound key)
  | parseFailure {c : Comparison} {lhs rhs : String} {children : List Trigger} {operand : String}
      (hc : c.isOrdering = true) (hoperand : operand = lhs ∨ operand = rhs)
      (htext : Operand.sizeKey? operand = none) (hnumber : Binary64.parse? operand = none) :
      Cause kb (.node (.comparison c) lhs rhs children) (.parseFailure operand)
  | undefined {lhs rhs : String} {children : List Trigger} :
      Cause kb (.node .undefined lhs rhs children) (.unrecognizedOperation "UNDEFINED")
  | unrecognized {name lhs rhs : String} {children : List Trigger} :
      Cause kb (.node (.unrecognized name) lhs rhs children) (.unrecognizedOperation name)
  | emptyLogicalNode {c : Connective} {lhs rhs : String} :
      Cause kb (.node (.logical c) lhs rhs []) (.emptyLogicalNode c.name)

section
variable {kb : KnowledgeBase}

theorem cause_of_comparisonError {c : Comparison} {lhs rhs : String} {children : List Trigger}
    {e : InsightError} (h : comparisonError? kb c lhs rhs = some e) :
    Cause kb (.node (.comparison c) lhs rhs children) e := by
  unfold comparisonError? at h
  split at h
  · rename_i hl
    obtain rfl := Option.some.inj h
    obtain ⟨key, hkey, habsent, rfl⟩ := Operand.resolve_error hl
    exact .keyNotFound (List.mem_append_left _ (Option.mem_toList.2 hkey)) habsent
  · rename_i hr
    obtain rfl := Option.some.inj h
    obtain ⟨key, hkey, habsent, rfl⟩ := Operand.resolve_error hr
    exact .keyNotFound (List.mem_append_right _ (Option.mem_toList.2 hkey)) habsent
  · rename_i l r hl hr
    split at h
    · rename_i hc
      obtain rfl := Option.some.inj h
      obtain ⟨hordering, ⟨hnone, rfl⟩ | ⟨-, hnone, rfl⟩⟩ := Operand.compare_eq_error_iff.1 hc
      · obtain ⟨rfl, htext⟩ := Operand.unresolved_of_no_number hl hnone
        exact .parseFailure hordering (.inl rfl) htext hnone
      · obtain ⟨rfl, htext⟩ := Operand.unresolved_of_no_number hr hnone
        exact .parseFailure hordering (.inr rfl) htext hnone
    · cases h

theorem cause_of_mem_ownErrors {n : Trigger} {e : InsightError} (h : e ∈ ownErrors kb n) :
    Cause kb n e := by
  obtain ⟨op, lhs, rhs, children⟩ := n
  cases op with
  | undefined => exact List.mem_singleton.1 h ▸ .undefined
  | unrecognized name => exact List.mem_singleton.1 h ▸ .unrecognized
  | comparison c => exact cause_of_comparisonError (Option.mem_toList.1 h)
  | logical c =>
    cases children with
    | nil => exact List.mem_singleton.1 h ▸ .emptyLogicalNode
    | cons t rest => exact absurd h List.not_mem_nil

theorem cause_of_mem_diagnose {c : Comparison} {lhs rhs : String} {children : List Trigger}
    {e : InsightError} (h : e ∈ (diagnose kb (.node (.comparison c) lhs rhs children)).2) :
    Cause kb (.node (.comparison c) lhs rhs children) e := by
  rw [diagnose, verdict_compareIn] at h
  exact cause_of_comparisonError (Option.mem_toList.1 h)

theorem ownErrors_eq_toList (kb : KnowledgeBase) (n : Trigger) :
    ∃ e? : Option InsightError, ownErrors kb n = e?.toList := by
  obtain ⟨op, lhs, rhs, children⟩ := n
  cases op with
  | undefined => exact ⟨some _, rfl⟩
  | unrecognized name => exact ⟨some _, rfl⟩
  | comparison c => exact ⟨_, rfl⟩
  | logical c =>
    cases children with
    | nil => exact ⟨some _, rfl⟩
    | cons t rest => exact ⟨none, rfl⟩

theorem exists_blamed (kb : KnowledgeBase) (ns : List Trigger) :
    ∃ blamed, blamed.Sublist ns ∧ List.Forall₂ (Cause kb) blamed (ns.flatMap (ownErrors kb)) := by
  induction ns with
  | nil => exact ⟨[], .slnil, .nil⟩
  | cons n ns ih =>
    obtain ⟨blamed, hsublist, hcauses⟩ := ih
    obtain ⟨e?, he⟩ := ownErrors_eq_toList kb n
    cases e? with
    | none => exact ⟨blamed, hsublist.cons n, by simpa [he] using hcauses⟩
    | some e =>
      have hcause : Cause kb n e := cause_of_mem_ownErrors (by simp [he])
      exact ⟨n :: blamed, hsublist.cons_cons n, by simpa [he] using ⟨hcause, hcauses⟩⟩

theorem reachedIn_sublist {settling : Bool} {children : List Trigger}
    (h : ∀ t ∈ children, (t.reached kb).Sublist t.nodes) :
    (reachedIn kb settling children).Sublist (children.flatMap nodes) := by
  induction children with
  | nil => exact .slnil
  | cons t rest ih =>
    rw [reachedIn, List.flatMap_cons]
    apply (h t List.mem_cons_self).append
    split
    · exact List.nil_sublist _
    · exact ih fun c hc => h c (List.mem_cons_of_mem _ hc)

theorem reached_sublist_nodes (t : Trigger) : (t.reached kb).Sublist t.nodes := by
  induction t using induction with
  | step op lhs rhs children ih =>
    rw [nodes_node]
    cases op with
    | logical c => exact (reachedIn_sublist ih).cons_cons _
    | undefined => exact (List.nil_sublist _).cons_cons _
    | comparison c => exact (List.nil_sublist _).cons_cons _
    | unrecognized name => exact (List.nil_sublist _).cons_cons _

theorem diagnose_errors (t : Trigger) :
    (diagnose kb t).2 = (t.reached kb).flatMap (ownErrors kb) :=
  congrArg Prod.snd (found kb t)

theorem exists_node_of_mem_diagnose {t : Trigger} {e : InsightError} (h : e ∈ (diagnose kb t).2) :
    ∃ n ∈ t.nodes, e ∈ ownErrors kb n := by
  rw [diagnose_errors] at h
  obtain ⟨n, hn, he⟩ := List.mem_flatMap.1 h
  exact ⟨n, (reached_sublist_nodes t).subset hn, he⟩

end

/-- The errors of an evaluation belong to distinct nodes of the trigger, in their order, each of
which has the error for a reason of its own. -/
theorem diagnostics_have_causes (kb : KnowledgeBase) (t : Trigger) :
    (∃ blamed : List Trigger, blamed.Sublist t.nodes ∧
      List.Forall₂ (Cause kb) blamed (diagnose kb t).2) ∧
    (diagnose kb t).2.length ≤ t.nodes.length ∧
    (∀ key, .keyNotFound key ∈ (diagnose kb t).2 → key ∈ t.keys ∧ kb.get? key = none) ∧
    ∀ query expected actual, .columnCountMismatch query expected actual ∉ (diagnose kb t).2 := by
  obtain ⟨blamed, hblamed, hcauses⟩ := exists_blamed kb (t.reached kb)
  rw [← diagnose_errors] at hcauses
  have hnodes : blamed.Sublist t.nodes := hblamed.trans (reached_sublist_nodes t)
  refine ⟨⟨blamed, hnodes, hcauses⟩, hcauses.length_eq ▸ hnodes.length_le, ?_, ?_⟩
  · intro key hkey
    obtain ⟨n, hn, hown⟩ := exists_node_of_mem_diagnose hkey
    cases cause_of_mem_ownErrors hown with
    | keyNotFound hkey habsent => exact ⟨ownKeys_subset_keys hn hkey, habsent⟩
  · intro query expected actual hmismatch
    obtain ⟨n, -, hown⟩ := exists_node_of_mem_diagnose hmismatch
    cases cause_of_mem_ownErrors hown

/-- A connective that no child settles before the last one, which is empty and true. -/
theorem diagnostics_have_causes_of_every_kind :
    let t := any [compare (.comparison .gt) "size(q_hosts:HOST)" "many",
      compare (.comparison .lt) "size(q_absent:ID)" "1", .node (.unrecognized "XOR") "1" "2" [],
      all []]
    let kb := KnowledgeBase.empty.append "q_hosts:HOST" "hana01"
    let errors := [.parseFailure "many", .keyNotFound "q_absent:ID", .unrecognizedOperation "XOR",
      .emptyLogicalNode "AND"]
    (diagnose kb t).2 = errors ∧
      (∃ blamed : List Trigger, blamed.Sublist t.nodes ∧ List.Forall₂ (Cause kb) blamed errors) ∧
      "q_absent:ID" ∈ t.keys ∧ kb.get? "q_absent:ID" = none := by
  intro t kb errors
  have herrors : (diagnose kb t).2 = errors := by decide +kernel
  obtain ⟨hblamed, -, hkeys, -⟩ := diagnostics_have_causes kb t
  rw [herrors] at hblamed hkeys
  exact ⟨herrors, hblamed, hkeys "q_absent:ID" (by decide)⟩

end Trigger
end HanaInsights
