import Mathlib.Data.List.Basic
import HanaInsights.Proofs.Evaluation
import HanaInsights.Trigger.Shape
set_option autoImplicit false

namespace HanaInsights.Trigger

mutual

def nodes : Trigger → List Trigger
  | .node op lhs rhs children => .node op lhs rhs children :: nodesOfAll children

def nodesOfAll : List Trigger → List Trigger
  | [] => []
  | t :: rest => nodes t ++ nodesOfAll rest

end

theorem nodesOfAll_eq_flatMap (children : List Trigger) :
    nodesOfAll children = children.flatMap nodes := by
  induction children with
  | nil => rfl
  | cons t rest ih => rw [nodesOfAll, ih, List.flatMap_cons]

theorem nodes_node (op : Operation) (lhs rhs : String) (children : List Trigger) :
    nodes (.node op lhs rhs children) = .node op lhs rhs children :: children.flatMap nodes := by
  rw [nodes, nodesOfAll_eq_flatMap]

theorem self_mem_nodes (t : Trigger) : t ∈ t.nodes := by
  cases t with
  | node op lhs rhs children => exact nodes_node op lhs rhs children ▸ List.mem_cons_self

theorem mem_nodes_of_child {op : Operation} {lhs rhs : String} {children : List Trigger}
    {t n : Trigger} (ht : t ∈ children) (hn : n ∈ t.nodes) :
    n ∈ nodes (.node op lhs rhs children) := by
  rw [nodes_node]
  exact List.mem_cons_of_mem _ (List.mem_flatMap.2 ⟨t, ht, hn⟩)

def operands (t : Trigger) : List String := t.nodes.flatMap fun n => [n.lhs, n.rhs]

theorem ownKeys_eq (lhs rhs : String) :
    ownKeys lhs rhs = [lhs, rhs].filterMap Operand.sizeKey? := by
  cases hl : Operand.sizeKey? lhs <;> cases hr : Operand.sizeKey? rhs <;> simp [ownKeys, hl, hr]

theorem keys_eq_flatMap_nodes (t : Trigger) :
    t.keys = t.nodes.flatMap fun n => ownKeys n.lhs n.rhs := by
  induction t using induction with
  | step op lhs rhs children ih =>
    rw [keys, keysOfAll_eq_flatMap, List.flatMap_congr ih, nodes_node, List.flatMap_cons,
      List.flatMap_assoc]
    rfl

theorem keys_eq_sizes_of_operands (t : Trigger) :
    t.keys = t.operands.filterMap Operand.sizeKey? := by
  simp only [keys_eq_flatMap_nodes, ownKeys_eq, operands, List.filterMap_flatMap]

theorem ownKeys_subset_keys {t n : Trigger} (h : n ∈ t.nodes) :
    ownKeys n.lhs n.rhs ⊆ t.keys := by
  intro key hkey
  rw [keys_eq_flatMap_nodes]
  exact List.mem_flatMap.2 ⟨n, h, hkey⟩

/-- A comparison relates two operands, a connective joins triggers, and there is nothing else. -/
inductive WellShaped : Trigger → Prop where
  | comparison (c : Comparison) {lhs rhs : String} (hlhs : lhs ≠ "") (hrhs : rhs ≠ "") :
      WellShaped (.node (.comparison c) lhs rhs [])
  | logical (c : Connective) {children : List Trigger} (hsome : children ≠ [])
      (hall : ∀ t ∈ children, WellShaped t) : WellShaped (.node (.logical c) "" "" children)

theorem fault?_node (op : Operation) (lhs rhs : String) (children : List Trigger) :
    fault? (.node op lhs rhs children) =
      (localFault? (.node op lhs rhs children)).or (firstFault? children) := by
  rw [fault?]
  cases localFault? (.node op lhs rhs children) <;> rfl

theorem firstFault?_cons (t : Trigger) (rest : List Trigger) :
    firstFault? (t :: rest) = t.fault?.or (firstFault? rest) := by
  rw [firstFault?]
  cases t.fault? <;> rfl

theorem firstFault?_eq_findSome? {children : List Trigger}
    (h : ∀ t ∈ children, t.fault? = t.nodes.findSome? localFault?) :
    firstFault? children = (children.flatMap nodes).findSome? localFault? := by
  induction children with
  | nil => rfl
  | cons t rest ih =>
    have ht := h t List.mem_cons_self
    have hrest := ih fun c hc => h c (List.mem_cons_of_mem _ hc)
    rw [firstFault?_cons, List.flatMap_cons, List.findSome?_append, ht, hrest]

theorem fault?_eq_findSome? (t : Trigger) : t.fault? = t.nodes.findSome? localFault? := by
  induction t using induction with
  | step op lhs rhs children ih =>
    rw [fault?_node, firstFault?_eq_findSome? ih, nodes_node, List.findSome?_cons]
    cases localFault? (.node op lhs rhs children) <;> rfl

/-- By itself a node is sound as a comparison of two operands or as a connective of triggers. -/
theorem localFault?_node_eq_none_iff {op : Operation} {lhs rhs : String} {children : List Trigger} :
    localFault? (.node op lhs rhs children) = none ↔
      (op.isComparison = true ∧ lhs ≠ "" ∧ rhs ≠ "" ∧ children = []) ∨
      (op.isLogical = true ∧ lhs = "" ∧ rhs = "" ∧ children ≠ []) := by
  cases op with
  | undefined => simp [localFault?, Operation.isComparison, Operation.isLogical]
  | unrecognized name => simp [localFault?, Operation.isComparison, Operation.isLogical]
  | comparison c =>
    simp only [localFault?, Operation.isComparison, Operation.isLogical]
    split <;> simp_all
  | logical c =>
    by_cases hgiven : lhs = "" ∧ rhs = ""
    · simp [localFault?, Operation.isComparison, Operation.isLogical, hgiven]
    · have hsome : lhs ≠ "" ∨ rhs ≠ "" := not_and_or.1 hgiven
      simpa [localFault?, Operation.isComparison, Operation.isLogical, hsome] using
        fun hlhs hrhs => absurd ⟨hlhs, hrhs⟩ hgiven

theorem localFault?_comparison_eq_none_iff {c : Comparison} {lhs rhs : String}
    {children : List Trigger} :
    localFault? (.node (.comparison c) lhs rhs children) = none ↔
      lhs ≠ "" ∧ rhs ≠ "" ∧ children = [] := by
  simp [localFault?_node_eq_none_iff, Operation.isComparison, Operation.isLogical]

theorem localFault?_logical_eq_none_iff {c : Connective} {lhs rhs : String}
    {children : List Trigger} :
    localFault? (.node (.logical c) lhs rhs children) = none ↔
      lhs = "" ∧ rhs = "" ∧ children ≠ [] := by
  simp [localFault?_node_eq_none_iff, Operation.isComparison, Operation.isLogical]

theorem wellShaped_iff_nodes {t : Trigger} :
    t.WellShaped ↔ ∀ n ∈ t.nodes, n.localFault? = none := by
  constructor
  · intro h
    induction h with
    | comparison c hlhs hrhs =>
      simp only [nodes_node, List.flatMap_nil, List.mem_singleton, forall_eq]
      exact localFault?_comparison_eq_none_iff.2 ⟨hlhs, hrhs, rfl⟩
    | logical c hsome hall ih =>
      simp only [nodes_node, List.mem_cons, List.mem_flatMap, forall_eq_or_imp]
      refine ⟨localFault?_logical_eq_none_iff.2 ⟨rfl, rfl, hsome⟩, ?_⟩
      rintro n ⟨t, ht, hn⟩
      exact ih t ht n hn
  · intro h
    induction t using induction with
    | step op lhs rhs children ih =>
      have hself := h _ (self_mem_nodes _)
      have hchildren : ∀ t ∈ children, t.WellShaped := fun t ht =>
        ih t ht fun n hn => h n (mem_nodes_of_child ht hn)
      cases op with
      | undefined => simp [localFault?] at hself
      | unrecognized name => simp [localFault?] at hself
      | comparison c =>
        obtain ⟨hlhs, hrhs, rfl⟩ := localFault?_comparison_eq_none_iff.1 hself
        exact .comparison c hlhs hrhs
      | logical c =>
        obtain ⟨rfl, rfl, hsome⟩ := localFault?_logical_eq_none_iff.1 hself
        exact .logical c hsome hchildren

theorem fault?_eq_none_iff {t : Trigger} : t.fault? = none ↔ t.WellShaped := by
  rw [fault?_eq_findSome?, List.findSome?_eq_none_iff, wellShaped_iff_nodes]

instance (t : Trigger) : Decidable t.WellShaped := decidable_of_iff _ fault?_eq_none_iff

end HanaInsights.Trigger
