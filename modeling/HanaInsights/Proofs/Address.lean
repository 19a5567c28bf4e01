import HanaInsights.Proofs.Shape
set_option autoImplicit false

/-!
The nodes of a trigger by address, the numbers of the children on the way down from the root. In
the order of their addresses a node comes before its children and everything below a child before
the next child; the reason a trigger is refused for is that of the first malformed node.
-/

namespace HanaInsights.Trigger

/-- The node that a way down from the root leads to. -/
def at? (t : Trigger) : List Nat → Option Trigger
  | [] => some t
  | i :: below => t.children[i]?.bind fun c => c.at? below

theorem at?_cons_eq_some_iff {t n : Trigger} {i : Nat} {below : List Nat} :
    t.at? (i :: below) = some n ↔ ∃ c, t.children[i]? = some c ∧ c.at? below = some n :=
  Option.bind_eq_some_iff

theorem mem_nodes_iff {t n : Trigger} : n ∈ t.nodes ↔ ∃ address, t.at? address = some n := by
  induction t using induction with
  | step op lhs rhs children ih =>
    rw [nodes_node, List.mem_cons, List.mem_flatMap]
    constructor
    · rintro (rfl | ⟨c, hc, hn⟩)
      · exact ⟨[], rfl⟩
      · obtain ⟨i, hi⟩ := List.mem_iff_getElem?.1 hc
        obtain ⟨below, hbelow⟩ := (ih c hc).1 hn
        exact ⟨i :: below, at?_cons_eq_some_iff.2 ⟨c, hi, hbelow⟩⟩
    · rintro ⟨_ | ⟨i, below⟩, h⟩
      · exact .inl (Option.some.inj h).symm
      · obtain ⟨c, hi, hbelow⟩ := at?_cons_eq_some_iff.1 h
        have hc : c ∈ children := List.mem_of_getElem? hi
        exact .inr ⟨c, hc, (ih c hc).2 ⟨below, hbelow⟩⟩

/-- A comparison with children or an empty operand, a connective with an operand or without
children, and a node of no known operation. -/
def Malformed : Trigger → Prop
  | .node (.comparison _) lhs rhs children => children ≠ [] ∨ lhs = "" ∨ rhs = ""
  | .node (.logical _) lhs rhs children => lhs ≠ "" ∨ rhs ≠ "" ∨ children = []
  | .node .undefined _ _ _ => True
  | .node (.unrecognized _) _ _ _ => True

/-- The reason for which a malformed node is refused. Children are held against a comparison before
its operands are, and operands against a connective before its lack of children is. -/
inductive Refused : Trigger → String → Prop where
  | comparisonWithChildren (c : Comparison) {lhs rhs : String} {children : List Trigger}
      (hsome : children ≠ []) :
      Refused (.node (.comparison c) lhs rhs children)
        (c.name ++ " comparison must not have child evaluations")
  | missingOperand (c : Comparison) {lhs rhs : String} (hempty : lhs = "" ∨ rhs = "") :
      Refused (.node (.comparison c) lhs rhs []) (c.name ++ " comparison needs both lhs and rhs")
  | connectiveWithOperands (c : Connective) {lhs rhs : String} {children : List Trigger}
      (hgiven : lhs ≠ "" ∨ rhs ≠ "") :
      Refused (.node (.logical c) lhs rhs children) (c.name ++ " node must not have operands")
  | noChildren (c : Connective) :
      Refused (.node (.logical c) "" "" []) (c.name ++ " node has no child evaluations")
  | undefinedOperation {lhs rhs : String} {children : List Trigger} :
      Refused (.node .undefined lhs rhs children) "operation is undefined"
  | unrecognizedOperation (name : String) {lhs rhs : String} {children : List Trigger} :
      Refused (.node (.unrecognized name) lhs rhs children)
        ("unrecognized operation '" ++ name ++ "'")

theorem localFault?_eq_none_iff {n : Trigger} : n.localFault? = none ↔ ¬ n.Malformed := by
  cases n with
  | node op lhs rhs children =>
    cases op with
    | comparison c =>
      rw [localFault?_comparison_eq_none_iff, Malformed]
      tauto
    | logical c =>
      rw [localFault?_logical_eq_none_iff, Malformed]
      tauto
    | undefined => exact iff_of_false nofun (not_not_intro trivial)
    | unrecognized name => exact iff_of_false nofun (not_not_intro trivial)

theorem refused_of_localFault? {n : Trigger} {fault : ShapeFault} (h : n.localFault? = some fault) :
    n.Refused fault.message := by
  revert h
  fun_cases localFault? n with
  | case1 c lhs rhs children hchildren =>
    rintro ⟨⟩
    exact .comparisonWithChildren c (by simpa using hchildren)
  | case2 c lhs rhs children hchildren hempty =>
    rintro ⟨⟩
    obtain rfl : children = [] := by simpa using hchildren
    exact .missingOperand c (by simpa using hempty)
  | case3 => nofun
  | case4 c lhs rhs children hgiven =>
    rintro ⟨⟩
    exact .connectiveWithOperands c (by simpa using hgiven)
  | case5 c lhs rhs children hgiven hchildren =>
    rintro ⟨⟩
    obtain ⟨rfl, rfl⟩ : lhs = "" ∧ rhs = "" := by simpa using hgiven
    obtain rfl : children = [] := by simpa using hchildren
    exact .noChildren c
  | case6 => nofun
  | case7 =>
    rintro ⟨⟩
    exact .undefinedOperation
  | case8 name =>
    rintro ⟨⟩
    exact .unrecognizedOperation name

theorem exists_localFault?_of_refused {n : Trigger} {reason : String} (h : n.Refused reason) :
    ∃ fault, n.localFault? = some fault ∧ fault.message = reason := by
  cases h with
  | comparisonWithChildren c hsome =>
    exact ⟨.comparisonWithChildren c, by simp [localFault?, hsome], rfl⟩
  | missingOperand c hempty => exact ⟨.missingOperand c, by simp [localFault?, hempty], rfl⟩
  | connectiveWithOperands c hgiven =>
    exact ⟨.connectiveWithOperands c, by simp [localFault?, hgiven], rfl⟩
  | noChildren c => exact ⟨.noChildren c, rfl, rfl⟩
  | undefinedOperation => exact ⟨.undefinedOperation, rfl, rfl⟩
  | unrecognizedOperation name => exact ⟨.unrecognizedOperation name, rfl, rfl⟩

theorem refused_iff {n : Trigger} {reason : String} :
    n.Refused reason ↔ ∃ fault, n.localFault? = some fault ∧ fault.message = reason :=
  ⟨exists_localFault?_of_refused,
    fun ⟨_, hfault, hreason⟩ => hreason ▸ refused_of_localFault? hfault⟩

theorem firstFault?_eq_some_iff {children : List Trigger} {fault : ShapeFault} :
    firstFault? children = some fault ↔
      ∃ i : Nat, (∃ c, children[i]? = some c ∧ c.fault? = some fault) ∧
        ∀ j < i, ∀ d, children[j]? = some d → d.fault? = none := by
  induction children with
  | nil => simp [firstFault?]
  | cons t rest ih =>
    rw [firstFault?_cons, Option.or_eq_some_iff, ih]
    constructor
    · rintro (hfault | ⟨hnone, i, hfound, hbefore⟩)
      · exact ⟨0, ⟨t, rfl, hfault⟩, fun j hj => absurd hj (Nat.not_lt_zero j)⟩
      · refine ⟨i + 1, hfound, Nat.forall_lt_succ_left.2 ⟨?_, hbefore⟩⟩
        rintro d ⟨⟩
        exact hnone
    · rintro ⟨_ | i, hfound, hbefore⟩
      · obtain ⟨c, ⟨⟩, hfault⟩ := hfound
        exact .inl hfault
      · obtain ⟨hnone, hbefore⟩ := Nat.forall_lt_succ_left.1 hbefore
        exact .inr ⟨hnone t rfl, i, hfound, hbefore⟩

/-- A node with a fault of its own, before which no other node in pre-order has one. -/
structure FirstAt (t : Trigger) (address : List Nat) (fault : ShapeFault) : Prop where
  blamed : ∃ n, t.at? address = some n ∧ n.localFault? = some fault
  earlier : ∀ other m, other < address → t.at? other = some m → m.localFault? = none

theorem fault?_eq_none_iff_at? {t : Trigger} :
    t.fault? = none ↔ ∀ address n, t.at? address = some n → n.localFault? = none := by
  simp only [fault?_eq_findSome?, List.findSome?_eq_none_iff, mem_nodes_iff, forall_exists_index]
  exact forall_comm

theorem firstAt_nil {t : Trigger} {fault : ShapeFault} :
    t.FirstAt [] fault ↔ t.localFault? = some fault := by
  constructor
  · rintro ⟨⟨n, hn, hfault⟩, -⟩
    obtain rfl : t = n := Option.some.inj hn
    exact hfault
  · intro hfault
    exact ⟨⟨t, rfl, hfault⟩, fun other m hother => absurd hother (List.not_lt_nil other)⟩

theorem firstAt_cons {t : Trigger} {i : Nat} {below : List Nat} {fault : ShapeFault} :
    t.FirstAt (i :: below) fault ↔
      t.localFault? = none ∧ (∃ c, t.children[i]? = some c ∧ c.FirstAt below fault) ∧
        ∀ j < i, ∀ d, t.children[j]? = some d → d.fault? = none := by
  constructor
  · rintro ⟨⟨n, hn, hfault⟩, hearlier⟩
    obtain ⟨c, hc, hbelow⟩ := at?_cons_eq_some_iff.1 hn
    refine ⟨hearlier [] t (List.nil_lt_cons i below) rfl, ⟨c, hc, ⟨n, hbelow, hfault⟩, ?_⟩, ?_⟩
    · intro other m hother hm
      exact hearlier (i :: other) m (List.cons_lt_cons_iff.2 (.inr ⟨rfl, hother⟩))
        (at?_cons_eq_some_iff.2 ⟨c, hc, hm⟩)
    · intro j hj d hd
      refine fault?_eq_none_iff_at?.2 fun other m hm => ?_
      exact hearlier (j :: other) m (List.cons_lt_cons_iff.2 (.inl hj))
        (at?_cons_eq_some_iff.2 ⟨d, hd, hm⟩)
  · rintro ⟨hown, ⟨c, hc, ⟨n, hbelow, hfault⟩, hwithin⟩, hbefore⟩
    refine ⟨⟨n, at?_cons_eq_some_iff.2 ⟨c, hc, hbelow⟩, hfault⟩, ?_⟩
    rintro (_ | ⟨j, other⟩) m hother hm
    · obtain rfl : t = m := Option.some.inj hm
      exact hown
    · obtain ⟨d, hd, hm⟩ := at?_cons_eq_some_iff.1 hm
      rcases List.cons_lt_cons_iff.1 hother with hj | ⟨rfl, hinner⟩
      · exact fault?_eq_none_iff_at?.1 (hbefore j hj d hd) other m hm
      · obtain rfl : c = d := Option.some.inj (hc.symm.trans hd)
        exact hwithin other m hinner hm

theorem fault?_eq_some_iff {t : Trigger} {fault : ShapeFault} :
    t.fault? = some fault ↔ ∃ address, t.FirstAt address fault := by
  -- An address below the root starts with a child, and all addresses through earlier children
  -- come before it.
  induction t using induction with
  | step op lhs rhs children ih =>
    rw [fault?_node, Option.or_eq_some_iff, firstFault?_eq_some_iff]
    constructor
    · rintro (hown | ⟨hown, i, ⟨c, hc, hfault⟩, hbefore⟩)
      · exact ⟨[], firstAt_nil.2 hown⟩
      · obtain ⟨below, hbelow⟩ := (ih c (List.mem_of_getElem? hc)).1 hfault
        exact ⟨i :: below, firstAt_cons.2 ⟨hown, ⟨c, hc, hbelow⟩, hbefore⟩⟩
    · rintro ⟨_ | ⟨i, below⟩, hfirst⟩
      · exact .inl (firstAt_nil.1 hfirst)
      · obtain ⟨hown, ⟨c, hc, hbelow⟩, hbefore⟩ := firstAt_cons.1 hfirst
        have hfault := (ih c (List.mem_of_getElem? hc)).2 ⟨below, hbelow⟩
        exact .inr ⟨hown, i, ⟨c, hc, hfault⟩, hbefore⟩

/-- Addresses in lexicographic order are nodes in pre-order. -/
theorem first_malformed_node_is_reported (t : Trigger) :
    (t.fault? = none ↔ ∀ address n, t.at? address = some n → ¬ n.Malformed) ∧
    ∀ reason, t.fault?.map ShapeFault.message = some reason ↔
      ∃ address n, t.at? address = some n ∧ n.Refused reason ∧
        ∀ other m, other < address → t.at? other = some m → ¬ m.Malformed := by
  simp only [← localFault?_eq_none_iff, fault?_eq_none_iff_at?, refused_iff, Option.map_eq_some_iff,
    true_and]
  intro reason
  constructor
  · rintro ⟨fault, hfault, hreason⟩
    obtain ⟨address, ⟨n, hn, hown⟩, hearlier⟩ := fault?_eq_some_iff.1 hfault
    exact ⟨address, n, hn, ⟨fault, hown, hreason⟩, hearlier⟩
  · rintro ⟨address, n, hn, ⟨fault, hown, hreason⟩, hearlier⟩
    have hfirst : t.FirstAt address fault := ⟨⟨n, hn, hown⟩, hearlier⟩
    exact ⟨fault, fault?_eq_some_iff.2 ⟨address, hfirst⟩, hreason⟩

/-- The missing operand, the child and the empty connective behind are not what is reported. -/
theorem first_malformed_node_of_several :
    let sound := compare (.comparison .eq) "1" "1"
    let t := all [sound, .node (.comparison .lt) "" "2" [.node .undefined "" "" []], any []]
    let reason := "LT comparison must not have child evaluations"
    t.fault?.map ShapeFault.message = some reason ∧
    (∃ address n, t.at? address = some n ∧ n.Refused reason ∧
      ∀ other m, other < address → t.at? other = some m → ¬ m.Malformed) ∧
    sound.fault? = none ∧ sound.at? [] = some sound ∧ ¬ sound.Malformed := by
  intro sound t reason
  have hreason : t.fault?.map ShapeFault.message = some reason := by decide
  have hsound : sound.fault? = none := by decide
  exact ⟨hreason, ((first_malformed_node_is_reported t).2 reason).1 hreason, hsound, rfl,
    (first_malformed_node_is_reported sound).1.1 hsound [] sound rfl⟩

end HanaInsights.Trigger
