import Mathlib.Logic.Relation
import HanaInsights.Insights
set_option autoImplicit false

namespace HanaInsights

/-- The value of a child that settles the connective whatever comes after it. -/
def Connective.settling : Connective → Bool
  | .and => false
  | .or => true

namespace Trigger

@[elab_as_elim]
theorem induction {motive : Trigger → Prop}
    (step : ∀ op lhs rhs children, (∀ c ∈ children, motive c) →
      motive (.node op lhs rhs children)) : ∀ t, motive t
  | .node op lhs rhs children => step op lhs rhs children fun c hc =>
    have hlt : sizeOf c < sizeOf (node op lhs rhs children) :=
      Nat.lt_of_lt_of_le (List.sizeOf_lt_of_mem hc) (by simp)
    induction step c
termination_by t => sizeOf t
decreasing_by exact hlt

section
variable (kb : KnowledgeBase)

/-- An operand without a value makes a comparison false, and so does one that is no number where
the comparison needs one. -/
def comparisonHolds (c : Comparison) (lhs rhs : String) : Bool :=
  match Operand.resolve kb lhs, Operand.resolve kb rhs with
  | .ok l, .ok r => (Operation.comparison c).holds l r
  | _, _ => false

def comparisonError? (c : Comparison) (lhs rhs : String) : Option InsightError :=
  match Operand.resolve kb lhs, Operand.resolve kb rhs with
  | .error e, _ => some e
  | .ok _, .error e => some e
  | .ok l, .ok r =>
    match Operand.compare c l r with
    | .error e => some e
    | .ok _ => none

mutual

def meaning : Trigger → Bool
  | .node (.logical .and) _ _ children => (meanings children).all id
  | .node (.logical .or) _ _ children => (meanings children).any id
  | .node (.comparison c) lhs rhs _ => comparisonHolds kb c lhs rhs
  | .node .undefined _ _ _ => false
  | .node (.unrecognized _) _ _ _ => false

def meanings : List Trigger → List Bool
  | [] => []
  | t :: rest => meaning t :: meanings rest

end

def ownErrors : Trigger → List InsightError
  | .node (.logical c) _ _ [] => [.emptyLogicalNode c.name]
  | .node (.logical _) _ _ (_ :: _) => []
  | .node (.comparison c) lhs rhs _ => (comparisonError? kb c lhs rhs).toList
  | .node .undefined _ _ _ => [.unrecognizedOperation Operation.undefined.name]
  | .node (.unrecognized name) _ _ _ => [.unrecognizedOperation name]

mutual

def reached : Trigger → List Trigger
  | .node (.logical c) lhs rhs children =>
    .node (.logical c) lhs rhs children :: reachedIn c.settling children
  | t => [t]

/-- Children from left to right, up to the first that has the settling value. -/
def reachedIn (settling : Bool) : List Trigger → List Trigger
  | [] => []
  | t :: rest => reached t ++ if meaning kb t = settling then [] else reachedIn settling rest

end

theorem verdict_compareIn (c : Comparison) (lhs rhs : String) :
    verdict (compareIn kb c lhs rhs) =
      (comparisonHolds kb c lhs rhs, (comparisonError? kb c lhs rhs).toList) := by
  unfold compareIn comparisonHolds comparisonError?
  cases hl : Operand.resolve kb lhs with
  | error e => rfl
  | ok l =>
    cases hr : Operand.resolve kb rhs with
    | error e => rfl
    | ok r =>
      cases hc : Operand.compare c l r <;>
        simp [verdict, Operation.holds, Operation.compare?, hc]

theorem emptyNote_eq (c : Connective) (lhs rhs : String) (children : List Trigger) :
    emptyNote c children = ownErrors kb (.node (.logical c) lhs rhs children) := by
  cases children <;> rfl

/-- Children from left to right up to the first that settles their connective, with what is found
there. -/
def scan (settling : Bool) : List Trigger → Bool × List InsightError
  | [] => (!settling, [])
  | t :: rest =>
    if (diagnose kb t).1 = settling then (settling, (diagnose kb t).2)
    else ((scan settling rest).1, (diagnose kb t).2 ++ (scan settling rest).2)

theorem diagnoseAll_eq_scan (children : List Trigger) :
    diagnoseAll kb children = scan kb false children := by
  induction children with
  | nil => rfl
  | cons t rest ih =>
    rw [diagnoseAll, scan, ih]
    rcases diagnose kb t with ⟨_ | _, errors⟩ <;> rfl

theorem diagnoseAny_eq_scan (children : List Trigger) :
    diagnoseAny kb children = scan kb true children := by
  induction children with
  | nil => rfl
  | cons t rest ih =>
    rw [diagnoseAny, scan, ih]

theorem diagnose_logical (c : Connective) (lhs rhs : String) (children : List Trigger) :
    diagnose kb (.node (.logical c) lhs rhs children) =
      ((scan kb c.settling children).1,
        emptyNote c children ++ (scan kb c.settling children).2) := by
  cases c with
  | and => rw [diagnose, diagnoseAll_eq_scan, Connective.settling]
  | or => rw [diagnose, diagnoseAny_eq_scan, Connective.settling]

theorem meaning_logical (c : Connective) (lhs rhs : String) (children : List Trigger) :
    meaning kb (.node (.logical c) lhs rhs children) =
      if c.settling ∈ meanings kb children then c.settling else !c.settling := by
  cases c with
  | and => by_cases h : false ∈ meanings kb children <;> simp [meaning, Connective.settling, h]
  | or => by_cases h : true ∈ meanings kb children <;> simp [meaning, Connective.settling, h]

def Found (t : Trigger) : Prop :=
  diagnose kb t = (meaning kb t, (reached kb t).flatMap (ownErrors kb))

theorem scan_of_found {children : List Trigger} (h : ∀ t ∈ children, Found kb t)
    (settling : Bool) :
    scan kb settling children =
      (if settling ∈ meanings kb children then settling else !settling,
        (reachedIn kb settling children).flatMap (ownErrors kb)) := by
  induction children with
  | nil => simp [scan, meanings, reachedIn]
  | cons t rest ih =>
    have ht : diagnose kb t = _ := h t List.mem_cons_self
    have hrest := ih fun c hc => h c (List.mem_cons_of_mem _ hc)
    by_cases hm : meaning kb t = settling
    · simp [scan, meanings, reachedIn, ht, hm]
    · have hm' : ¬ settling = meaning kb t := fun he => hm he.symm
      simp [scan, meanings, reachedIn, ht, hrest, hm, hm']

theorem found (t : Trigger) : Found kb t := by
  induction t using induction with
  | step op lhs rhs children ih =>
    cases op with
    | undefined => rfl
    | unrecognized name => rfl
    | comparison c =>
      rw [Found, diagnose, verdict_compareIn]
      simp [meaning, reached, ownErrors]
    | logical c =>
      rw [Found, diagnose_logical, scan_of_found kb ih, emptyNote_eq kb c lhs rhs,
        meaning_logical, reached, List.flatMap_cons]

/-- One tree is another with other children behind one that settles its connective, at the root or
anywhere below. -/
inductive Resettled : Trigger → Trigger → Prop where
  | behind (c : Connective) (lhs rhs : String) (before : List Trigger) {t : Trigger}
      (after after' : List Trigger) (h : meaning kb t = c.settling) :
      Resettled (.node (.logical c) lhs rhs (before ++ t :: after))
        (.node (.logical c) lhs rhs (before ++ t :: after'))
  | inside (op : Operation) (lhs rhs : String) (before after : List Trigger) {t t' : Trigger}
      (h : Resettled t t') :
      Resettled (.node op lhs rhs (before ++ t :: after)) (.node op lhs rhs (before ++ t' :: after))

end

section
variable {kb : KnowledgeBase} {t t' : Trigger}

theorem emptyNote_replace (c : Connective) (before after after' : List Trigger) :
    emptyNote c (before ++ t' :: after') = emptyNote c (before ++ t :: after) := by
  cases before <;> rfl

theorem scan_replace (h : diagnose kb t' = diagnose kb t) (settling : Bool)
    (before after : List Trigger) :
    scan kb settling (before ++ t' :: after) = scan kb settling (before ++ t :: after) := by
  induction before with
  | nil => simp only [List.nil_append, scan, h]
  | cons b before ih => simp only [List.cons_append, scan, ih]

theorem scan_behind {settling : Bool} (h : meaning kb t = settling)
    (before after after' : List Trigger) :
    scan kb settling (before ++ t :: after') = scan kb settling (before ++ t :: after) := by
  have ht : diagnose kb t = _ := found kb t
  induction before with
  | nil => simp only [List.nil_append, scan, ht, h, if_true]
  | cons b before ih => simp only [List.cons_append, scan, ih]

theorem diagnose_resettled (h : Resettled kb t t') : diagnose kb t' = diagnose kb t := by
  induction h with
  | behind c lhs rhs before after after' h =>
    rw [diagnose_logical, diagnose_logical, scan_behind h before after, emptyNote_replace]
  | inside op lhs rhs before after _ ih =>
    cases op with
    | undefined => rfl
    | unrecognized name => rfl
    | comparison c => rfl
    | logical c =>
      rw [diagnose_logical, diagnose_logical, scan_replace ih _ before after, emptyNote_replace]

end

def meaning? (kb : KnowledgeBase) : Option Trigger → Bool
  | none => false
  | some t => t.meaning kb

def reachedErrors (kb : KnowledgeBase) : Option Trigger → List InsightError
  | none => []
  | some t => (t.reached kb).flatMap (ownErrors kb)

/-- Evaluation with and without diagnostics finds the value in which every child counts, the errors
are those of the reached nodes in order, and what stands behind a settling child is not seen. -/
theorem evaluation_compositional (kb : KnowledgeBase) :
    (∀ t : Option Trigger, (firesLogged kb t).value = meaning? kb t ∧
      diagnose? kb t = (meaning? kb t, reachedErrors kb t)) ∧
    ∀ t t' : Trigger, Relation.ReflTransGen (Resettled kb) t t' →
      (firesLogged kb (some t')).value = (firesLogged kb (some t)).value ∧
        diagnose kb t' = diagnose kb t := by
  have hfound : ∀ t : Option Trigger, diagnose? kb t = (meaning? kb t, reachedErrors kb t) := by
    intro t
    cases t with
    | none => rfl
    | some t => exact found kb t
  refine ⟨fun t => ⟨?_, hfound t⟩, fun t t' h => ?_⟩
  · exact congrArg Prod.fst (hfound t)
  · have hsame : diagnose kb t' = diagnose kb t := by
      induction h with
      | refl => rfl
      | tail _ hstep ih => rw [diagnose_resettled hstep, ih]
    exact ⟨congrArg Prod.fst hsame, hsame⟩

/-- Two texts that differ settle an inner connective, so that what comes after them there may well
be no trigger at all. -/
theorem evaluation_behind_unequal_texts :
    let unequal := compare (.comparison .eq) "on" "off"
    let short := any [all [unequal]]
    let long := any [all [unequal, all [], .node .undefined "" "" []]]
    meaning KnowledgeBase.empty unequal = false ∧
      (firesLogged KnowledgeBase.empty (some long)).value =
        (firesLogged KnowledgeBase.empty (some short)).value ∧
      diagnose KnowledgeBase.empty long = diagnose KnowledgeBase.empty short := by
  intro unequal short long
  have hfalse : meaning KnowledgeBase.empty unequal = false := by decide
  have hlong : Resettled KnowledgeBase.empty short long :=
    .inside (.logical .or) "" "" [] []
      (.behind .and "" "" [] [] [all [], .node .undefined "" "" []] hfalse)
  exact ⟨hfalse, (evaluation_compositional KnowledgeBase.empty).2 short long (.single hlong)⟩

end Trigger

/-- A key that both lack counts too. -/
def KnowledgeBase.SameSize (kb kb' : KnowledgeBase) (key : String) : Prop :=
  (kb.get? key).map List.length = (kb'.get? key).map List.length

instance (kb kb' : KnowledgeBase) (key : String) : Decidable (kb.SameSize kb' key) :=
  inferInstanceAs (Decidable ((kb.get? key).map List.length = (kb'.get? key).map List.length))

theorem Operand.resolve_congr {kb kb' : KnowledgeBase} {operand : String}
    (h : ∀ key ∈ sizeKey? operand, kb.SameSize kb' key) :
    resolve kb operand = resolve kb' operand := by
  cases hk : sizeKey? operand with
  | none => simp [resolve, hk]
  | some key =>
    have hsize : (kb.get? key).map List.length = (kb'.get? key).map List.length := h key hk
    cases hv : kb.get? key <;> cases hv' : kb'.get? key <;> simp_all [resolve]

namespace Trigger

theorem keysOfAll_eq_flatMap (children : List Trigger) :
    keysOfAll children = children.flatMap keys := by
  induction children with
  | nil => rfl
  | cons t rest ih => rw [keysOfAll, ih, List.flatMap_cons]

theorem scan_congr {kb kb' : KnowledgeBase} {children : List Trigger}
    (h : ∀ t ∈ children, diagnose kb t = diagnose kb' t) (settling : Bool) :
    scan kb settling children = scan kb' settling children := by
  induction children with
  | nil => rfl
  | cons t rest ih =>
    have ht := h t List.mem_cons_self
    have hrest := ih fun c hc => h c (List.mem_cons_of_mem _ hc)
    rw [scan, scan, ht, hrest]

theorem diagnose_congr {kb kb' : KnowledgeBase} {t : Trigger}
    (h : ∀ key ∈ t.keys, kb.SameSize kb' key) : diagnose kb t = diagnose kb' t := by
  induction t using induction with
  | step op lhs rhs children ih =>
    simp only [keys, ownKeys, keysOfAll_eq_flatMap, List.mem_append, Option.mem_toList] at h
    have hchildren : ∀ c ∈ children, diagnose kb c = diagnose kb' c := fun c hc =>
      ih c hc fun key hkey => h key (.inr (List.mem_flatMap.2 ⟨c, hc, hkey⟩))
    cases op with
    | undefined => rfl
    | unrecognized name => rfl
    | comparison c =>
      have hl := Operand.resolve_congr fun key hkey => h key (.inl (.inl hkey))
      have hr := Operand.resolve_congr fun key hkey => h key (.inl (.inr hkey))
      simp only [diagnose, compareIn, hl, hr]
    | logical c => rw [diagnose_logical, diagnose_logical, scan_congr hchildren]

theorem diagnose?_congr {kb kb' : KnowledgeBase} {t : Option Trigger}
    (h : ∀ u ∈ t, ∀ key ∈ u.keys, kb.SameSize kb' key) : diagnose? kb t = diagnose? kb' t := by
  cases t with
  | none => rfl
  | some u => exact diagnose_congr (h u rfl)

end Trigger
end HanaInsights
