import HanaInsights.Insights
import HanaInsights.Proofs.Keyed
set_option autoImplicit false

namespace HanaInsights

namespace Insights

/-- What an id holds once rules with it were recorded; a rule without recommendations counts. -/
def recorded (kb : KnowledgeBase) (old : Option (List Outcome)) (rules : List Rule) :
    Option (List Outcome) :=
  if rules.isEmpty then old else some (old.getD [] ++ rules.flatMap (Rule.outcomes kb))

theorem get?_record (insights : Insights) (kb : KnowledgeBase) (rule : Rule) (id : String) :
    (insights.record kb rule).get? id =
      recorded kb (insights.get? id) (if rule.id = id then [rule] else []) := by
  rw [record, append, Keyed.get?_update]
  by_cases h : rule.id = id
  · subst h
    simp [recorded]
  · simp [recorded, h]

theorem recorded_cons (kb : KnowledgeBase) (old : Option (List Outcome)) (rule : Rule)
    (rules : List Rule) :
    recorded kb (recorded kb old [rule]) rules = recorded kb old (rule :: rules) := by
  cases rules <;> simp [recorded]

theorem get?_foldl_record (kb : KnowledgeBase) (rules : List Rule) (insights : Insights)
    (id : String) :
    (rules.foldl (fun acc rule => acc.record kb rule) insights).get? id =
      recorded kb (insights.get? id) (rules.filter fun rule => rule.id == id) := by
  induction rules generalizing insights with
  | nil => rfl
  | cons rule rules ih =>
    rw [List.foldl_cons, ih, get?_record]
    by_cases h : rule.id = id
    · rw [if_pos h, recorded_cons, List.filter_cons_of_pos (by simpa using h)]
    · rw [if_neg h, List.filter_cons_of_neg (by simpa using h)]
      rfl

def joined : Option (List Outcome) → Option (List Outcome) → Option (List Outcome) :=
  Option.merge (· ++ ·)

theorem joined_none (held : Option (List Outcome)) : joined held none = held :=
  Option.merge_none_right

theorem joined_assoc (x y z : Option (List Outcome)) :
    joined (joined x y) z = joined x (joined y z) :=
  (Option.associative_merge (· ++ · : List Outcome → List Outcome → List Outcome)).assoc x y z

theorem get?_append (insights : Insights) (rule : String) (outcomes : List Outcome)
    (id : String) :
    (insights.append rule outcomes).get? id =
      joined (insights.get? id) (if rule = id then some outcomes else none) := by
  rw [append, Keyed.get?_update]
  by_cases h : rule = id
  · subst h
    rw [if_pos rfl, if_pos rfl]
    cases insights.get? rule <;> rfl
  · rw [if_neg h, if_neg h, joined_none]

theorem append_append (insights : Insights) (rule : String) (xs ys : List Outcome) :
    (insights.append rule xs).append rule ys = insights.append rule (xs ++ ys) := by
  refine Keyed.ext_get? fun id => ?_
  rw [get?_append, get?_append, get?_append, joined_assoc]
  by_cases h : rule = id <;> simp [h, joined]

end Insights

theorem RuleSet.get?_evaluate (rules : List Rule) (kb : KnowledgeBase) (diagnose : Bool)
    (id : String) :
    (RuleSet.evaluate rules kb diagnose).value.1.get? id =
      Insights.recorded kb none (rules.filter fun rule => rule.id == id) := by
  cases diagnose <;> exact Insights.get?_foldl_record kb rules Insights.empty id

end HanaInsights
