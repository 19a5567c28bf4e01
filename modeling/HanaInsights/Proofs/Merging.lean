import Mathlib.Data.List.Basic
import HanaInsights.Proofs.Repeated
import HanaInsights.Proofs.Reports
set_option autoImplicit false

/-!
Insights put together from parts. Merging joins what the parts hold id by id, so evaluating a list
of rules is merging the evaluations of its segments; and since only the order among rules of the
same id shows in the insights, rules with different ids may be evaluated apart.
-/

namespace HanaInsights
namespace Insights

theorem get?_merge (insights other : Insights) (id : String) :
    (insights.merge other).get? id = joined (insights.get? id) (other.get? id) := by
  obtain ⟨entries, sorted⟩ := other
  show (entries.foldl (fun acc e => acc.append e.1 e.2) insights).get? id =
    joined (insights.get? id) (Keyed.lookup id entries)
  induction entries generalizing insights with
  | nil => exact (joined_none _).symm
  | cons e rest ih =>
    obtain ⟨rule, outcomes⟩ := e
    rw [List.pairwise_cons] at sorted
    rw [List.foldl_cons, ih _ sorted.2, get?_append, Keyed.lookup]
    by_cases h : rule = id
    · have hrest : Keyed.lookup id rest = none :=
        Keyed.lookup_eq_none_of_lt fun e he => h ▸ sorted.1 e he
      rw [if_pos h, if_pos h, hrest, joined_none]
    · rw [if_neg h, if_neg h, joined_none]

theorem samples_merge (insights other : Insights) :
    (insights.merge other).samples.Perm (insights.samples ++ other.samples) :=
  samples_foldl_append Prod.fst Prod.snd other.entries insights

theorem mem_keys_merge {insights other : Insights} {id : String} :
    id ∈ (insights.merge other).keys ↔ id ∈ insights.keys ∨ id ∈ other.keys := by
  simp only [Keyed.mem_keys_iff, get?_merge, joined, ne_eq, Option.merge_eq_none_iff]
  exact Decidable.not_and_iff_not_or_not

theorem joined_recorded (kb : KnowledgeBase) (xs ys : List Rule) :
    joined (recorded kb none xs) (recorded kb none ys) = recorded kb none (xs ++ ys) := by
  cases xs <;> cases ys <;> simp [recorded, joined]

end Insights

namespace RuleSet

def insights (kb : KnowledgeBase) (diagnose : Bool) (rules : List Rule) : Insights :=
  (evaluate rules kb diagnose).value.1

variable {kb : KnowledgeBase} {diagnose : Bool}

theorem insights_congr {xs ys : List Rule}
    (h : ∀ id, (xs.filter fun rule => rule.id == id) = ys.filter fun rule => rule.id == id) :
    insights kb diagnose xs = insights kb diagnose ys := by
  refine Keyed.ext_get? fun id => ?_
  rw [insights, insights, get?_evaluate, get?_evaluate, h]

theorem insights_append (xs ys : List Rule) :
    insights kb diagnose (xs ++ ys) =
      (insights kb diagnose xs).merge (insights kb diagnose ys) := by
  refine Keyed.ext_get? fun id => ?_
  rw [Insights.get?_merge, insights, insights, insights, get?_evaluate, get?_evaluate,
    get?_evaluate, Insights.joined_recorded, List.filter_append]

end RuleSet

/-- An order and a grouping in which the parts of tasks are merged, into nothing to begin with. -/
inductive Grouping (τ : Type) where
  | empty
  | part (task : τ)
  | merge (left right : Grouping τ)

namespace Grouping

variable {τ : Type}

def tasks : Grouping τ → List τ
  | .empty => []
  | .part task => [task]
  | .merge left right => left.tasks ++ right.tasks

def result (part : τ → Insights) : Grouping τ → Insights
  | .empty => Insights.empty
  | .part task => part task
  | .merge left right => (left.result part).merge (right.result part)

section
variable (part : τ → Insights)

theorem mem_keys_result (g : Grouping τ) (id : String) :
    id ∈ (g.result part).keys ↔ ∃ task ∈ g.tasks, id ∈ (part task).keys := by
  induction g with
  | empty => simp [result, tasks, Insights.empty, Keyed.empty, Keyed.keys]
  | part task => simp [result, tasks]
  | merge left right hleft hright =>
    rw [result, Insights.mem_keys_merge, hleft, hright]
    simp only [tasks, List.mem_append, or_and_right, exists_or]

theorem samples_result (g : Grouping τ) :
    (g.result part).samples.Perm (g.tasks.flatMap fun task => (part task).samples) := by
  induction g with
  | empty => exact .refl _
  | part task => simp [result, tasks]
  | merge left right hleft hright =>
    rw [tasks, List.flatMap_append]
    exact (Insights.samples_merge _ _).trans (hleft.append hright)

end

theorem result_insights (kb : KnowledgeBase) (diagnose : Bool) (rules : τ → List Rule)
    (g : Grouping τ) :
    g.result (fun task => RuleSet.insights kb diagnose (rules task)) =
      RuleSet.insights kb diagnose (g.tasks.flatMap rules) := by
  induction g with
  | empty => cases diagnose <;> rfl
  | part task => rw [result, tasks, List.flatMap_singleton]
  | merge left right hleft hright =>
    rw [result, tasks, List.flatMap_append, RuleSet.insights_append, hleft, hright]

end Grouping

/-- Rules of one id come from one task, so taking the tasks apart keeps their order. -/
theorem filter_id_flatMap_tasks {τ : Type} [DecidableEq τ] {rules : List Rule} {task : Rule → τ}
    {tasks : List τ} (hsame : ∀ r ∈ rules, ∀ r' ∈ rules, r.id = r'.id → task r = task r')
    (hnodup : tasks.Nodup) (hall : ∀ r ∈ rules, task r ∈ tasks) (id : String) :
    ((tasks.flatMap fun t => rules.filter fun r => task r == t).filter fun r => r.id == id) =
      rules.filter fun r => r.id == id := by
  -- Within one id all rules have the same task, so all but that task are empty here.
  have hswap : ∀ t, ((rules.filter fun r => task r == t).filter fun r => r.id == id) =
      (rules.filter fun r => r.id == id).filter fun r => task r == t :=
    fun t => List.filter_comm _ _ rules
  rw [List.filter_flatMap]
  simp only [hswap]
  have hshared : ∀ r ∈ rules.filter (fun r => r.id == id), r ∈ rules ∧ r.id = id := fun r hr => by
    simpa using List.mem_filter.1 hr
  cases hrules : rules.filter fun r => r.id == id with
  | nil => simp
  | cons r rest =>
    rw [hrules] at hshared
    obtain ⟨hr, hid⟩ := hshared r List.mem_cons_self
    have htask : ∀ r' ∈ r :: rest, task r' = task r := fun r' hr' =>
      hsame r' (hshared r' hr').1 r hr ((hshared r' hr').2.trans hid.symm)
    have hothers : ∀ t ∈ tasks, t ≠ task r →
        ((r :: rest).filter fun r' => task r' == t) = [] := by
      intro t _ ht
      refine List.filter_eq_nil_iff.2 fun r' hr' he => ht ?_
      rw [← htask r' hr', eq_of_beq he]
    rw [flatMap_eq_of_only hnodup (hall r hr) hothers]
    exact List.filter_eq_self.2 fun r' hr' => beq_iff_eq.2 (htask r' hr')

/-- Whatever is merged in whatever grouping, segments of the rules give the insights of all rules if
they are merged in order, and tasks give them in any order if each has all the rules of an id. Equal
rules share their id, so the task is chosen for the rule and not for its place. No entry and no
outcome comes from anywhere else or gets lost. -/
theorem merged_tasks_are_sequential {τ : Type} [DecidableEq τ] (kb : KnowledgeBase)
    (diagnose : Bool) (rules : List Rule) :
    (∀ (task : Rule → τ) (g : Grouping τ),
      (∀ r ∈ rules, ∀ r' ∈ rules, r.id = r'.id → task r = task r') →
      g.tasks.Nodup → (∀ r ∈ rules, task r ∈ g.tasks) →
      g.result (fun t => RuleSet.insights kb diagnose (rules.filter fun r => task r == t)) =
        RuleSet.insights kb diagnose rules) ∧
    (∀ g : Grouping (List Rule), g.tasks.flatten = rules →
      g.result (RuleSet.insights kb diagnose) = RuleSet.insights kb diagnose rules) ∧
    ∀ (part : τ → Insights) (g : Grouping τ),
      (∀ id, id ∈ (g.result part).keys ↔ ∃ t ∈ g.tasks, id ∈ (part t).keys) ∧
      (g.result part).samples.Perm (g.tasks.flatMap fun t => (part t).samples) := by
  refine ⟨fun task g hsame hnodup hall => ?_, fun g hrules => ?_, fun part g => ?_⟩
  · rw [g.result_insights kb diagnose fun t => rules.filter fun r => task r == t]
    exact RuleSet.insights_congr fun id => filter_id_flatMap_tasks hsame hnodup hall id
  · rw [g.result_insights kb diagnose fun segment => segment, List.flatMap_id', hrules]
  · exact ⟨g.mem_keys_result part, g.samples_result part⟩

def sharedIds : List Rule :=
  [{ id := "shared", recommendations := [{ id := "one", trigger := none }] }, { id := "bare" },
    { id := "shared", recommendations := [{ id := "two", trigger := none }] }]

theorem merged_tasks_of_shared_ids :
    let part := fun t => RuleSet.insights KnowledgeBase.empty false
      (sharedIds.filter fun r => (r.id == "bare") == t)
    let merged := (Grouping.merge (.merge .empty (.part true)) (.part false)).result part
    merged = RuleSet.insights KnowledgeBase.empty false sharedIds ∧
    merged.entries = [("bare", []), ("shared", [⟨"one", false⟩, ⟨"two", false⟩])] ∧
    (Grouping.merge (.part (sharedIds.take 1)) (.part (sharedIds.drop 1))).result
      (RuleSet.insights KnowledgeBase.empty false) =
        RuleSet.insights KnowledgeBase.empty false sharedIds := by
  have h := merged_tasks_are_sequential (τ := Bool) KnowledgeBase.empty false sharedIds
  refine ⟨h.1 (fun r => r.id == "bare") (.merge (.merge .empty (.part true)) (.part false))
    (by decide) (by decide) (by decide), by decide, h.2.1 _ rfl⟩

end HanaInsights
