import HanaInsights.Proofs.Selection
import HanaInsights.Trigger.Evaluation
set_option autoImplicit false

/-!
What `size(query:column)` says. It is the number of rows in which the column is not NULL if neither
name has a parenthesis and no other declared column is spelled alike, and only then: a name with a
parenthesis makes the operand a text like any other, and columns that are spelled alike are counted
together.
-/

namespace HanaInsights

namespace Operand

def sizeOf (key : String) : String := "size(" ++ key ++ ")"

def Plain (text : String) : Prop := text.toList.all (fun c => !isParenthesis c) = true

instance (text : String) : Decidable (Plain text) :=
  inferInstanceAs (Decidable (text.toList.all (fun c => !isParenthesis c) = true))

theorem closingKey?_append (cs : List Char) :
    closingKey? (cs ++ [')']) =
      if cs.all (fun c => !isParenthesis c) then some cs else none := by
  induction cs with
  | nil => rfl
  | cons c cs ih =>
    cases hc : isParenthesis c with
    | true =>
      have hlong : (c :: cs ++ [')']).dropWhile (fun c => !isParenthesis c) = c :: cs ++ [')'] := by
        simp [hc]
      rw [closingKey?, hlong, if_neg (by simp [hc])]
      split
      · rename_i h
        exact absurd (congrArg List.length h) (by simp)
      · rfl
    | false =>
      have hdrop : (c :: cs ++ [')']).dropWhile (fun c => !isParenthesis c) =
          (cs ++ [')']).dropWhile fun c => !isParenthesis c := by simp [hc]
      have htake : (c :: cs ++ [')']).takeWhile (fun c => !isParenthesis c) =
          c :: (cs ++ [')']).takeWhile fun c => !isParenthesis c := by simp [hc]
      have hcons : closingKey? (c :: cs ++ [')']) = (closingKey? (cs ++ [')'])).map (c :: ·) := by
        rw [closingKey?, closingKey?, hdrop, htake]
        split <;> rfl
      rw [hcons, ih]
      rw [List.all_cons, hc, Bool.not_false, Bool.true_and]
      split <;> rfl

theorem sizeKeyChars?_sizeOf (key : String) :
    sizeKeyChars? (sizeOf key).toList = closingKey? (key.toList ++ [')']) := by
  have hchars : (sizeOf key).toList = 's' :: 'i' :: 'z' :: 'e' :: '(' :: (key.toList ++ [')']) := by
    simp [sizeOf]
  rw [hchars, sizeKeyChars?]

theorem sizeKey?_sizeOf_of_plain {key : String} (h : Plain key) :
    sizeKey? (sizeOf key) = some key := by
  unfold Plain at h
  rw [sizeKey?, sizeKeyChars?_sizeOf, closingKey?_append, if_pos h]
  simp

theorem sizeKey?_sizeOf_of_not_plain {key : String} (h : ¬ Plain key) :
    sizeKey? (sizeOf key) = none := by
  unfold Plain at h
  rw [sizeKey?, sizeKeyChars?_sizeOf, closingKey?_append, if_neg h]
  rfl

theorem closingKey?_sound {cs key : List Char} (h : closingKey? cs = some key) :
    cs = key ++ [')'] ∧ key.all (fun c => !isParenthesis c) = true := by
  unfold closingKey? at h
  split at h
  · rename_i hdrop
    obtain rfl := Option.some.inj h
    have hsplit := List.takeWhile_append_dropWhile (p := fun c => !isParenthesis c) (l := cs)
    rw [hdrop] at hsplit
    exact ⟨hsplit.symm, List.all_takeWhile⟩
  · cases h

theorem sizeKey?_eq_some_iff {operand key : String} :
    sizeKey? operand = some key ↔ operand = sizeOf key ∧ Plain key := by
  constructor
  · intro h
    obtain ⟨cs, hcs, rfl⟩ := Option.map_eq_some_iff.1 h
    unfold sizeKeyChars? at hcs
    split at hcs
    · rename_i body hbody
      obtain ⟨rfl, hplain⟩ := closingKey?_sound hcs
      refine ⟨String.toList_injective ?_, by simpa [Plain] using hplain⟩
      rw [hbody]
      simp [sizeOf]
    · cases hcs
  · rintro ⟨rfl, hplain⟩
    exact sizeKey?_sizeOf_of_plain hplain

def counted (key : String) (n : Nat) : Except InsightError String :=
  if n = 0 then .error (.keyNotFound key) else .ok (toString n)

theorem resolve_sizeOf {kb : KnowledgeBase} {key : String} {values : List String}
    (hplain : Plain key) (h : kb.get? key = KnowledgeBase.grown none values) :
    resolve kb (sizeOf key) = counted key values.length := by
  cases values with
  | nil => simp [resolve, sizeKey?_sizeOf_of_plain hplain, h, counted]
  | cons v vs => simp [resolve, sizeKey?_sizeOf_of_plain hplain, h, counted, KnowledgeBase.grown]

end Operand

namespace Row

theorem cellsUnder_eq_nil {query key : String} {columns : List String}
    (h : ∀ column ∈ columns, query ++ ":" ++ column ≠ key) (row : Row) :
    cellsUnder query key columns row = [] := by
  rw [cellsUnder, List.filterMap_eq_nil_iff]
  intro c hc
  exact if_neg (h c.1 (List.of_mem_zip hc).1)

theorem cellsUnder_of_unique {query key : String} {columns : List String} {i : Nat}
    (hi : i < columns.length) (hkey : query ++ ":" ++ columns[i] = key)
    (hunique : ∀ j, (hj : j < columns.length) → query ++ ":" ++ columns[j] = key → j = i)
    {row : Row} (hrow : row.length = columns.length) :
    cellsUnder query key columns row = (row[i]?.getD none).toList := by
  induction columns generalizing i row with
  | nil => exact absurd hi (Nat.not_lt_zero i)
  | cons column columns ih =>
    cases row with
    | nil => simp at hrow
    | cons cell row =>
      rw [KnowledgeBase.cellsUnder_cons_cons]
      cases i with
      | zero =>
        have hrest : cellsUnder query key columns row = [] := by
          apply cellsUnder_eq_nil
          intro c hc hspelled
          obtain ⟨j, hj, rfl⟩ := List.getElem_of_mem hc
          have hzero := hunique (j + 1) (Nat.succ_lt_succ hj) hspelled
          omega
        have hcolumn : query ++ ":" ++ column = key := hkey
        rw [hrest, if_pos hcolumn]
        simp
      | succ i =>
        have hne : query ++ ":" ++ column ≠ key := by
          intro hspelled
          have hzero := hunique 0 (Nat.zero_lt_succ _) hspelled
          omega
        rw [if_neg hne, List.nil_append, List.getElem?_cons_succ]
        apply ih (Nat.lt_of_succ_lt_succ hi) hkey
        · intro j hj hspelled
          have hsucc := hunique (j + 1) (Nat.succ_lt_succ hj) hspelled
          omega
        · simpa using hrow

def only (place width : Nat) (value : String) : Row := (blank width).set place (some value)

end Row

namespace Query

/-- The number of rows in which the column at a place is not NULL. -/
def filled (place : Nat) (rows : List Row) : Nat :=
  rows.countP fun row => (row[place]?.getD none).isSome

theorem length_valuesUnder {q : Query} {key : String} {i : Nat} (hi : i < q.columns.length)
    (hkey : q.name ++ ":" ++ q.columns[i] = key)
    (hunique : ∀ j, (hj : j < q.columns.length) → q.name ++ ":" ++ q.columns[j] = key → j = i)
    {rows : List Row} (hfits : q.Fits rows) : (q.valuesUnder key rows).length = filled i rows := by
  induction rows with
  | nil => rfl
  | cons row rows ih =>
    have hcells := Row.cellsUnder_of_unique hi hkey hunique (hfits row List.mem_cons_self)
    have hrest := ih fun r hr => hfits r (List.mem_cons_of_mem _ hr)
    rw [valuesUnder] at hrest ⊢
    rw [List.flatMap_cons, List.length_append, hcells, hrest, filled, filled, List.countP_cons]
    cases row[i]?.getD none <;> simp [Nat.add_comm]

theorem contribution_eq_nil {q : Query} {key : String}
    (h : ∀ column ∈ q.columns, q.name ++ ":" ++ column ≠ key)
    (result : Except QueryError (List Row)) : q.contribution key result = [] := by
  cases result with
  | error e => rfl
  | ok rows =>
    have hnil : q.valuesUnder key rows = [] :=
      List.flatMap_eq_nil_iff.2 fun row _ => Row.cellsUnder_eq_nil h row
    simp [contribution, hnil]

theorem contribution_only {q : Query} {key : String} {j : Nat} (hj : j < q.columns.length)
    (hkey : q.name ++ ":" ++ q.columns[j] = key) (value : String) :
    q.contribution key (.ok [Row.only j q.columns.length value]) ≠ [] := by
  subst hkey
  have hfits : q.Fits [Row.only j q.columns.length value] := by
    simp [Fits, Row.only, Row.blank]
  have hcell : (Row.only j q.columns.length value)[j]? = some (some value) := by
    simp [Row.only, Row.blank, hj]
  exact List.ne_nil_of_mem (mem_contribution hfits List.mem_cons_self hj hcell)

end Query

namespace Cycle

section
variable {rules : List Rule} {q : Query} {i : Nat}

/-- Every declared column that is spelled like the given one is that column. -/
def SpelledAlone (rules : List Rule) (q : Query) (i : Nat) (hi : i < q.columns.length) : Prop :=
  ∀ p ∈ rules.flatMap (·.queries), ∀ j, (hj : j < p.columns.length) →
    p.name ++ ":" ++ p.columns[j] = q.name ++ ":" ++ q.columns[i] → p = q ∧ j = i

instance (hi : i < q.columns.length) : Decidable (SpelledAlone rules q i hi) :=
  inferInstanceAs (Decidable (∀ p ∈ rules.flatMap (·.queries), ∀ j, (hj : j < p.columns.length) →
    p.name ++ ":" ++ p.columns[j] = q.name ++ ":" ++ q.columns[i] → p = q ∧ j = i))

theorem held_of_spelledAlone (execute : Executor)
    (hqueries : (rules.flatMap (·.queries)).Nodup)
    (hq : q ∈ rules.flatMap (·.queries)) (hi : i < q.columns.length)
    (halone : SpelledAlone rules q i hi) :
    held execute (rules.flatMap (·.queries)) (q.name ++ ":" ++ q.columns[i]) =
      q.contribution (q.name ++ ":" ++ q.columns[i]) (execute q).value := by
  have hothers : ∀ p ∈ rules.flatMap (·.queries), p ≠ q →
      p.contribution (q.name ++ ":" ++ q.columns[i]) (execute p).value = [] := by
    intro p hp hne
    apply Query.contribution_eq_nil
    intro column hcolumn hspelled
    obtain ⟨j, hj, rfl⟩ := List.getElem_of_mem hcolumn
    exact hne (halone p hp j hj hspelled).1
  exact flatMap_eq_of_only hqueries hq hothers

theorem nodup_queries_of_valid (hvalid : RuleSet.errors rules = []) :
    (rules.flatMap (·.queries)).Nodup := by
  rw [← distinctQueries_of_valid hvalid]
  exact nodup_distinctQueries _

def answering (p : Query) (rows : List Row) : Executor :=
  Executor.ofFunction fun q => .ok (if q = p then rows else [])

theorem get?_collect_answering (hvalid : RuleSet.errors rules = []) {p : Query}
    (hp : p ∈ rules.flatMap (·.queries)) {key : String} {j : Nat} (hj : j < p.columns.length)
    (hkey : p.name ++ ":" ++ p.columns[j] = key) :
    ∃ v vs, (collect (answering p [Row.only j p.columns.length ""]) rules).value.get? key =
      KnowledgeBase.grown none (v :: vs) := by
  have hget := get?_collect (answering p [Row.only j p.columns.length ""]) rules key
  rw [distinctQueries_of_valid hvalid] at hget
  cases hheld : held (answering p [Row.only j p.columns.length ""])
      (rules.flatMap (·.queries)) key with
  | cons v vs => exact ⟨v, vs, hheld ▸ hget⟩
  | nil =>
    have hnone := List.flatMap_eq_nil_iff.1 hheld p hp
    simp only [answering, Executor.ofFunction, Logged.value_pure, if_pos] at hnone
    exact absurd hnone (Query.contribution_only hj hkey "")

/-- Whatever is executed, a size counts the rows in which its column is not NULL if the names are
plain and no other declared column is spelled like it. Otherwise some executor gives another size. -/
theorem size_counts_rows_iff (hvalid : RuleSet.errors rules = [])
    (hq : q ∈ rules.flatMap (·.queries)) (hi : i < q.columns.length) :
    (∀ (execute : Executor) (rows : List Row), (execute q).value = .ok rows → q.Fits rows →
      Operand.resolve (collect execute rules).value
          (Operand.sizeOf (q.name ++ ":" ++ q.columns[i])) =
        Operand.counted (q.name ++ ":" ++ q.columns[i]) (Query.filled i rows)) ↔
    Operand.Plain (q.name ++ ":" ++ q.columns[i]) ∧ SpelledAlone rules q i hi := by
  constructor
  · intro hcounts
    have hplain : Operand.Plain (q.name ++ ":" ++ q.columns[i]) := by
      by_contra hnot
      -- No row is a count of zero, but a text is there whatever the knowledge base holds.
      have hnothing := hcounts (answering q []) [] (by simp [answering, Executor.ofFunction])
        (by simp [Query.Fits])
      simp [Operand.resolve, Operand.sizeKey?_sizeOf_of_not_plain hnot, Operand.counted,
        Query.filled] at hnothing
    refine ⟨hplain, fun p hp j hj hkey => ?_⟩
    by_contra hother
    -- The other column has the only value, so that no row of the query itself counts.
    obtain ⟨v, vs, hget⟩ := get?_collect_answering hvalid hp hj hkey
    have hzero : q.Fits (if q = p then [Row.only j p.columns.length ""] else []) ∧
        Query.filled i (if q = p then [Row.only j p.columns.length ""] else []) = 0 := by
      by_cases hqp : q = p
      · subst hqp
        have hji : j ≠ i := fun he => hother ⟨rfl, he⟩
        simp [Query.Fits, Query.filled, Row.only, Row.blank, List.getElem_set_ne hji, hi]
      · simp [Query.Fits, Query.filled, hqp]
    have hcount := hcounts (answering p [Row.only j p.columns.length ""]) _ rfl hzero.1
    rw [Operand.resolve_sizeOf hplain hget, hzero.2] at hcount
    simp [Operand.counted] at hcount
  · rintro ⟨hplain, halone⟩ execute rows hrows hfits
    have hget := get?_collect execute rules (q.name ++ ":" ++ q.columns[i])
    rw [distinctQueries_of_valid hvalid,
      held_of_spelledAlone execute (nodup_queries_of_valid hvalid) hq hi halone, hrows] at hget
    have hlength := Query.length_valuesUnder hi rfl
      (fun j hj hkey => (halone q hq j hj hkey).2) hfits
    rw [Operand.resolve_sizeOf hplain hget, Query.contribution, if_pos hfits, hlength]

def hostRules : List Rule :=
  [{ id := "hosts", queries := [{ name := "q_hosts", columns := ["HOST", "STATE"] }] },
    { id := "backups", queries := [{ name := "q_backups", columns := ["STATE"] }] }]

theorem size_counts_rows_of_hosts :
    RuleSet.errors hostRules = [] ∧
    ∀ (execute : Executor) (rows : List Row),
      (execute { name := "q_hosts", columns := ["HOST", "STATE"] }).value = .ok rows →
      Query.Fits { name := "q_hosts", columns := ["HOST", "STATE"] } rows →
      Operand.resolve (collect execute hostRules).value (Operand.sizeOf "q_hosts:STATE") =
        Operand.counted "q_hosts:STATE" (Query.filled 1 rows) := by
  have hvalid : RuleSet.errors hostRules = [] := by decide
  exact ⟨hvalid, (size_counts_rows_iff (i := 1) hvalid (by decide) (by decide)).2 (by decide)⟩

/-- Two queries whose names and columns are not the same, with one key for both. -/
def clashingRules : List Rule :=
  [{ id := "r"
     queries := [{ name := "a", columns := ["b:c"] }, { name := "a:b", columns := ["c"] }] }]

theorem size_counts_rows_of_both_queries :
    let execute := Executor.ofFunction fun _ => .ok [[some "v"]]
    RuleSet.errors clashingRules = [] ∧
    (execute { name := "a", columns := ["b:c"] }).value = .ok [[some "v"]] ∧
    Query.Fits { name := "a", columns := ["b:c"] } [[some "v"]] ∧
    Operand.counted "a:b:c" (Query.filled 0 [[some "v"]]) = .ok "1" ∧
    Operand.resolve (collect execute clashingRules).value (Operand.sizeOf "a:b:c") = .ok "2" := by
  exact ⟨by decide, rfl, by decide, rfl, rfl⟩

end
end Cycle
end HanaInsights
