import Mathlib.Tactic.Tauto
set_option autoImplicit false

namespace HanaInsights

section
variable {α : Type} (key : α → String)

/-- The items with the key of an item before them, one for each place. -/
def repeated (items : List α) : List α :=
  (items.zipIdx.filter fun p => decide (key p.1 ∈ (items.take p.2).map key)).map (·.1)

def repeatedAfter : List String → List α → List α
  | _, [] => []
  | seen, x :: rest =>
    (if seen.contains (key x) then [x] else []) ++ repeatedAfter (key x :: seen) rest

theorem repeatedAfter_eq (seen : List String) (items : List α) :
    repeatedAfter key seen items =
      (items.zipIdx.filter fun p =>
        decide (key p.1 ∈ seen ∨ key p.1 ∈ (items.take p.2).map key)).map (·.1) := by
  induction items generalizing seen with
  | nil => rfl
  | cons x rest ih =>
    -- Places count from the head, whose key moves to those seen.
    have hrest : ((rest.zipIdx.map fun p => (p.1, p.2 + 1)).filter fun p =>
          decide (key p.1 ∈ seen ∨ key p.1 ∈ ((x :: rest).take p.2).map key)) =
        (rest.zipIdx.filter fun p =>
          decide (key p.1 ∈ key x :: seen ∨ key p.1 ∈ (rest.take p.2).map key)).map
            fun p => (p.1, p.2 + 1) := by
      rw [List.filter_map]
      congr 1
      apply List.filter_congr
      intro p _
      simp only [Function.comp, List.take_succ_cons, List.map_cons, List.mem_cons,
        decide_eq_decide]
      tauto
    rw [repeatedAfter, ih, List.zipIdx_cons, Nat.zero_add, List.zipIdx_succ, List.filter_cons,
      hrest]
    by_cases hx : key x ∈ seen
    · simp [hx, Function.comp_def]
    · simp [hx, Function.comp_def]

theorem repeatedAfter_nil (items : List α) : repeatedAfter key [] items = repeated key items := by
  simp [repeatedAfter_eq, repeated]

theorem repeatedAfter_append (seen : List String) (xs ys : List α) :
    repeatedAfter key seen (xs ++ ys) =
      repeatedAfter key seen xs ++ repeatedAfter key (xs.map key ++ seen) ys := by
  induction xs generalizing seen with
  | nil => rfl
  | cons x xs ih =>
    have hseen : repeatedAfter key (xs.map key ++ key x :: seen) ys =
        repeatedAfter key ((x :: xs).map key ++ seen) ys := by
      simp only [repeatedAfter_eq, List.map_cons, List.cons_append, List.mem_append, List.mem_cons]
      congr 2
      funext p
      rw [decide_eq_decide]
      tauto
    rw [List.cons_append, repeatedAfter, repeatedAfter, ih, hseen, List.append_assoc]

variable {key}

theorem mem_repeated {items : List α} {x : α} :
    x ∈ repeated key items ↔ ∃ before after, items = before ++ x :: after ∧
      key x ∈ before.map key := by
  simp only [repeated, List.mem_map, List.mem_filter, decide_eq_true_eq, Prod.exists,
    List.mk_mem_zipIdx_iff_getElem?]
  constructor
  · rintro ⟨y, i, ⟨hy, hseen⟩, rfl⟩
    obtain ⟨hi, rfl⟩ := List.getElem?_eq_some_iff.1 hy
    refine ⟨items.take i, items.drop (i + 1), ?_, by simpa using hseen⟩
    rw [List.getElem_cons_drop, List.take_append_drop]
  · rintro ⟨before, after, rfl, hseen⟩
    exact ⟨x, before.length, ⟨by simp, by simpa using hseen⟩, rfl⟩

theorem repeatedAfter_eq_nil_iff {seen : List String} {items : List α} :
    repeatedAfter key seen items = [] ↔
      (items.map key).Nodup ∧ ∀ x ∈ items, key x ∉ seen := by
  induction items generalizing seen with
  | nil => simp [repeatedAfter]
  | cons x rest ih =>
    rw [repeatedAfter, List.append_eq_nil_iff, ih, List.map_cons, List.nodup_cons]
    have hx : (if seen.contains (key x) then [x] else []) = [] ↔ key x ∉ seen := by
      by_cases h : key x ∈ seen <;> simp [h]
    simp only [hx, List.mem_cons, List.mem_map, not_or, not_exists, not_and, forall_eq_or_imp]
    constructor
    · rintro ⟨hx, hnodup, hfresh⟩
      exact ⟨⟨fun y hy hxy => (hfresh y hy).1 hxy, hnodup⟩, hx, fun y hy => (hfresh y hy).2⟩
    · rintro ⟨⟨hx, hnodup⟩, hseen, hfresh⟩
      exact ⟨hseen, hnodup, fun y hy => ⟨hx y hy, hfresh y hy⟩⟩

theorem repeated_eq_nil_iff {items : List α} :
    repeated key items = [] ↔ (items.map key).Nodup := by
  rw [← repeatedAfter_nil, repeatedAfter_eq_nil_iff]
  simp

theorem flatMap_repeated_eq_nil_iff {β : Type} {f : α → List β} {items : List α}
    (h : ∀ x ∈ items, f x ≠ []) : (repeated key items).flatMap f = [] ↔ (items.map key).Nodup := by
  rw [← repeated_eq_nil_iff, List.flatMap_eq_nil_iff, List.eq_nil_iff_forall_not_mem]
  constructor
  · intro hnone x hx
    obtain ⟨before, after, hsplit, -⟩ := mem_repeated.1 hx
    exact h x (by simp [hsplit]) (hnone x hx)
  · exact fun hnone x hx => absurd hx (hnone x)

end

/-- Without repetitions, what comes of one item alone comes once. -/
theorem flatMap_eq_of_only {α β : Type} {f : α → List β} {items : List α} {x : α}
    (hnodup : items.Nodup) (hx : x ∈ items) (hothers : ∀ y ∈ items, y ≠ x → f y = []) :
    items.flatMap f = f x := by
  obtain ⟨before, after, rfl⟩ := List.append_of_mem hx
  rw [List.nodup_append, List.nodup_cons] at hnodup
  have hbefore : before.flatMap f = [] := by
    refine List.flatMap_eq_nil_iff.2 fun y hy => hothers y (List.mem_append_left _ hy) ?_
    exact hnodup.2.2 y hy x List.mem_cons_self
  have hafter : after.flatMap f = [] := by
    refine List.flatMap_eq_nil_iff.2 fun y hy => hothers y (by simp [hy]) ?_
    rintro rfl
    exact hnodup.2.1.1 hy
  rw [List.flatMap_append, List.flatMap_cons, hbefore, hafter]
  simp

end HanaInsights
