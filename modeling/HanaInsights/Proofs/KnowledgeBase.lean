import HanaInsights.KnowledgeBase
import HanaInsights.Proofs.Keyed
set_option autoImplicit false

namespace HanaInsights

/-- The cells that a row has under a key. Several columns may be spelled alike. -/
def Row.cellsUnder (query key : String) (columns : List String) (row : Row) : List String :=
  (columns.zip row).filterMap fun c => if query ++ ":" ++ c.1 = key then c.2 else none

theorem Row.mem_cellsUnder {query key value : String} {columns : List String} {row : Row} :
    value ∈ Row.cellsUnder query key columns row ↔
      ∃ (i : Nat) (column : String), columns[i]? = some column ∧ row[i]? = some (some value) ∧
        query ++ ":" ++ column = key := by
  rw [cellsUnder, List.mem_filterMap]
  simp only [List.mem_iff_getElem?, List.getElem?_zip_eq_some, Prod.exists]
  constructor
  · rintro ⟨column, cell, ⟨i, hcolumn, hcell⟩, h⟩
    by_cases hkey : query ++ ":" ++ column = key
    · rw [if_pos hkey] at h
      exact ⟨i, column, hcolumn, h ▸ hcell, hkey⟩
    · rw [if_neg hkey] at h
      cases h
  · rintro ⟨i, column, hcolumn, hcell, hkey⟩
    exact ⟨column, some value, ⟨i, hcolumn, hcell⟩, if_pos hkey⟩

namespace Query

def valuesUnder (q : Query) (key : String) (rows : List Row) : List String :=
  rows.flatMap (Row.cellsUnder q.name key q.columns)

def Fits (q : Query) (rows : List Row) : Prop := ∀ row ∈ rows, row.length = q.columns.length

instance (q : Query) (rows : List Row) : Decidable (q.Fits rows) :=
  inferInstanceAs (Decidable (∀ row ∈ rows, row.length = q.columns.length))

theorem find?_misfit {q : Query} {rows : List Row} (h : q.Fits rows) :
    rows.find? (fun row => row.length != q.columns.length) = none := by
  rw [List.find?_eq_none]
  intro row hr
  simp [h row hr]

end Query

namespace KnowledgeBase

/-- What a key holds once more values came in; no values leave an absent key absent. -/
def grown (old : Option (List String)) (values : List String) : Option (List String) :=
  if values.isEmpty then old else some (old.getD [] ++ values)

@[simp] theorem grown_nil (old : Option (List String)) : grown old [] = old := rfl

theorem grown_some (values more : List String) :
    grown (some values) more = some (values ++ more) := by
  cases more <;> simp [grown]

theorem grown_append (old : Option (List String)) (xs ys : List String) :
    grown (grown old xs) ys = grown old (xs ++ ys) := by
  cases xs with
  | nil => simp
  | cons x xs =>
    cases ys with
    | nil => simp
    | cons y ys => simp [grown]

theorem grown_none_inj {xs ys : List String} : grown none xs = grown none ys ↔ xs = ys := by
  cases xs <;> cases ys <;> simp [grown]

theorem grown_none_eq_none_iff {values : List String} : grown none values = none ↔ values = [] := by
  cases values <;> simp [grown]

theorem get?_append (kb : KnowledgeBase) (key value other : String) :
    (kb.append key value).get? other =
      grown (kb.get? other) (if key = other then [value] else []) := by
  rw [append, Keyed.get?_update]
  by_cases h : key = other
  · subst h
    simp [grown]
  · simp [h]

theorem cellsUnder_cons_cons (query key column : String) (cell : Option String)
    (columns : List String) (row : Row) :
    Row.cellsUnder query key (column :: columns) (cell :: row) =
      (if query ++ ":" ++ column = key then cell.toList else []) ++
        Row.cellsUnder query key columns row := by
  by_cases h : query ++ ":" ++ column = key
  · cases cell <;> simp [Row.cellsUnder, h]
  · simp [Row.cellsUnder, h]

theorem get?_appendCells (kb : KnowledgeBase) (query key : String) (columns : List String)
    (row : Row) :
    (kb.appendCells query columns row).get? key =
      grown (kb.get? key) (Row.cellsUnder query key columns row) := by
  induction columns generalizing kb row with
  | nil => cases row <;> simp [appendCells, Row.cellsUnder]
  | cons column columns ih =>
    cases row with
    | nil => simp [appendCells, Row.cellsUnder]
    | cons cell row =>
      rw [cellsUnder_cons_cons]
      cases cell with
      | none => simp [appendCells, ih]
      | some value =>
        rw [appendCells, ih, get?_append, grown_append]
        rfl

def addFitting (kb : KnowledgeBase) (q : Query) (rows : List Row) : KnowledgeBase :=
  rows.foldl (fun kb row => kb.appendCells q.name q.columns row) kb

theorem foldlM_addRow {q : Query} {rows : List Row} (h : q.Fits rows) (kb : KnowledgeBase) :
    rows.foldlM (fun kb row => kb.addRow q row) kb = .ok (kb.addFitting q rows) := by
  induction rows generalizing kb with
  | nil => rfl
  | cons row rows ih =>
    have hrow : row.length = q.columns.length := h row List.mem_cons_self
    rw [List.foldlM_cons, addRow, if_pos hrow]
    exact ih (fun r hr => h r (List.mem_cons_of_mem _ hr)) _

theorem addRows_of_fits {q : Query} {rows : List Row} (h : q.Fits rows) (kb : KnowledgeBase) :
    kb.addRows q rows = .ok (kb.addFitting q rows, rows.length) := by
  simp only [addRows, Query.find?_misfit h, foldlM_addRow h]
  rfl

theorem addRows_of_not_fits {q : Query} {rows : List Row} (h : ¬ q.Fits rows)
    (kb : KnowledgeBase) :
    ∃ bad, rows.find? (fun row => row.length != q.columns.length) = some bad ∧
      kb.addRows q rows = .error (mismatch q bad) := by
  cases hf : rows.find? (fun row => row.length != q.columns.length) with
  | none =>
    rw [List.find?_eq_none] at hf
    exact absurd (fun row hr => by simpa using hf row hr) h
  | some bad => exact ⟨bad, rfl, by simp only [addRows, hf]⟩

theorem get?_addFitting (kb : KnowledgeBase) (q : Query) (key : String) (rows : List Row) :
    (kb.addFitting q rows).get? key = grown (kb.get? key) (q.valuesUnder key rows) := by
  induction rows generalizing kb with
  | nil => rfl
  | cons row rows ih =>
    have hstep := ih (kb.appendCells q.name q.columns row)
    rw [get?_appendCells, grown_append] at hstep
    exact hstep

end KnowledgeBase
end HanaInsights
