import HanaInsights.Proofs.Collection
set_option autoImplicit false

/-!
Adding rows in place. A failure does not take back what was written before it, so rows added one
after another leave those in front of a row that does not fit. Adding the rows of a result together
looks at every row first: it comes to the same, except that a failure leaves nothing behind.
-/

namespace HanaInsights

theorem Query.fits_or_misfit (q : Query) (rows : List Row) :
    q.Fits rows ∨ ∃ fitting bad rest, rows = fitting ++ bad :: rest ∧ q.Fits fitting ∧
      bad.length ≠ q.columns.length := by
  induction rows with
  | nil => exact .inl (fun _ hrow => absurd hrow List.not_mem_nil)
  | cons row rows ih =>
    by_cases hrow : row.length = q.columns.length
    · rcases ih with hfits | ⟨fitting, bad, rest, rfl, hfits, hbad⟩
      · exact .inl (List.forall_mem_cons.2 ⟨hrow, hfits⟩)
      · exact .inr ⟨row :: fitting, bad, rest, rfl, List.forall_mem_cons.2 ⟨hrow, hfits⟩, hbad⟩
    · exact .inr ⟨[], row, rows, rfl, fun _ hmem => absurd hmem List.not_mem_nil, hrow⟩

namespace KnowledgeBase

section
variable {q : Query} {fitting rest : List Row} {bad : Row}

theorem find?_misfit_append (hfits : q.Fits fitting) (hbad : bad.length ≠ q.columns.length) :
    (fitting ++ bad :: rest).find? (fun row => row.length != q.columns.length) = some bad := by
  rw [List.find?_append, Query.find?_misfit hfits]
  simp [hbad]

theorem foldlM_addRow_of_misfit (hfits : q.Fits fitting) (hbad : bad.length ≠ q.columns.length)
    (kb : KnowledgeBase) :
    (fitting ++ bad :: rest).foldlM (fun kb row => kb.addRow q row) kb =
      .error (mismatch q bad) := by
  have hrow : ∀ held : KnowledgeBase, held.addRow q bad = .error (mismatch q bad) :=
    fun _ => if_neg hbad
  rw [List.foldlM_append, foldlM_addRow hfits]
  show (bad :: rest).foldlM (fun kb row => kb.addRow q row) (kb.addFitting q fitting) = _
  rw [List.foldlM_cons, hrow]
  rfl

theorem addRows_of_misfit (hfits : q.Fits fitting) (hbad : bad.length ≠ q.columns.length)
    (kb : KnowledgeBase) :
    kb.addRows q (fitting ++ bad :: rest) = .error (mismatch q bad) := by
  simp only [addRows, find?_misfit_append hfits hbad]

end

theorem addRows_eq_foldlM (kb : KnowledgeBase) (q : Query) (rows : List Row) :
    kb.addRows q rows =
      (rows.foldlM (fun (held : KnowledgeBase) row => held.addRow q row) kb).map
        fun held => (held, rows.length) := by
  rcases q.fits_or_misfit rows with hfits | ⟨fitting, bad, rest, rfl, hfits, hbad⟩
  · rw [addRows_of_fits hfits, foldlM_addRow hfits]
    rfl
  · rw [addRows_of_misfit hfits hbad, foldlM_addRow_of_misfit hfits hbad]
    rfl

/-- What was written stays written, whatever fails after it. -/
abbrev Writing := ExceptT InsightError (StateM KnowledgeBase)

def Writing.on {α : Type} (w : Writing α) (kb : KnowledgeBase) :
    Except InsightError α × KnowledgeBase := w.run.run kb

def writeRow (q : Query) (row : Row) : Writing Unit :=
  if row.length = q.columns.length then modify fun kb => kb.appendCells q.name q.columns row
  else throw (mismatch q row)

def writeRows (q : Query) (rows : List Row) : Writing Nat :=
  match rows.find? fun row => row.length != q.columns.length with
  | some bad => throw (mismatch q bad)
  | none => do
    forM rows (writeRow q)
    pure rows.length

section
variable {q : Query} (kb : KnowledgeBase)

theorem on_writeRow_of_fits {row : Row} (h : row.length = q.columns.length) :
    (writeRow q row).on kb = (.ok (), kb.appendCells q.name q.columns row) := by
  rw [writeRow, if_pos h]
  rfl

theorem on_writeRow_of_misfit {row : Row} (h : row.length ≠ q.columns.length) :
    (writeRow q row).on kb = (.error (mismatch q row), kb) := by
  rw [writeRow, if_neg h]
  rfl

theorem on_bind_of_ok {α β : Type} {w : Writing α} {f : α → Writing β} {kb kb' : KnowledgeBase}
    {a : α} (h : w.on kb = (.ok a, kb')) : (w >>= f).on kb = (f a).on kb' := by
  unfold Writing.on at *
  simp only [ExceptT.run_bind, StateT.run_bind, h]
  rfl

theorem on_bind_of_error {α β : Type} {w : Writing α} {f : α → Writing β}
    {kb kb' : KnowledgeBase} {e : InsightError} (h : w.on kb = (.error e, kb')) :
    (w >>= f).on kb = (.error e, kb') := by
  unfold Writing.on at *
  simp only [ExceptT.run_bind, StateT.run_bind, h]
  rfl

theorem on_forM_writeRow_of_fits {rows : List Row} (h : q.Fits rows) :
    Writing.on (forM rows (writeRow q)) kb = (.ok (), kb.addFitting q rows) := by
  induction rows generalizing kb with
  | nil => rfl
  | cons row rows ih =>
    have hrow := on_writeRow_of_fits kb (h row List.mem_cons_self)
    rw [List.forM_cons, on_bind_of_ok hrow]
    exact ih _ fun r hr => h r (List.mem_cons_of_mem _ hr)

theorem on_writeRows_of_fits {rows : List Row} (h : q.Fits rows) :
    (writeRows q rows).on kb = (.ok rows.length, kb.addFitting q rows) := by
  simp only [writeRows, Query.find?_misfit h]
  exact on_bind_of_ok (on_forM_writeRow_of_fits kb h)

theorem on_writeRows_of_misfit {fitting rest : List Row} {bad : Row} (hfits : q.Fits fitting)
    (hbad : bad.length ≠ q.columns.length) :
    (writeRows q (fitting ++ bad :: rest)).on kb = (.error (mismatch q bad), kb) := by
  simp only [writeRows, find?_misfit_append hfits hbad]
  rfl

end

end KnowledgeBase

/-- What a knowledge base may be asked to take: one row of a query, or the rows of a result. -/
inductive Ingestion where
  | single (query : Query) (row : Row)
  | whole (query : Query) (rows : List Row)

namespace Ingestion

open KnowledgeBase

def query : Ingestion → Query
  | .single q _ => q
  | .whole q _ => q

def table : Ingestion → List Row
  | .single _ row => [row]
  | .whole _ rows => rows

def result (kb : KnowledgeBase) : Ingestion → Except InsightError KnowledgeBase
  | .single q row => kb.addRow q row
  | .whole q rows => (kb.addRows q rows).map Prod.fst

def write : Ingestion → Writing Unit
  | .single q row => writeRow q row
  | .whole q rows => do
    let _ ← writeRows q rows
    pure ()

/-- The cells under a key that an operation adds, which are none if it fails. -/
def values (key : String) (op : Ingestion) : List String :=
  op.query.contribution key (.ok op.table)

section
variable {op : Ingestion} (kb : KnowledgeBase)

theorem succeeds_of_fits (h : op.query.Fits op.table) :
    op.result kb = .ok (kb.addFitting op.query op.table) ∧
      op.write.on kb = (.ok (), kb.addFitting op.query op.table) := by
  cases op with
  | single q row =>
    have hrow : row.length = q.columns.length := h row List.mem_cons_self
    exact ⟨if_pos hrow, on_writeRow_of_fits kb hrow⟩
  | whole q rows =>
    exact ⟨congrArg (Except.map Prod.fst) (addRows_of_fits h kb),
      on_bind_of_ok (on_writeRows_of_fits kb h)⟩

theorem fails_of_misfit {fitting rest : List Row} {bad : Row}
    (htable : op.table = fitting ++ bad :: rest) (hfits : op.query.Fits fitting)
    (hbad : bad.length ≠ op.query.columns.length) :
    op.result kb = .error (mismatch op.query bad) ∧
      op.write.on kb = (.error (mismatch op.query bad), kb) := by
  cases op with
  | single q row =>
    have hone : [row] = fitting ++ bad :: rest := htable
    obtain ⟨rfl, rfl⟩ : fitting = [] ∧ row = bad := by
      cases fitting with
      | nil => exact ⟨rfl, (List.cons.inj hone).1⟩
      | cons first fitting => simp at hone
    exact ⟨if_neg hbad, on_writeRow_of_misfit kb hbad⟩
  | whole q rows =>
    obtain rfl : rows = fitting ++ bad :: rest := htable
    exact ⟨congrArg (Except.map Prod.fst) (addRows_of_misfit hfits hbad kb),
      on_bind_of_error (on_writeRows_of_misfit kb hfits hbad)⟩

theorem get?_write (op : Ingestion) (key : String) :
    (op.write.on kb).2.get? key = grown (kb.get? key) (op.values key) := by
  rcases op.query.fits_or_misfit op.table with hfits | ⟨fitting, bad, rest, htable, hfits, hbad⟩
  · rw [(succeeds_of_fits kb hfits).2, values, Query.contribution, if_pos hfits]
    exact get?_addFitting kb op.query key op.table
  · have hnot : ¬ op.query.Fits op.table := fun h =>
      hbad (h bad (htable ▸ List.mem_append_right _ List.mem_cons_self))
    rw [(fails_of_misfit kb htable hfits hbad).2, values, Query.contribution, if_neg hnot,
      grown_nil]

end
end Ingestion

namespace KnowledgeBase

def after (kb : KnowledgeBase) (ops : List Ingestion) : KnowledgeBase :=
  ops.foldl (fun held op => (op.write.on held).2) kb

theorem after_append (kb : KnowledgeBase) (xs ys : List Ingestion) :
    kb.after (xs ++ ys) = (kb.after xs).after ys := List.foldl_append

theorem get?_after (kb : KnowledgeBase) (ops : List Ingestion) (key : String) :
    (kb.after ops).get? key = grown (kb.get? key) (ops.flatMap (Ingestion.values key)) := by
  induction ops generalizing kb with
  | nil => rfl
  | cons op ops ih =>
    have hstep := ih (op.write.on kb).2
    rw [Ingestion.get?_write, grown_append] at hstep
    exact hstep

/-- An operation fails if one of its rows does not fit, which is the first such row, and leaves
everything as it was. Rows taken together are taken like one after another. Whatever is tried, what
a key holds stays in front of what comes in. -/
theorem ingestion_appends_or_fails_whole (kb : KnowledgeBase) (ops : List Ingestion) :
    (∀ before op later, ops = before ++ op :: later →
      (∀ fitting bad rest, op.table = fitting ++ bad :: rest → op.query.Fits fitting →
        bad.length ≠ op.query.columns.length →
        op.result (kb.after before) = .error
            (.columnCountMismatch op.query.name op.query.columns.length bad.length) ∧
          op.write.on (kb.after before) = (.error
            (.columnCountMismatch op.query.name op.query.columns.length bad.length),
            kb.after before)) ∧
      (op.query.Fits op.table → ∃ kb', op.result (kb.after before) = .ok kb' ∧
        op.write.on (kb.after before) = (.ok (), kb'))) ∧
    (∀ (held : KnowledgeBase) q rows,
      held.addRows q rows = (rows.foldlM (fun (held : KnowledgeBase) row => held.addRow q row)
        held).map (fun held => (held, rows.length)) ∧
      ∀ n kb', (writeRows q rows).on held = (.ok n, kb') →
        n = rows.length ∧ Writing.on (forM rows (writeRow q)) held = (.ok (), kb')) ∧
    (∀ key, (kb.after ops).get? key =
      grown (kb.get? key) (ops.flatMap (Ingestion.values key))) ∧
    ∀ before later, ops = before ++ later → ∀ key values,
      (kb.after before).get? key = some values →
      ∃ more, (kb.after ops).get? key = some (values ++ more) := by
  refine ⟨fun before op later _ => ⟨fun fitting bad rest htable hfits hbad => ?_, fun hfits => ?_⟩,
    fun held q rows => ⟨addRows_eq_foldlM held q rows, fun n kb' hwrite => ?_⟩,
    get?_after kb ops, ?_⟩
  · exact Ingestion.fails_of_misfit (kb.after before) htable hfits hbad
  · exact ⟨_, Ingestion.succeeds_of_fits (kb.after before) hfits⟩
  -- With a misfit among the rows writing does not succeed.
  · rcases q.fits_or_misfit rows with hfits | ⟨fitting, bad, rest, rfl, hfits, hbad⟩
    · rw [on_writeRows_of_fits held hfits] at hwrite
      cases hwrite
      exact ⟨rfl, on_forM_writeRow_of_fits held hfits⟩
    · rw [on_writeRows_of_misfit held hfits hbad] at hwrite
      cases hwrite
  · rintro before later rfl key values hvalues
    rw [after_append, get?_after, hvalues, grown_some]
    exact ⟨_, rfl⟩

def versionQuery : Query := { name := "q_version", columns := ["VERSION", "USAGE"] }

def refusedResult : Ingestion :=
  .whole versionQuery [[some "2.00.060", some "TEST"], [some "2.00.061"]]

def versionOperations : List Ingestion :=
  [.single versionQuery [some "2.00.059", none], refusedResult,
    .whole versionQuery [[none, some "TEST"], [some "2.00.070", some "PRODUCTION"]]]

theorem ingestion_appends_behind_refused_result :
    let kb := empty.append "q_version:USAGE" "SANDBOX"
    let held := kb.after (versionOperations.take 1)
    refusedResult.write.on held = (.error (.columnCountMismatch "q_version" 2 1), held) ∧
    (kb.after versionOperations).get? "q_version:VERSION" = some ["2.00.059", "2.00.070"] ∧
    (kb.after versionOperations).get? "q_version:USAGE" =
      some ["SANDBOX", "TEST", "PRODUCTION"] := by
  intro kb held
  obtain ⟨hops, -, hget, -⟩ := ingestion_appends_or_fails_whole kb versionOperations
  refine ⟨((hops _ refusedResult _ rfl).1 [[some "2.00.060", some "TEST"]] _ _ rfl ?_ ?_).2, ?_, ?_⟩
  · decide
  · decide
  · exact hget "q_version:VERSION"
  · exact hget "q_version:USAGE"

end KnowledgeBase
end HanaInsights
