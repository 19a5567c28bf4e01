import HanaInsights.Proofs.Output
set_option autoImplicit false

/-!
Printed outputs. The client has a choice for each text that needs no quotes, for the end of each
record and for the line ends between records; whatever it chooses, reading gives the rows back.
-/

namespace HanaInsights
namespace ClientOutput

def doubled : List Char → List Char
  | [] => []
  | c :: cs => if c = '"' then '"' :: '"' :: doubled cs else c :: doubled cs

/-- A text that stands for itself without quotes. -/
structure Plain (text : String) : Prop where
  not_null : text ≠ "?"
  not_quoted : text.toList.head? ≠ some '"'
  no_comma : ',' ∉ text.toList
  no_line_feed : '\n' ∉ text.toList
  no_return_last : text.toList.getLast? ≠ some '\r'

instance (text : String) : Decidable (Plain text) :=
  decidable_of_iff (text ≠ "?" ∧ text.toList.head? ≠ some '"' ∧ ',' ∉ text.toList ∧
      '\n' ∉ text.toList ∧ text.toList.getLast? ≠ some '\r')
    ⟨fun ⟨h₁, h₂, h₃, h₄, h₅⟩ => ⟨h₁, h₂, h₃, h₄, h₅⟩,
      fun ⟨h₁, h₂, h₃, h₄, h₅⟩ => ⟨h₁, h₂, h₃, h₄, h₅⟩⟩

inductive Written where
  | null
  | quoted (text : String)
  | bare (text : String) (plain : Plain text)

namespace Written

def cell : Written → Option String
  | .null => none
  | .quoted text => some text
  | .bare text _ => some text

def chars : Written → List Char
  | .null => ['?']
  | .quoted text => '"' :: doubled text.toList ++ ['"']
  | .bare text _ => text.toList

/-- Line ends in front of a record are passed over, so its first character has to be something
else. -/
def Opens : Written → List Written → Prop
  | .bare text _, others => text.toList.head? ≠ some '\r' ∧ (text = "" → others ≠ [])
  | _, _ => True

end Written

structure PrintedRecord where
  first : Written
  others : List Written
  opens : first.Opens others

inductive Ending where
  | feed
  | returnFeed

/-- What may stand between records in any number. -/
inductive Blank where
  | feed
  | carriage

structure PrintedLine where
  record : PrintedRecord
  ending : Ending
  gap : List Blank

/-- A whole output. The last record may have no end of its own. -/
structure Printed where
  lead : List Blank
  lines : List PrintedLine
  last : Option PrintedRecord

def Ending.chars : Ending → List Char
  | .feed => ['\n']
  | .returnFeed => ['\r', '\n']

def Blank.char : Blank → Char
  | .feed => '\n'
  | .carriage => '\r'

namespace PrintedRecord

def row (r : PrintedRecord) : Row := (r.first :: r.others).map Written.cell

def chars (r : PrintedRecord) : List Char :=
  r.first.chars ++ r.others.flatMap fun w => ',' :: w.chars

end PrintedRecord

def PrintedLine.chars (l : PrintedLine) : List Char :=
  l.record.chars ++ l.ending.chars ++ l.gap.map Blank.char

namespace Printed

def rows (p : Printed) : List Row :=
  p.lines.map (·.record.row) ++ p.last.toList.map PrintedRecord.row

def chars (p : Printed) : List Char :=
  p.lead.map Blank.char ++ p.lines.flatMap PrintedLine.chars ++
    p.last.toList.flatMap PrintedRecord.chars

def text (p : Printed) : String := String.ofList p.chars

end Printed

namespace State

/-- The field that is being read has this value, however it ends. -/
structure Pending (s : State) (cell : Option String) : Prop where
  comma : s.step ',' = .ok (s.endField cell)
  ending : ∀ e : Ending, s.run e.chars = .ok (s.endRecord cell)
  finish : s.finish = .ok (s.close cell)

section
variable (line : Nat) (rows : List Row) (cells : Row)

theorem pending_field : Pending ⟨line, rows, cells, .field⟩ (some "") := by
  refine ⟨rfl, fun e => ?_, rfl⟩
  cases e <;> rfl

theorem pending_bare (chars : List Char) :
    Pending ⟨line, rows, cells, .bare chars⟩ (bareCell chars) := by
  refine ⟨rfl, fun e => ?_, rfl⟩
  cases e <;> rfl

theorem pending_quote (opened : Nat) (chars : List Char) :
    Pending ⟨line, rows, cells, .quote opened chars⟩ (quotedCell chars) := by
  refine ⟨rfl, fun e => ?_, rfl⟩
  cases e <;> rfl

theorem run_bare (chars : List Char) {cs : List Char} (hcomma : ',' ∉ cs) (hfeed : '\n' ∉ cs) :
    (⟨line, rows, cells, .bare chars⟩ : State).run cs =
      .ok ⟨line, rows, cells, .bare (cs.reverse ++ chars)⟩ := by
  induction cs generalizing chars with
  | nil => rfl
  | cons c cs ih =>
    rw [List.mem_cons, not_or] at hcomma hfeed
    have hstep : (⟨line, rows, cells, .bare chars⟩ : State).step c =
        .ok ⟨line, rows, cells, .bare (c :: chars)⟩ := by
      simp only [step]
      rw [if_neg (Ne.symm hcomma.1), if_neg (Ne.symm hfeed.1)]
    rw [run_of_step hstep, ih (c :: chars) hcomma.2 hfeed.2]
    simp

theorem run_doubled (opened : Nat) (chars cs : List Char) :
    ∃ line', (⟨line, rows, cells, .quoted opened chars⟩ : State).run (doubled cs) =
      .ok ⟨line', rows, cells, .quoted opened (cs.reverse ++ chars)⟩ := by
  induction cs generalizing line chars with
  | nil => exact ⟨line, rfl⟩
  | cons c cs ih =>
    by_cases hc : c = '"'
    · -- The first of two quotes might end the text, until the second one is read.
      subst hc
      obtain ⟨line', hrun⟩ := ih line ('"' :: chars)
      refine ⟨line', ?_⟩
      rw [List.reverse_cons, List.append_assoc]
      exact hrun
    · obtain ⟨line', hrun⟩ := ih (if c = '\n' then line + 1 else line) (c :: chars)
      have hstep : (⟨line, rows, cells, .quoted opened chars⟩ : State).step c =
          .ok ⟨if c = '\n' then line + 1 else line, rows, cells, .quoted opened (c :: chars)⟩ := by
        simp only [step]
        rw [if_neg hc]
      refine ⟨line', ?_⟩
      rw [doubled, if_neg hc, run_of_step hstep, hrun, List.reverse_cons, List.append_assoc]
      rfl

theorem dropWhile_return_reverse {chars : List Char} (h : chars.getLast? ≠ some '\r') :
    chars.reverse.dropWhile (· == '\r') = chars.reverse := by
  rw [← List.head?_reverse] at h
  cases hr : chars.reverse with
  | nil => rfl
  | cons c cs =>
    rw [hr, List.head?_cons] at h
    have hc : c ≠ '\r' := fun he => h (congrArg some he)
    simp [hc]

theorem bareCell_reverse {text : String} (h : Plain text) :
    bareCell text.toList.reverse = some text := by
  unfold bareCell
  rw [dropWhile_return_reverse h.no_return_last]
  split
  next hr =>
    have htext : text = "?" := by
      rw [← String.ofList_toList (s := text), List.reverse_eq_iff.1 hr]
      rfl
    exact absurd htext h.not_null
  next => simp

theorem run_written (w : Written) :
    ∃ t, (⟨line, rows, cells, .field⟩ : State).run w.chars = .ok t ∧
      t.rows = rows ∧ t.cells = cells ∧ Pending t w.cell := by
  cases w with
  | null => exact ⟨_, rfl, rfl, rfl, pending_bare line rows cells ['?']⟩
  | quoted text =>
    obtain ⟨line', hrun⟩ := run_doubled line rows cells line [] text.toList
    rw [List.append_nil] at hrun
    refine ⟨⟨line', rows, cells, .quote line text.toList.reverse⟩, ?_, rfl, rfl, ?_⟩
    · exact run_append_of_ok hrun ['"']
    · have hpending := pending_quote line' rows cells line text.toList.reverse
      rwa [quotedCell, List.reverse_reverse, String.ofList_toList] at hpending
  | bare text h =>
    have hpending := pending_bare line rows cells text.toList.reverse
    rw [bareCell_reverse h] at hpending
    rw [Written.chars, Written.cell]
    cases ht : text.toList with
    | nil =>
      obtain rfl : text = "" := String.toList_eq_nil_iff.1 ht
      exact ⟨_, rfl, rfl, rfl, pending_field line rows cells⟩
    | cons c cs =>
      have hquote : c ≠ '"' := fun hc => h.not_quoted (by rw [ht, hc, List.head?_cons])
      have hcomma := h.no_comma
      have hfeed := h.no_line_feed
      rw [ht, List.mem_cons, not_or] at hcomma hfeed
      have hstep : (⟨line, rows, cells, .field⟩ : State).step c =
          .ok ⟨line, rows, cells, .bare [c]⟩ := by
        simp only [step, beginField]
        rw [if_neg hquote, if_neg (Ne.symm hcomma.1), if_neg (Ne.symm hfeed.1)]
      rw [ht, List.reverse_cons] at hpending
      refine ⟨_, ?_, rfl, rfl, hpending⟩
      rw [run_of_step hstep, run_bare line rows cells [c] hcomma.2 hfeed.2]

end

theorem run_others {s : State} {cell : Option String} (h : Pending s cell)
    (others : List Written) :
    ∃ t last, s.run (others.flatMap fun w => ',' :: w.chars) = .ok t ∧ t.rows = s.rows ∧
      (last :: t.cells).reverse = (cell :: s.cells).reverse ++ others.map Written.cell ∧
      Pending t last := by
  induction others generalizing s cell with
  | nil => exact ⟨s, cell, rfl, rfl, by simp, h⟩
  | cons w others ih =>
    obtain ⟨t, ht, hrows, hcells, hpending⟩ := run_written s.line s.rows (cell :: s.cells) w
    obtain ⟨u, last, hu, hurows, hucells, hupending⟩ := ih hpending
    refine ⟨u, last, ?_, hurows.trans hrows, ?_, hupending⟩
    · rw [List.flatMap_cons, List.cons_append, run_of_step h.comma]
      exact (run_append_of_ok ht _).trans hu
    · rw [hucells, hcells]
      simp

theorem run_record_of_head {line : Nat} {rows : List Row} {c : Char} (hfeed : c ≠ '\n')
    (hreturn : c ≠ '\r') (cs : List Char) :
    (between line rows).run (c :: cs) =
      (⟨line, rows, [], .field⟩ : State).run (c :: cs) := by
  have hstep : (between line rows).step c = (⟨line, rows, [], .field⟩ : State).step c := by
    simp only [between, step]
    rw [if_neg hfeed, if_neg hreturn]
    rfl
  rw [run_cons, run_cons, hstep]

theorem run_gap (line : Nat) (rows : List Row) (gap : List Blank) :
    ∃ line', (between line rows).run (gap.map Blank.char) =
      .ok (between line' rows) := by
  induction gap generalizing line with
  | nil => exact ⟨line, rfl⟩
  | cons blank gap ih =>
    cases blank with
    | feed => exact ih (line + 1)
    | carriage => exact ih line

end State

theorem PrintedRecord.exists_head (r : PrintedRecord) :
    ∃ c cs, r.chars = c :: cs ∧ c ≠ '\n' ∧ c ≠ '\r' := by
  obtain ⟨first, others, hopens⟩ := r
  cases first with
  | null => exact ⟨'?', _, rfl, by decide, by decide⟩
  | quoted text => exact ⟨'"', _, rfl, by decide, by decide⟩
  | bare text h =>
    obtain ⟨hreturn, hsome⟩ := hopens
    have hfeed := h.no_line_feed
    simp only [chars, Written.chars]
    cases ht : text.toList with
    | nil =>
      obtain ⟨w, rest, rfl⟩ := List.exists_cons_of_ne_nil (hsome (String.toList_eq_nil_iff.1 ht))
      exact ⟨',', _, rfl, by decide, by decide⟩
    | cons c cs =>
      rw [ht, List.mem_cons, not_or] at hfeed
      rw [ht] at hreturn
      exact ⟨c, _, rfl, Ne.symm hfeed.1, fun hc => hreturn (congrArg some hc)⟩

namespace State

theorem run_printedRecord (line : Nat) (rows : List Row) (r : PrintedRecord) :
    ∃ t last, (between line rows).run r.chars = .ok t ∧ t.rows = rows ∧
      (last :: t.cells).reverse = r.row ∧ Pending t last := by
  obtain ⟨c, cs, hhead, hfeed, hreturn⟩ := r.exists_head
  obtain ⟨s, hs, rfl, hcells, hpending⟩ := run_written line rows [] r.first
  obtain ⟨t, last, ht, hrows, hrow, hlast⟩ := run_others hpending r.others
  refine ⟨t, last, ?_, hrows, ?_, hlast⟩
  · rw [hhead, run_record_of_head hfeed hreturn, ← hhead, PrintedRecord.chars]
    exact (run_append_of_ok hs _).trans ht
  · rw [hrow, hcells]
    rfl

theorem run_printedLine (line : Nat) (rows : List Row) (l : PrintedLine) :
    ∃ line', (between line rows).run l.chars =
      .ok (between line' (l.record.row :: rows)) := by
  obtain ⟨t, last, ht, rfl, hrow, hpending⟩ := run_printedRecord line rows l.record
  obtain ⟨line', hgap⟩ := run_gap (t.line + 1) (l.record.row :: t.rows) l.gap
  have hend : t.endRecord last = between (t.line + 1) (l.record.row :: t.rows) := by
    rw [← hrow]
    rfl
  refine ⟨line', ?_⟩
  rw [PrintedLine.chars, List.append_assoc, run_append_of_ok ht,
    run_append_of_ok (hpending.ending l.ending), hend, hgap]

theorem run_printedLines (line : Nat) (rows : List Row) (lines : List PrintedLine) :
    ∃ line', (between line rows).run (lines.flatMap PrintedLine.chars) =
      .ok (between line' ((lines.map (·.record.row)).reverse ++ rows)) := by
  induction lines generalizing line rows with
  | nil => exact ⟨line, rfl⟩
  | cons l lines ih =>
    obtain ⟨line₁, hl⟩ := run_printedLine line rows l
    obtain ⟨line₂, hlines⟩ := ih line₁ (l.record.row :: rows)
    refine ⟨line₂, ?_⟩
    rw [List.flatMap_cons, run_append_of_ok hl, hlines]
    simp

end State

theorem rows_printed (p : Printed) : rows p.text = .ok p.rows := by
  obtain ⟨line₁, hlead⟩ : ∃ line₁, State.start.run (p.lead.map Blank.char) =
      .ok (State.between line₁ []) := State.run_gap 1 [] p.lead
  obtain ⟨line₂, hlines⟩ := State.run_printedLines line₁ [] p.lines
  have hrun := (State.run_append_of_ok hlead (p.lines.flatMap PrintedLine.chars)).trans hlines
  rw [List.append_nil] at hrun
  rw [rows, Printed.text, String.toList_ofList, State.rowsOfChars_eq_ok_iff, Printed.chars,
    Printed.rows, State.run_append_of_ok hrun]
  cases p.last with
  | none => exact ⟨_, rfl, by simp [State.finish, State.between]⟩
  | some r =>
    obtain ⟨t, last, ht, hrows, hrow, hpending⟩ := State.run_printedRecord line₂
      (p.lines.map (·.record.row)).reverse r
    refine ⟨t, by simpa using ht, ?_⟩
    rw [hpending.finish, State.close, hrow, hrows]
    simp

def Written.quoting : Option String → Written
  | none => .null
  | some text => .quoted text

theorem Written.cell_quoting (cell : Option String) : (quoting cell).cell = cell := by
  cases cell <;> rfl

theorem Written.opens_quoting (cell : Option String) (others : List Written) :
    (quoting cell).Opens others := by
  cases cell <;> trivial

def PrintedRecord.quoting (row : Row) (h : row ≠ []) : PrintedRecord :=
  ⟨.quoting (row.head h), row.tail.map .quoting, Written.opens_quoting _ _⟩

theorem PrintedRecord.row_quoting (row : Row) (h : row ≠ []) : (quoting row h).row = row := by
  obtain ⟨cell, cells, rfl⟩ := List.exists_cons_of_ne_nil h
  simp [quoting, PrintedRecord.row, Written.cell_quoting, Function.comp_def]

def Printed.quoting (table : List Row) (h : ∀ row ∈ table, row ≠ []) : Printed :=
  ⟨[], table.pmap (fun row h => ⟨.quoting row h, .feed, []⟩) h, none⟩

theorem Printed.rows_quoting (table : List Row) (h : ∀ row ∈ table, row ≠ []) :
    (quoting table h).rows = table := by
  simp [quoting, Printed.rows, List.map_pmap, PrintedRecord.row_quoting]

/-- The rows of a printed output are read back, whatever was chosen in printing it; and what was
read can be printed and read again. -/
theorem printed_rows_are_read_back :
    (∀ p : Printed, rows p.text = .ok p.rows) ∧
    ∀ output table, rows output = .ok table →
      ∃ h : ∀ row ∈ table, row ≠ [],
        (Printed.quoting table h).rows = table ∧
        rows (Printed.quoting table h).text = .ok table := by
  refine ⟨rows_printed, fun output table houtput => ?_⟩
  have hrows : ∀ row ∈ table, row ≠ [] := fun row hrow => ne_nil_of_mem_rows houtput hrow
  have hquoting := Printed.rows_quoting table hrows
  refine ⟨hrows, hquoting, ?_⟩
  rw [rows_printed, hquoting]

def mixedOutput : Printed where
  lead := [.carriage, .feed]
  lines :=
    [{ record := ⟨.bare "4\r2" (by decide), [.null, .quoted "say \"hi\",\n"],
        ⟨by decide, by decide⟩⟩
       ending := .returnFeed
       gap := [.feed] }]
  last := some ⟨.bare "" (by decide), [.quoted "?"], ⟨by decide, by simp⟩⟩

theorem printed_rows_of_mixed_output :
    let table := [[some "4\r2", none, some "say \"hi\",\n"], [some "", some "?"]]
    rows "\r\n4\r2,?,\"say \"\"hi\"\",\n\"\r\n\n,\"?\"" = .ok table ∧
    ∃ h : ∀ row ∈ table, row ≠ [],
      (Printed.quoting table h).rows = table ∧
      rows (Printed.quoting table h).text = .ok table := by
  have hread : rows mixedOutput.text = .ok mixedOutput.rows :=
    printed_rows_are_read_back.1 mixedOutput
  exact ⟨hread, printed_rows_are_read_back.2 _ _ hread⟩

end ClientOutput
end HanaInsights
