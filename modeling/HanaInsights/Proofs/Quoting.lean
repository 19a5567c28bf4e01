import HanaInsights.Proofs.Printed
set_option autoImplicit false

/-!
What makes an output unreadable. It is a quote at the start of a field that is never closed, or a
closed one with more text behind it, and the fault names the line on which that quote or that text
stands. Line ends count wherever they are: behind records, between them, and inside quotes.
-/

namespace HanaInsights
namespace ClientOutput

theorem doubled_append (xs ys : List Char) : doubled (xs ++ ys) = doubled xs ++ doubled ys := by
  induction xs with
  | nil => rfl
  | cons c xs ih =>
    by_cases hc : c = '"'
    · simp [doubled, hc, ih]
    · simp [doubled, hc, ih]

theorem doubled_of_ne {c : Char} (h : c ≠ '"') : doubled [c] = [c] := if_neg h

/-- A field without quotes around it. A quote further on is a character like any other. -/
structure Bare (cs : List Char) : Prop where
  unquoted : cs.head? ≠ some '"'
  no_comma : ',' ∉ cs
  no_line_feed : '\n' ∉ cs

theorem bare_nil : Bare [] := ⟨nofun, List.not_mem_nil, List.not_mem_nil⟩

theorem bare_singleton {c : Char} (hquote : c ≠ '"') (hcomma : c ≠ ',') (hfeed : c ≠ '\n') :
    Bare [c] := by
  refine ⟨fun h => hquote (Option.some.inj h), ?_, ?_⟩
  · simpa using Ne.symm hcomma
  · simpa using Ne.symm hfeed

theorem head?_concat_of_ne_nil {cs : List Char} (h : cs ≠ []) (c : Char) :
    (cs ++ [c]).head? = cs.head? := by
  obtain ⟨d, ds, rfl⟩ := List.exists_cons_of_ne_nil h
  rfl

theorem Bare.concat {cs : List Char} (h : Bare cs) (hsome : cs ≠ []) {c : Char} (hcomma : c ≠ ',')
    (hfeed : c ≠ '\n') : Bare (cs ++ [c]) := by
  refine ⟨?_, ?_, ?_⟩
  · rw [head?_concat_of_ne_nil hsome]
    exact h.unquoted
  · simpa [h.no_comma] using Ne.symm hcomma
  · simpa [h.no_line_feed] using Ne.symm hfeed

/-- The text of a field. A carriage return may stand behind a closing quote. -/
inductive FieldText : List Char → Prop where
  | bare {cs : List Char} (h : Bare cs) : FieldText cs
  | quoted (text : List Char) : FieldText ('"' :: doubled text ++ ['"'])
  | returned (text : List Char) : FieldText ('"' :: doubled text ++ ['"', '\r'])

/-- The text in front of a place where a field starts; the flag tells whether the record of the
field has begun. Line ends in front of a record are no fields. -/
inductive Upto : Bool → List Char → Prop where
  | start : Upto false []
  | gap {cs : List Char} (h : Upto false cs) (b : Blank) : Upto false (cs ++ [b.char])
  | comma {inside : Bool} {cs field : List Char} (h : Upto inside cs) (hfield : FieldText field)
      (hopens : inside = false → field.head? ≠ some '\r') : Upto true (cs ++ field ++ [','])
  | feed {inside : Bool} {cs field : List Char} (h : Upto inside cs) (hfield : FieldText field)
      (hopens : inside = false → field.head? ≠ some '\r') : Upto false (cs ++ field ++ ['\n'])

/-- Some field of the output starts with a quote. -/
def UsesQuotes (cs : List Char) : Prop :=
  ∃ inside before rest, Upto inside before ∧ cs = before ++ '"' :: rest

/-- What is wrong with the quotes of an output. The fault is on the line of the opening quote, or of
the first character that should not follow the closing one. -/
inductive Misquoted : List Char → Fault → Prop where
  | unclosed {inside : Bool} {before : List Char} (h : Upto inside before) (text : List Char) :
      Misquoted (before ++ '"' :: doubled text) (.unterminated (1 + before.count '\n'))
  | followed {inside : Bool} {before : List Char} (h : Upto inside before) (text : List Char)
      {c : Char} (hquote : c ≠ '"') (hreturn : c ≠ '\r') (hcomma : c ≠ ',') (hfeed : c ≠ '\n')
      (rest : List Char) :
      Misquoted (before ++ ('"' :: doubled text ++ ['"']) ++ c :: rest)
        (.unexpected c (1 + (before ++ ('"' :: doubled text ++ ['"'])).count '\n'))
  | returned {inside : Bool} {before : List Char} (h : Upto inside before) (text : List Char)
      {c : Char} (hcomma : c ≠ ',') (hfeed : c ≠ '\n') (rest : List Char) :
      Misquoted (before ++ ('"' :: doubled text ++ ['"', '\r']) ++ c :: rest)
        (.unexpected c (1 + (before ++ ('"' :: doubled text ++ ['"', '\r'])).count '\n'))

theorem Misquoted.usesQuotes {cs : List Char} {fault : Fault} (h : Misquoted cs fault) :
    UsesQuotes cs := by
  cases h with
  | unclosed h text => exact ⟨_, _, _, h, rfl⟩
  | followed h text hquote hreturn hcomma hfeed rest =>
    exact ⟨_, _, _, h, List.append_assoc _ _ _⟩
  | returned h text hcomma hfeed rest => exact ⟨_, _, _, h, List.append_assoc _ _ _⟩

inductive Reading : List Char → Mode → Prop where
  | record {cs : List Char} (h : Upto false cs) : Reading cs .record
  | field {cs : List Char} (h : Upto true cs) : Reading cs .field
  | bare {inside : Bool} {before chars : List Char} (h : Upto inside before)
      (hsome : chars.reverse ≠ []) (hbare : Bare chars.reverse)
      (hopens : inside = false → chars.reverse.head? ≠ some '\r') :
      Reading (before ++ chars.reverse) (.bare chars)
  | quoted {inside : Bool} {before : List Char} (h : Upto inside before) (chars : List Char) :
      Reading (before ++ '"' :: doubled chars.reverse) (.quoted (1 + before.count '\n') chars)
  | quote {inside : Bool} {before : List Char} (h : Upto inside before) (chars : List Char) :
      Reading (before ++ ('"' :: doubled chars.reverse ++ ['"']))
        (.quote (1 + before.count '\n') chars)
  | closed {inside : Bool} {before : List Char} (h : Upto inside before) (chars : List Char) :
      Reading (before ++ ('"' :: doubled chars.reverse ++ ['"', '\r'])) (.closed chars)

namespace State

section
variable {s t : State} {c : Char} {cs : List Char} {fault : Fault}

theorem reading_beginField {inside : Bool} (h : Upto inside cs) (hline : s.line = 1 + cs.count '\n')
    (hopens : inside = false → c ≠ '\r') :
    Reading (cs ++ [c]) (s.beginField c).mode := by
  unfold beginField
  split
  next hc =>
    subst hc
    rw [hline]
    exact .quoted h []
  next hquote =>
    split
    next hc =>
      subst hc
      rw [← List.append_nil cs]
      exact .field (.comma h (.bare bare_nil) nofun)
    next hcomma =>
      split
      next hc =>
        subst hc
        rw [← List.append_nil cs]
        exact .record (.feed h (.bare bare_nil) nofun)
      next hfeed =>
        have hc : Reading (cs ++ [c].reverse) (.bare [c]) :=
          .bare h (List.cons_ne_nil _ _) (bare_singleton hquote hcomma hfeed)
            fun hi he => hopens hi (Option.some.inj he)
        exact hc

theorem reading_afterQuote {inside : Bool} {before field chars : List Char} (h : Upto inside before)
    (hfield : FieldText field) (hopens : field.head? ≠ some '\r')
    (hstep : s.afterQuote chars c = .ok t) : Reading (before ++ field ++ [c]) t.mode := by
  unfold afterQuote at hstep
  split at hstep
  next hc =>
    cases hstep
    subst hc
    exact .field (.comma h hfield fun _ => hopens)
  next =>
    split at hstep
    next hc =>
      cases hstep
      subst hc
      exact .record (.feed h hfield fun _ => hopens)
    next => cases hstep

theorem reading_step_record (hm : s.mode = .record) (h : Upto false cs)
    (hline : s.line = 1 + cs.count '\n') (hstep : s.step c = .ok t) :
    Reading (cs ++ [c]) t.mode := by
  simp only [step, hm] at hstep
  split at hstep
  next hc =>
    cases hstep
    subst hc
    exact hm ▸ .record (.gap h .feed)
  next =>
    split at hstep
    next hc =>
      cases hstep
      subst hc
      exact hm ▸ .record (.gap h .carriage)
    next hreturn =>
      cases hstep
      exact reading_beginField h hline fun _ => hreturn

theorem reading_step_bare {inside : Bool} {before chars : List Char} (hm : s.mode = .bare chars)
    (h : Upto inside before) (hsome : chars.reverse ≠ []) (hbare : Bare chars.reverse)
    (hopens : inside = false → chars.reverse.head? ≠ some '\r') (hstep : s.step c = .ok t) :
    Reading (before ++ chars.reverse ++ [c]) t.mode := by
  simp only [step, hm] at hstep
  split at hstep
  next hc =>
    cases hstep
    subst hc
    exact .field (.comma h (.bare hbare) hopens)
  next hcomma =>
    split at hstep
    next hc =>
      cases hstep
      subst hc
      exact .record (.feed h (.bare hbare) hopens)
    next hfeed =>
      cases hstep
      rw [List.append_assoc, ← List.reverse_cons]
      refine .bare h ?_ ?_ ?_
      · simp
      · rw [List.reverse_cons]
        exact hbare.concat hsome hcomma hfeed
      · rwa [List.reverse_cons, head?_concat_of_ne_nil hsome]

theorem reading_step_quoted {inside : Bool} {before chars : List Char}
    (hm : s.mode = .quoted (1 + before.count '\n') chars) (h : Upto inside before)
    (hstep : s.step c = .ok t) :
    Reading (before ++ '"' :: doubled chars.reverse ++ [c]) t.mode := by
  simp only [step, hm] at hstep
  split at hstep
  next hc =>
    cases hstep
    subst hc
    rw [List.append_assoc]
    exact .quote h chars
  next hc =>
    cases hstep
    have htext : doubled (c :: chars).reverse = doubled chars.reverse ++ [c] := by
      rw [List.reverse_cons, doubled_append, doubled_of_ne hc]
    rw [List.append_assoc, List.cons_append, ← htext]
    exact .quoted h (c :: chars)

theorem reading_step_quote {inside : Bool} {before chars : List Char}
    (hm : s.mode = .quote (1 + before.count '\n') chars) (h : Upto inside before)
    (hstep : s.step c = .ok t) :
    Reading (before ++ ('"' :: doubled chars.reverse ++ ['"']) ++ [c]) t.mode := by
  simp only [step, hm] at hstep
  split at hstep
  next hc =>
    -- the quote before was the first of two, so the field goes on
    cases hstep
    subst hc
    have htext : doubled ('"' :: chars).reverse = doubled chars.reverse ++ ['"', '"'] := by
      rw [List.reverse_cons, doubled_append]
      rfl
    rw [List.append_assoc, List.append_assoc, List.singleton_append, List.cons_append, ← htext]
    exact .quoted h ('"' :: chars)
  next =>
    split at hstep
    next hc =>
      cases hstep
      subst hc
      rw [List.append_assoc, List.append_assoc, List.singleton_append]
      exact .closed h chars
    next => exact reading_afterQuote h (.quoted _) (by simp) hstep

theorem reading_step (h : Reading cs s.mode) (hline : s.line = 1 + cs.count '\n')
    (hstep : s.step c = .ok t) : Reading (cs ++ [c]) t.mode := by
  generalize hm : s.mode = m at h
  cases h with
  | record h => exact reading_step_record hm h hline hstep
  | field h =>
    simp only [step, hm, Except.ok.injEq] at hstep
    exact hstep ▸ reading_beginField h hline fun hinside => Bool.noConfusion hinside
  | bare h hsome hbare hopens => exact reading_step_bare hm h hsome hbare hopens hstep
  | quoted h chars => exact reading_step_quoted hm h hstep
  | quote h chars => exact reading_step_quote hm h hstep
  | closed h chars =>
    simp only [step, hm] at hstep
    exact reading_afterQuote h (.returned _) (by simp) hstep

theorem Kept.line_comm (h : Kept (cs.count '\n') s) : s.line = 1 + cs.count '\n' := by
  rw [h.line, Nat.add_comm]

theorem afterQuote_eq_error_iff {chars : List Char} :
    s.afterQuote chars c = .error fault ↔ fault = .unexpected c s.line ∧ c ≠ ',' ∧ c ≠ '\n' := by
  unfold afterQuote
  split
  next hc => simp [hc]
  next hcomma =>
    split
    next hc => simp [hc]
    next hfeed => simp [hcomma, hfeed, eq_comm]

/-- No character fails but one behind a closed quote. -/
theorem misquoted_step (h : Reading cs s.mode) (hline : s.line = 1 + cs.count '\n')
    (hstep : s.step c = .error fault) (rest : List Char) : Misquoted (cs ++ c :: rest) fault := by
  unfold step at hstep
  generalize s.mode = m at h hstep
  cases h with
  | record h =>
    dsimp only at hstep
    split at hstep
    · cases hstep
    · split at hstep <;> cases hstep
  | field h => cases hstep
  | bare h hsome hbare hopens =>
    dsimp only at hstep
    split at hstep
    · cases hstep
    · split at hstep <;> cases hstep
  | quoted h chars =>
    dsimp only at hstep
    split at hstep <;> cases hstep
  | quote h chars =>
    dsimp only at hstep
    split at hstep
    next => cases hstep
    next hquote =>
      split at hstep
      next => cases hstep
      next hreturn =>
        obtain ⟨rfl, hcomma, hfeed⟩ := afterQuote_eq_error_iff.1 hstep
        rw [hline]
        exact .followed h _ hquote hreturn hcomma hfeed rest
  | closed h chars =>
    obtain ⟨rfl, hcomma, hfeed⟩ := afterQuote_eq_error_iff.1 hstep
    rw [hline]
    exact .returned h _ hcomma hfeed rest

theorem misquoted_finish (h : Reading cs s.mode) (hfinish : s.finish = .error fault) :
    Misquoted cs fault := by
  unfold finish at hfinish
  generalize s.mode = m at h hfinish
  cases h with
  | quoted h chars =>
    cases hfinish
    exact .unclosed h _
  | _ => cases hfinish

/-- Reading goes on, and keeps account of what was read, or it ends at the fault. -/
theorem reading_run {xs : List Char} (h : Reading xs s.mode) (hs : Kept (xs.count '\n') s)
    (ys : List Char) :
    (∃ t, s.run ys = .ok t ∧ Reading (xs ++ ys) t.mode) ∨
    ∃ fault, s.run ys = .error fault ∧ Misquoted (xs ++ ys) fault := by
  induction ys generalizing xs s with
  | nil => exact .inl ⟨s, rfl, by rwa [List.append_nil]⟩
  | cons c ys ih =>
    rw [run_cons]
    cases hc : s.step c with
    | error fault => exact .inr ⟨fault, rfl, misquoted_step h hs.line_comm hc ys⟩
    | ok u =>
      have hu := hs.step hc
      rw [← List.count_append] at hu
      have hread := ih (reading_step h hs.line_comm hc) hu
      rwa [List.append_assoc, List.singleton_append] at hread

end

theorem misquoted_of_error {cs : List Char} {fault : Fault} (h : rowsOfChars cs = .error fault) :
    Misquoted cs fault := by
  rw [rowsOfChars_eq] at h
  have hstart : Reading [] start.mode := .record .start
  rcases reading_run hstart kept_start cs with ⟨s, hrun, hread⟩ | ⟨fault', hrun, hbad⟩
  · rw [hrun] at h
    exact misquoted_finish hread h
  · rw [hrun] at h
    cases h
    exact hbad

def opening (inside : Bool) : Mode := if inside then .field else .record

section
variable {s t : State} {inside : Bool} {c : Char}

theorem step_opening (hs : s.mode = opening inside) (hfeed : c ≠ '\n')
    (hopens : inside = false → c ≠ '\r') : s.step c = .ok (s.beginField c) := by
  cases inside with
  | true => simp [step, hs, opening]
  | false => simp [step, hs, opening, hfeed, hopens rfl]

theorem step_blank (b : Blank) (hs : s.mode = opening false) :
    ∃ t, s.step b.char = .ok t ∧ t.mode = opening false := by
  cases b with
  | feed => exact ⟨{ s with line := s.line + 1 }, by simp [step, hs, opening, Blank.char], hs⟩
  | carriage => exact ⟨s, by simp [step, hs, opening, Blank.char], hs⟩

theorem run_unclosed (hs : s.mode = opening inside) (text : List Char) :
    ∃ t, s.run ('"' :: doubled text) = .ok t ∧ t.mode = .quoted s.line text.reverse := by
  obtain ⟨line, hrun⟩ := run_doubled s.line s.rows s.cells s.line [] text
  rw [List.append_nil] at hrun
  refine ⟨⟨line, s.rows, s.cells, .quoted s.line text.reverse⟩, ?_, rfl⟩
  rw [run_of_step (step_opening hs (by decide) fun _ => by decide)]
  exact hrun

theorem step_quoted {start : Nat} {chars : List Char} (hs : s.mode = .quoted start chars) :
    s.step '"' = .ok { s with mode := .quote start chars } := by
  simp [step, hs]

theorem run_quoted (hs : s.mode = opening inside) (text : List Char) :
    ∃ t, s.run ('"' :: doubled text ++ ['"']) = .ok t ∧ t.mode = .quote s.line text.reverse := by
  obtain ⟨t, hrun, ht⟩ := run_unclosed hs text
  refine ⟨{ t with mode := .quote s.line text.reverse }, ?_, rfl⟩
  rw [run_append_of_ok hrun, run_of_step (step_quoted ht), run_nil]

theorem run_returned (hs : s.mode = opening inside) (text : List Char) :
    ∃ t, s.run ('"' :: doubled text ++ ['"', '\r']) = .ok t ∧ t.mode = .closed text.reverse := by
  obtain ⟨t, hrun, ht⟩ := run_unclosed hs text
  refine ⟨{ t with mode := .closed text.reverse }, ?_, rfl⟩
  rw [run_append_of_ok hrun, run_of_step (step_quoted ht)]
  rfl

theorem run_fieldText {field : List Char} (hs : s.mode = opening inside) (hfield : FieldText field)
    (hopens : inside = false → field.head? ≠ some '\r') :
    ∃ t rows, s.run field = .ok t ∧ t.finish = .ok rows := by
  cases hfield with
  | quoted text =>
    obtain ⟨t, hrun, ht⟩ := run_quoted hs text
    exact ⟨t, _, hrun, by rw [finish, ht]⟩
  | returned text =>
    obtain ⟨t, hrun, ht⟩ := run_returned hs text
    exact ⟨t, _, hrun, by rw [finish, ht]⟩
  | bare h =>
    cases field with
    | nil =>
      cases inside with
      | true => exact ⟨s, _, rfl, by rw [finish, hs]; rfl⟩
      | false => exact ⟨s, _, rfl, by rw [finish, hs]; rfl⟩
    | cons c cs =>
      obtain ⟨hquote, hcomma, hfeed⟩ := h
      rw [List.mem_cons, not_or] at hcomma hfeed
      have hstep : s.step c = .ok { s with mode := .bare [c] } := by
        rw [step_opening hs (Ne.symm hfeed.1) fun hi hc => hopens hi (congrArg some hc)]
        have hc : c ≠ '"' := fun hc => hquote (congrArg some hc)
        simp [beginField, hc, Ne.symm hcomma.1, Ne.symm hfeed.1]
      exact ⟨_, _, (run_of_step hstep cs).trans
        (run_bare s.line s.rows s.cells [c] hcomma.2 hfeed.2), rfl⟩

theorem step_of_finish {rows : List Row} (h : s.finish = .ok rows) :
    (∃ t, s.step ',' = .ok t ∧ t.mode = opening true) ∧
    ∃ t, s.step '\n' = .ok t ∧ t.mode = opening false := by
  obtain ⟨line, finished, cells, mode⟩ := s
  cases mode with
  | quoted opened chars => cases h
  | _ => exact ⟨⟨_, rfl, rfl⟩, _, rfl, rfl⟩

end

theorem run_upto {inside : Bool} {cs : List Char} (h : Upto inside cs) :
    ∃ s, start.run cs = .ok s ∧ s.mode = opening inside := by
  induction h with
  | start => exact ⟨start, rfl, rfl⟩
  | @gap cs _ b ih =>
    obtain ⟨s, hrun, hs⟩ := ih
    obtain ⟨t, hstep, ht⟩ := step_blank b hs
    refine ⟨t, ?_, ht⟩
    rw [run_append_of_ok hrun, run_of_step hstep, run_nil]
  | @comma inside cs field _ hfield hopens ih =>
    obtain ⟨s, hrun, hs⟩ := ih
    obtain ⟨t, rows, ht, hfinish⟩ := run_fieldText hs hfield hopens
    obtain ⟨u, hu, hmode⟩ := (step_of_finish hfinish).1
    refine ⟨u, ?_, hmode⟩
    rw [List.append_assoc, run_append_of_ok hrun, run_append_of_ok ht, run_of_step hu, run_nil]
  | @feed inside cs field _ hfield hopens ih =>
    obtain ⟨s, hrun, hs⟩ := ih
    obtain ⟨t, rows, ht, hfinish⟩ := run_fieldText hs hfield hopens
    obtain ⟨u, hu, hmode⟩ := (step_of_finish hfinish).2
    refine ⟨u, ?_, hmode⟩
    rw [List.append_assoc, run_append_of_ok hrun, run_append_of_ok ht, run_of_step hu, run_nil]

theorem rowsOfChars_eq_error_of_step {xs : List Char} {s : State} {c : Char} {fault : Fault}
    (hrun : start.run xs = .ok s) (hstep : s.step c = .error fault) (rest : List Char) :
    rowsOfChars (xs ++ c :: rest) = .error fault := by
  rw [rowsOfChars_eq, run_append_of_ok hrun, run_cons, hstep]
  rfl

theorem line_of_run {cs : List Char} {s : State} (h : start.run cs = .ok s) :
    s.line = 1 + cs.count '\n' := by
  have hs := kept_start.run h
  rw [Nat.zero_add] at hs
  exact hs.line_comm

end State

open State in
theorem error_of_misquoted {cs : List Char} {fault : Fault} (h : Misquoted cs fault) :
    rowsOfChars cs = .error fault := by
  cases h with
  | unclosed h text =>
    obtain ⟨s, hbefore, hs⟩ := run_upto h
    obtain ⟨t, hopen, ht⟩ := run_unclosed hs text
    rw [rowsOfChars_eq, run_append_of_ok hbefore, hopen, ← line_of_run hbefore]
    change t.finish = _
    rw [finish, ht]
  | followed h text hquote hreturn hcomma hfeed rest =>
    obtain ⟨s, hbefore, hs⟩ := run_upto h
    obtain ⟨t, hclosed, ht⟩ := run_quoted hs text
    have hrun := (run_append_of_ok hbefore _).trans hclosed
    refine rowsOfChars_eq_error_of_step hrun ?_ rest
    rw [← line_of_run hrun, step, ht]
    dsimp only
    rw [if_neg hquote, if_neg hreturn]
    exact afterQuote_eq_error_iff.2 ⟨rfl, hcomma, hfeed⟩
  | returned h text hcomma hfeed rest =>
    obtain ⟨s, hbefore, hs⟩ := run_upto h
    obtain ⟨t, hclosed, ht⟩ := run_returned hs text
    have hrun := (run_append_of_ok hbefore _).trans hclosed
    refine rowsOfChars_eq_error_of_step hrun ?_ rest
    rw [← line_of_run hrun, step, ht]
    exact afterQuote_eq_error_iff.2 ⟨rfl, hcomma, hfeed⟩

theorem rows_eq_error_iff (output : String) (fault : Fault) :
    rows output = .error fault ↔ Misquoted output.toList fault :=
  ⟨State.misquoted_of_error, error_of_misquoted⟩

theorem exists_rows_of_not_usesQuotes {output : String} (h : ¬ UsesQuotes output.toList) :
    ∃ table, rows output = .ok table := by
  cases hrows : rows output with
  | ok table => exact ⟨table, rfl⟩
  | error fault => exact absurd ((rows_eq_error_iff output fault).1 hrows).usesQuotes h

/-- An output fails exactly for what is wrong with its quotes, and the message tells the line; where
no field starts with a quote nothing can be wrong. -/
theorem misquoted_outputs_fail (output : String) :
    (∀ fault, rows output = .error fault ↔ Misquoted output.toList fault) ∧
    (∀ line, (Fault.unterminated line).message =
      "Unterminated quoted field starting on line " ++ toString line) ∧
    (∀ c line, (Fault.unexpected c line).message =
      "Unexpected character '" ++ String.singleton c ++ "' after quoted field on line " ++
        toString line) ∧
    (¬ UsesQuotes output.toList → ∃ table, rows output = .ok table) :=
  ⟨rows_eq_error_iff output, fun _ => rfl, fun _ _ => rfl, exists_rows_of_not_usesQuotes⟩

theorem Upto.getLast?_mem {inside : Bool} {cs : List Char} (h : Upto inside cs) {c : Char}
    (hc : c ∈ cs.getLast?) : c ∈ [',', '\n', '\r'] := by
  cases h with
  | start => cases hc
  | gap h b =>
    rw [List.getLast?_concat, Option.mem_some_iff] at hc
    subst hc
    cases b <;> decide
  | comma h hfield hopens =>
    rw [List.getLast?_concat, Option.mem_some_iff] at hc
    simp [← hc]
  | feed h hfield hopens =>
    rw [List.getLast?_concat, Option.mem_some_iff] at hc
    simp [← hc]

/-- The first line end is inside of quotes, the second behind a carriage return, and the third ends
an empty line. -/
theorem misquoted_output_of_four_lines :
    rows "a,\"x\ny\"\r\n\n\"b\"\r!" = .error (.unexpected '!' 4) ∧
    ¬ UsesQuotes "5\" disk\r\n".toList ∧
    ∃ table, rows "5\" disk\r\n" = .ok table := by
  have hfirst : Upto true "a,".toList := by
    have ha : FieldText ['a'] := .bare ⟨by decide, by decide, by decide⟩
    exact .comma .start ha fun _ => by decide
  have hsecond : Upto false "a,\"x\ny\"\r\n".toList :=
    .feed hfirst (.returned ['x', '\n', 'y']) nofun
  have hplain : ¬ UsesQuotes "5\" disk\r\n".toList := by
    rintro ⟨inside, before, rest, h, heq⟩
    rcases before with _ | ⟨c, _ | ⟨d, before⟩⟩
    · exact absurd (List.cons.inj heq).1 (by decide)
    · obtain rfl : '5' = c := (List.cons.inj heq).1
      exact absurd (h.getLast?_mem rfl) (by decide)
    · have htail : " disk\r\n".toList = before ++ '"' :: rest :=
        (List.cons.inj (List.cons.inj heq).2).2
      have hmem : '"' ∈ " disk\r\n".toList := by
        rw [htail]
        exact List.mem_append_right _ List.mem_cons_self
      exact absurd hmem (by decide)
  exact ⟨((misquoted_outputs_fail _).1 _).2
      (.returned (hsecond.gap .feed) ['b'] (by decide) (by decide) []),
    hplain, (misquoted_outputs_fail _).2.2.2 hplain⟩

end ClientOutput
end HanaInsights
