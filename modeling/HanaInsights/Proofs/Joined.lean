import HanaInsights.Proofs.Output
set_option autoImplicit false

/-!
Outputs joined by a line end are read as if each stood alone. Rows that are finished only stand in
front of the later ones, and faults of the later output are found as many lines further down as the
earlier one has.
-/

namespace HanaInsights
namespace ClientOutput

def Fault.later (lines : Nat) : Fault → Fault
  | .unterminated line => .unterminated (line + lines)
  | .unexpected found line => .unexpected found (line + lines)

def moved {α β : Type} (lines : Nat) (f : α → β) : Except Fault α → Except Fault β
  | .ok a => .ok (f a)
  | .error fault => .error (fault.later lines)

def Mode.later (lines : Nat) : Mode → Mode
  | .quoted opened chars => .quoted (opened + lines) chars
  | .quote opened chars => .quote (opened + lines) chars
  | mode => mode

namespace State

/-- The state further down, behind finished rows. -/
def behind (lines : Nat) (rows : List Row) (s : State) : State :=
  ⟨s.line + lines, s.rows ++ rows, s.cells, s.mode.later lines⟩

section
variable (lines : Nat) (rows : List Row) (s : State)

theorem mode_behind : (s.behind lines rows).mode = s.mode.later lines := rfl

theorem endField_behind (cell : Option String) :
    (s.behind lines rows).endField cell = (s.endField cell).behind lines rows := rfl

theorem endRecord_behind (cell : Option String) :
    (s.behind lines rows).endRecord cell = (s.endRecord cell).behind lines rows := by
  simp [behind, endRecord, Mode.later, Nat.add_right_comm]

theorem beginField_behind (c : Char) :
    (s.behind lines rows).beginField c = (s.beginField c).behind lines rows := by
  unfold beginField
  rw [endField_behind, endRecord_behind]
  split
  · rfl
  · split
    · rfl
    · split <;> rfl

theorem afterQuote_behind (chars : List Char) (c : Char) :
    (s.behind lines rows).afterQuote chars c =
      moved lines (behind lines rows) (s.afterQuote chars c) := by
  unfold afterQuote
  rw [endField_behind, endRecord_behind]
  split
  · rfl
  · split <;> rfl

theorem step_behind (c : Char) :
    (s.behind lines rows).step c = moved lines (behind lines rows) (s.step c) := by
  unfold step
  rw [mode_behind]
  cases hm : s.mode with
  | record =>
    simp only [Mode.later, beginField_behind]
    split
    · simp [behind, moved, hm, Mode.later, Nat.add_right_comm]
    · split <;> rfl
  | field =>
    simp only [Mode.later, beginField_behind]
    rfl
  | bare chars =>
    simp only [Mode.later, endField_behind, endRecord_behind]
    split
    · rfl
    · split <;> rfl
  | quoted opened chars =>
    simp only [Mode.later]
    split
    · rfl
    · -- Texts in quotes count their own line feeds.
      by_cases hc : c = '\n' <;> simp [hc, behind, moved, Mode.later, Nat.add_right_comm]
  | quote opened chars =>
    simp only [Mode.later, afterQuote_behind]
    split
    · rfl
    · split <;> rfl
  | closed chars => simp only [Mode.later, afterQuote_behind]

theorem run_behind (cs : List Char) :
    (s.behind lines rows).run cs = moved lines (behind lines rows) (s.run cs) := by
  induction cs generalizing s with
  | nil => rfl
  | cons c cs ih =>
    rw [run_cons, run_cons, step_behind]
    cases s.step c with
    | error fault => rfl
    | ok t => exact ih t

theorem finish_behind :
    (s.behind lines rows).finish = moved lines (rows.reverse ++ ·) s.finish := by
  unfold finish
  rw [mode_behind]
  cases s.mode <;> simp [Mode.later, behind, close, moved, Fault.later]

theorem finish_run_behind (cs : List Char) :
    ((s.behind lines rows).run cs).bind finish =
      moved lines (rows.reverse ++ ·) ((s.run cs).bind finish) := by
  rw [run_behind]
  cases s.run cs with
  | error fault => rfl
  | ok t => exact finish_behind lines rows t

end

end State

theorem rowsOfChars_joined {xs : List Char} {first : List Row} (h : rowsOfChars xs = .ok first)
    (ys : List Char) :
    rowsOfChars (xs ++ '\n' :: ys) =
      moved (xs.count '\n' + 1) (first ++ ·) (rowsOfChars ys) := by
  obtain ⟨s, hrun, hfinish⟩ := State.rowsOfChars_eq_ok_iff.1 h
  have hs := State.kept_start.run hrun
  rw [Nat.zero_add] at hs
  -- Wherever the first output ends, reading starts again behind the line feed.
  have hstep : s.step '\n' = .ok (State.start.behind (xs.count '\n' + 1) first.reverse) := by
    have hline : xs.count '\n' + 2 = 1 + (xs.count '\n' + 1) := by omega
    rw [hs.step_lineEnd hfinish, hline]
    rfl
  calc rowsOfChars (xs ++ '\n' :: ys)
      = (s.run ('\n' :: ys)).bind State.finish := by
        rw [State.rowsOfChars_eq, State.run_append_of_ok hrun]
    _ = ((State.start.behind (xs.count '\n' + 1) first.reverse).run ys).bind State.finish := by
        rw [State.run_of_step hstep]
    _ = moved (xs.count '\n' + 1) (first ++ ·) (rowsOfChars ys) := by
        rw [State.finish_run_behind, List.reverse_reverse, State.rowsOfChars_eq]

/-- Whatever state the first output ends in, the second one is read from the start, and its rows
come after those of the first. -/
theorem joined_outputs_read_apart {a : String} {first : List Row} (h : rows a = .ok first)
    (b : String) :
    (∀ second, rows b = .ok second → rows (a ++ "\n" ++ b) = .ok (first ++ second)) ∧
    (∀ fault, rows b = .error fault →
      rows (a ++ "\n" ++ b) = .error (fault.later (a.toList.count '\n' + 1))) ∧
    ∀ all, rows (a ++ "\n" ++ b) = .ok all → first <+: all := by
  have hjoined : rows (a ++ "\n" ++ b) =
      moved (a.toList.count '\n' + 1) (first ++ ·) (rows b) := by
    have htext : (a ++ "\n" ++ b).toList = a.toList ++ '\n' :: b.toList := by simp
    rw [rows, htext]
    exact rowsOfChars_joined h b.toList
  refine ⟨fun second hb => ?_, fun fault hb => ?_, fun all hall => ?_⟩
  · rw [hjoined, hb, moved]
  · rw [hjoined, hb, moved]
  · rw [hjoined] at hall
    cases hb : rows b with
    | error fault => simp [hb, moved] at hall
    | ok second =>
      rw [hb] at hall
      exact ⟨second, Except.ok.inj hall⟩

theorem joined_outputs_of_open_quote :
    rows "a,\n\"q\"\r" = .ok [[some "a", some ""], [some "q"]] ∧
    rows "x\n\"y" = .error (.unterminated 2) ∧
    rows ("a,\n\"q\"\r" ++ "\n" ++ "x\n\"y") = .error (.unterminated 4) := by
  have hfirst : rows "a,\n\"q\"\r" = .ok [[some "a", some ""], [some "q"]] := rfl
  have hsecond : rows "x\n\"y" = .error (.unterminated 2) := rfl
  exact ⟨hfirst, hsecond, (joined_outputs_read_apart hfirst _).2.1 _ hsecond⟩

end ClientOutput
end HanaInsights
