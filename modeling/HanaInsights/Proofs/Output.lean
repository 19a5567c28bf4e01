import HanaInsights.Client.Output
set_option autoImplicit false

namespace HanaInsights
namespace ClientOutput
namespace State

def run (s : State) (cs : List Char) : Except Fault State := cs.foldlM step s

@[simp] theorem run_nil (s : State) : s.run [] = .ok s := rfl

theorem run_cons (s : State) (c : Char) (cs : List Char) :
    s.run (c :: cs) = (s.step c).bind fun t => t.run cs := List.foldlM_cons

theorem run_append (s : State) (xs ys : List Char) :
    s.run (xs ++ ys) = (s.run xs).bind fun t => t.run ys := List.foldlM_append

theorem run_of_step {s t : State} {c : Char} (h : s.step c = .ok t) (cs : List Char) :
    s.run (c :: cs) = t.run cs := by
  rw [run_cons, h]
  rfl

theorem run_append_of_ok {s t : State} {xs : List Char} (h : s.run xs = .ok t) (ys : List Char) :
    s.run (xs ++ ys) = t.run ys := by
  rw [run_append, h]
  rfl

def between (line : Nat) (rows : List Row) : State := ⟨line, rows, [], .record⟩

/-- All that one character can do to what was read before it. -/
inductive Advance (s : State) (c : Char) : State → Prop where
  | within (h : c ≠ '\n') (mode : Mode) (hmode : mode = .record → s.mode = .record) :
      Advance s c { s with mode := mode }
  | feed (h : c = '\n') (mode : Mode) (hmode : mode = .record → s.mode = .record) :
      Advance s c { s with line := s.line + 1, mode := mode }
  | field (h : c = ',') (cell : Option String) : Advance s c (s.endField cell)
  | record (h : c = '\n') (cell : Option String) : Advance s c (s.endRecord cell)

theorem advance_beginField (s : State) (c : Char) : Advance s c (s.beginField c) := by
  unfold beginField
  split
  next h => exact .within (by simp [h]) _ nofun
  next =>
    split
    next h => exact .field h _
    next =>
      split
      next h => exact .record h _
      next h => exact .within h _ nofun

theorem advance_afterQuote {s t : State} {chars : List Char} {c : Char}
    (h : s.afterQuote chars c = .ok t) : Advance s c t := by
  unfold afterQuote at h
  split at h
  next hc =>
    cases h
    exact .field hc _
  next =>
    split at h
    next hc =>
      cases h
      exact .record hc _
    next => cases h

theorem advance_quote {s t : State} {chars : List Char} {c : Char} {opened : Nat}
    (hm : s.mode = .quote opened chars) (h : s.step c = .ok t) : Advance s c t := by
  simp only [step, hm] at h
  split at h
  next hc =>
    cases h
    exact .within (by simp [hc]) _ nofun
  next =>
    split at h
    next hc =>
      cases h
      exact .within (by simp [hc]) _ nofun
    next => exact advance_afterQuote h

theorem advance_step {s t : State} {c : Char} (h : s.step c = .ok t) : Advance s c t := by
  cases hm : s.mode with
  | record =>
    simp only [step, hm] at h
    split at h
    next hc =>
      cases h
      exact .feed hc .record fun _ => hm
    next hc =>
      split at h
      next =>
        cases h
        exact .within hc s.mode id
      next =>
        cases h
        exact advance_beginField s c
  | field =>
    simp only [step, hm, Except.ok.injEq] at h
    exact h ▸ advance_beginField s c
  | bare chars =>
    simp only [step, hm] at h
    split at h
    next hc =>
      cases h
      exact .field hc _
    next =>
      split at h
      next hc =>
        cases h
        exact .record hc _
      next hc =>
        cases h
        exact .within hc _ nofun
  | quoted opened chars =>
    simp only [step, hm] at h
    split at h
    next hc =>
      cases h
      exact .within (by simp [hc]) _ nofun
    next =>
      -- inside quotes a line end only counts
      cases h
      split
      next hc => exact .feed hc _ nofun
      next hc => exact .within hc _ nofun
  | quote opened chars => exact advance_quote hm h
  | closed chars =>
    simp only [step, hm] at h
    exact advance_afterQuote h

/-- What reading keeps up once `lines` line ends were read. -/
structure Kept (lines : Nat) (s : State) : Prop where
  line : s.line = lines + 1
  rows : ∀ row ∈ s.rows, row ≠ []
  cells : s.mode = .record → s.cells = []

theorem kept_start : Kept 0 start := ⟨rfl, nofun, fun _ => rfl⟩

theorem Kept.step {lines : Nat} {s t : State} {c : Char} (hs : Kept lines s)
    (h : s.step c = .ok t) : Kept (lines + [c].count '\n') t := by
  cases advance_step h with
  | within hc mode hmode =>
    exact ⟨by simp [hs.line, hc], hs.rows, fun hm => hs.cells (hmode hm)⟩
  | feed hc mode hmode =>
    exact ⟨by simp [hs.line, hc], hs.rows, fun hm => hs.cells (hmode hm)⟩
  | field hc cell => exact ⟨by simp [endField, hs.line, hc], hs.rows, nofun⟩
  | record hc cell =>
    refine ⟨by simp [endRecord, hs.line, hc], fun row hrow => ?_, fun _ => rfl⟩
    rcases List.mem_cons.1 hrow with rfl | hrow
    · simp
    · exact hs.rows row hrow

theorem Kept.run {lines : Nat} {s t : State} {cs : List Char} (hs : Kept lines s)
    (h : s.run cs = .ok t) : Kept (lines + cs.count '\n') t := by
  induction cs generalizing lines s with
  | nil =>
    cases h
    exact hs
  | cons c cs ih =>
    rw [run_cons] at h
    cases hc : s.step c with
    | error fault => simp [hc, Except.bind] at h
    | ok u =>
      rw [hc] at h
      have ht := ih (hs.step hc) h
      rwa [Nat.add_assoc, ← List.count_append] at ht

theorem rowsOfChars_eq (cs : List Char) : rowsOfChars cs = (start.run cs).bind finish := rfl

theorem rowsOfChars_eq_ok_iff {cs : List Char} {rows : List Row} :
    rowsOfChars cs = .ok rows ↔ ∃ t, start.run cs = .ok t ∧ t.finish = .ok rows := by
  rw [rowsOfChars_eq]
  cases start.run cs <;> simp [Except.bind]

theorem Kept.step_lineEnd {lines : Nat} {s : State} {rows : List Row} (hs : Kept lines s)
    (h : s.finish = .ok rows) : s.step '\n' = .ok (between (lines + 2) rows.reverse) := by
  obtain ⟨line, finished, cells, mode⟩ := s
  obtain ⟨rfl, -, hcells⟩ := hs
  cases mode with
  | quoted opened chars => cases h
  | record =>
    cases h
    obtain rfl : cells = [] := hcells rfl
    simp [State.step, between]
  | _ =>
    cases h
    simp [State.step, beginField, afterQuote, endRecord, close, between]

end State

theorem ne_nil_of_mem_rows {output : String} {table : List Row} (h : rows output = .ok table)
    {row : Row} (hrow : row ∈ table) : row ≠ [] := by
  obtain ⟨s, hrun, hfinish⟩ := State.rowsOfChars_eq_ok_iff.1 h
  have hs := State.kept_start.run hrun
  exact (hs.step (hs.step_lineEnd hfinish)).rows row (List.mem_reverse.2 hrow)

end ClientOutput
end HanaInsights
