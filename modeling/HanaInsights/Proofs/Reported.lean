import HanaInsights.Proofs.Numeral
import HanaInsights.Proofs.Replay
import HanaInsights.Proofs.Trimmed
set_option autoImplicit false

/-!
The error that a client reports. It is on the first line that has the form of a report, with white
space around the line and its parts; a line that only looks like a report hides none behind it.
-/

namespace HanaInsights

namespace SqlError

def signed (negative : Bool) (digits : List Char) : Int :=
  if negative then -(digitsValue digits : Int) else digitsValue digits

/-- A line that reports an error, without the white space around it. -/
structure Report where
  blanks : List Char
  negative : Bool
  digits : List Char
  gap : List Char
  message : List Char
  blanks_blank : ∀ c ∈ blanks, Text.isBlank c = true
  digits_digit : ∀ c ∈ digits, isDigit c = true
  digits_some : digits ≠ []
  code_fits : -2147483648 ≤ signed negative digits ∧ signed negative digits ≤ 2147483647
  gap_blank : ∀ c ∈ gap, Text.isBlank c = true
  message_some : message ≠ []

def minus (negative : Bool) : List Char := if negative then ['-'] else []

namespace Report

def chars (r : Report) : List Char :=
  '*' :: r.blanks ++ minus r.negative ++ r.digits ++ ':' :: r.gap ++ r.message

def error (r : Report) : SqlError :=
  ⟨signed r.negative r.digits, String.ofList (Text.trimChars r.message)⟩

end Report

def Reports (line : List Char) (e : SqlError) : Prop :=
  ∃ r : Report, Text.trimChars line = r.chars ∧ e = r.error

theorem code?_eq_some_iff {negative : Bool} {digits : List Char} {code : Int} :
    code? negative digits = some code ↔
      digits ≠ [] ∧ code = signed negative digits ∧ -2147483648 ≤ code ∧ code ≤ 2147483647 := by
  have hcode : code? negative digits =
      if digits.isEmpty then none
      else if -2147483648 ≤ signed negative digits ∧ signed negative digits ≤ 2147483647 then
        some (signed negative digits)
      else none := rfl
  rw [hcode]
  constructor
  · intro h
    split at h
    next => cases h
    next hsome =>
      split at h
      next hfits =>
        cases h
        exact ⟨fun hnil => hsome (List.isEmpty_iff.2 hnil), rfl, hfits⟩
      next => cases h
  · rintro ⟨hsome, rfl, hfits⟩
    rw [if_neg (fun hempty => hsome (List.isEmpty_iff.1 hempty)), if_pos hfits]

theorem afterSign_eq_some_iff {negative : Bool} {cs : List Char} {e : SqlError} :
    afterSign negative cs = some e ↔
      ∃ digits message, cs = digits ++ ':' :: message ∧ (∀ c ∈ digits, isDigit c = true) ∧
        code? negative digits = some e.code ∧ Text.trimChars message ≠ [] ∧
        e.text = String.ofList (Text.trimChars message) := by
  constructor
  · intro h
    unfold afterSign at h
    split at h
    next message hrest =>
      split at h
      next code c rest hcode hmessage =>
        cases h
        refine ⟨cs.takeWhile isDigit, message, ?_, ?_, hcode, ?_, by rw [hmessage]⟩
        · rw [← hrest, List.takeWhile_append_dropWhile]
        · exact List.all_eq_true.1 List.all_takeWhile
        · exact hmessage ▸ List.cons_ne_nil c rest
      next => cases h
    next => cases h
  · rintro ⟨digits, message, rfl, hdigits, hcode, hsome, htext⟩
    have hcolon : ∀ c ∈ (':' :: message).head?, isDigit c = false :=
      forall_head?_cons (p := fun c => isDigit c = false) rfl message
    obtain ⟨htake, hdrop⟩ := takeWhile_dropWhile_append hdigits hcolon
    obtain ⟨c, rest, hmessage⟩ := List.exists_cons_of_ne_nil hsome
    simp only [afterSign, hdrop, htake, hcode, hmessage]
    rw [← hmessage, ← htext]

theorem exists_digit_of_afterSign {negative : Bool} {cs : List Char} {e : SqlError}
    (h : afterSign negative cs = some e) : ∃ c rest, cs = c :: rest ∧ isDigit c = true := by
  obtain ⟨digits, message, rfl, hdigits, hcode, -⟩ := afterSign_eq_some_iff.1 h
  obtain ⟨c, rest, rfl⟩ := List.exists_cons_of_ne_nil (code?_eq_some_iff.1 hcode).1
  exact ⟨c, _, rfl, hdigits c List.mem_cons_self⟩

theorem ofTrimmed?_eq_some_iff {cs : List Char} {e : SqlError} :
    ofTrimmed? cs = some e ↔
      ∃ blanks negative rest, cs = '*' :: blanks ++ minus negative ++ rest ∧
        (∀ c ∈ blanks, Text.isBlank c = true) ∧ afterSign negative rest = some e := by
  constructor
  · intro h
    unfold ofTrimmed? at h
    split at h
    next cs =>
      have hblanks : ∀ c ∈ cs.takeWhile Text.isBlank, Text.isBlank c = true :=
        List.all_eq_true.1 List.all_takeWhile
      split at h
      next rest hrest =>
        refine ⟨_, true, rest, ?_, hblanks, h⟩
        simp [minus, ← hrest]
      next hrest =>
        refine ⟨_, false, _, ?_, hblanks, h⟩
        simp [minus]
    next => cases h
  · rintro ⟨blanks, negative, rest, rfl, hblanks, h⟩
    obtain ⟨c, tail, rfl, hc⟩ := exists_digit_of_afterSign h
    -- Without a sign the digits follow the blanks at once, so the reader meets no minus.
    cases negative with
    | true =>
      have hminus : ∀ d ∈ ('-' :: c :: tail).head?, Text.isBlank d = false :=
        forall_head?_cons (p := fun d => Text.isBlank d = false) rfl (c :: tail)
      have hdrop := (takeWhile_dropWhile_append hblanks hminus).2
      simp only [minus, if_true, List.cons_append, List.append_assoc, List.nil_append, ofTrimmed?,
        hdrop]
      exact h
    | false =>
      have hdigit : ∀ d ∈ (c :: tail).head?, Text.isBlank d = false :=
        forall_head?_cons (Text.isBlank_of_isDigit hc) tail
      have hdrop := (takeWhile_dropWhile_append hblanks hdigit).2
      have hminus : c ≠ '-' := ne_of_class hc rfl
      simp only [minus, Bool.false_eq_true, if_false, List.cons_append, List.append_assoc,
        List.nil_append, ofTrimmed?, hdrop]
      split
      next hcons => exact absurd (List.cons.inj hcons).1 hminus
      next => exact h

theorem Report.getLast?_chars (r : Report) : r.chars.getLast? = r.message.getLast? := by
  rw [Report.chars, List.getLast?_append, List.getLast?_eq_some_getLast r.message_some]
  rfl

theorem Report.trimmed_message_some {r : Report} {line : List Char}
    (h : Text.trimChars line = r.chars) : Text.trimChars r.message ≠ [] := by
  have hlast : r.message.getLast r.message_some ∈ (Text.trimChars line).getLast? := by
    rw [h, r.getLast?_chars, List.getLast?_eq_some_getLast r.message_some]
    rfl
  exact List.ne_nil_of_mem
    (Text.mem_trimChars (List.getLast_mem _) (Text.isBlank_getLast?_trimChars _ hlast))

theorem ofLine?_eq_some_iff {line : List Char} {e : SqlError} :
    ofLine? line = some e ↔ Reports line e := by
  rw [ofLine?, ofTrimmed?_eq_some_iff]
  constructor
  · rintro ⟨blanks, negative, rest, hline, hblanks, hrest⟩
    obtain ⟨digits, message, rfl, hdigits, hcode, hsome, htext⟩ := afterSign_eq_some_iff.1 hrest
    obtain ⟨hdigit, hvalue, hfits⟩ := code?_eq_some_iff.1 hcode
    have hmessage : message ≠ [] := by
      rintro rfl
      exact hsome Text.trimChars_nil
    obtain ⟨code, text⟩ := e
    subst hvalue htext
    refine ⟨⟨blanks, negative, digits, [], message, hblanks, hdigits, hdigit, hfits, nofun,
      hmessage⟩, ?_, rfl⟩
    simp [hline, Report.chars]
  · rintro ⟨r, hline, rfl⟩
    have htrim : Text.trimChars (r.gap ++ r.message) = Text.trimChars r.message :=
      Text.trimChars_append_of_blank r.gap_blank
    refine ⟨r.blanks, r.negative, r.digits ++ ':' :: (r.gap ++ r.message), ?_, r.blanks_blank,
      afterSign_eq_some_iff.2 ⟨r.digits, r.gap ++ r.message, rfl, r.digits_digit, ?_, ?_, ?_⟩⟩
    · simp [hline, Report.chars]
    · exact code?_eq_some_iff.2 ⟨r.digits_some, rfl, r.code_fits⟩
    · rw [htrim]
      exact Report.trimmed_message_some hline
    · rw [htrim]
      rfl

theorem ofLine?_eq_none_iff {line : List Char} :
    ofLine? line = none ↔ ¬ ∃ e, Reports line e := by
  rw [Option.eq_none_iff_forall_ne_some, not_exists]
  exact forall_congr' fun e => not_congr ofLine?_eq_some_iff

theorem splitLines_eq_splitOn (cs : List Char) : splitLines cs = cs.splitOn '\n' := by
  induction cs with
  | nil => rfl
  | cons c cs ih =>
    obtain ⟨line, lines, hlines⟩ := List.exists_cons_of_ne_nil (List.splitOn_ne_nil '\n' cs)
    rw [splitLines, ih, List.splitOn_cons_eq_if_modifyHead, hlines]
    by_cases hc : c = '\n'
    · simp [hc]
    · simp [hc]

theorem ofText?_eq_some_iff {text : String} {e : SqlError} :
    ofText? text = some e ↔ ∃ before line after,
      text.toList.splitOn '\n' = before ++ line :: after ∧ Reports line e ∧
        ∀ l ∈ before, ¬ ∃ e', Reports l e' := by
  simp only [ofText?, splitLines_eq_splitOn, List.findSome?_eq_some_iff, ofLine?_eq_some_iff,
    ofLine?_eq_none_iff]

theorem ofText?_eq_none_iff {text : String} :
    ofText? text = none ↔ ∀ line ∈ text.toList.splitOn '\n', ¬ ∃ e, Reports line e := by
  simp only [ofText?, splitLines_eq_splitOn, List.findSome?_eq_none_iff, ofLine?_eq_none_iff]

/-- An error that fits on one line. -/
structure Printable (e : SqlError) : Prop where
  code_fits : -2147483648 ≤ e.code ∧ e.code ≤ 2147483647
  text_trimmed : Text.trim e.text = e.text
  text_some : e.text ≠ ""
  no_line_feed : '\n' ∉ e.text.toList

def printed (e : SqlError) : String := "* " ++ toString e.code ++ ": " ++ e.text

theorem toList_toString_code (code : Int) :
    (toString code).toList = minus (decide (code < 0)) ++ Nat.toDigits 10 code.natAbs := by
  cases code with
  | ofNat n => exact toList_toString n
  | negSucc n =>
    rw [decide_eq_true (Int.negSucc_lt_zero n)]
    change ("-" ++ toString (n + 1)).toList = '-' :: Nat.toDigits 10 (n + 1)
    rw [String.toList_append, toList_toString]
    rfl

theorem signed_toDigits (code : Int) :
    signed (decide (code < 0)) (Nat.toDigits 10 code.natAbs) = code := by
  rw [signed, digitsValue_toDigits]
  by_cases h : code < 0
  · rw [decide_eq_true h, if_pos rfl]
    omega
  · rw [decide_eq_false h, if_neg Bool.false_ne_true]
    omega

theorem toList_printed (e : SqlError) :
    e.printed.toList = "* ".toList ++
      (minus (decide (e.code < 0)) ++ Nat.toDigits 10 e.code.natAbs) ++ ": ".toList ++
        e.text.toList := by
  simp only [printed, String.toList_append, toList_toString_code]

def Printable.report {e : SqlError} (h : Printable e) : Report where
  blanks := [' ']
  negative := decide (e.code < 0)
  digits := Nat.toDigits 10 e.code.natAbs
  gap := [' ']
  message := e.text.toList
  blanks_blank := fun _ => Text.isBlank_of_mem_space
  digits_digit := fun _ => isDigit_of_mem_toDigits
  digits_some := Nat.toDigits_ne_nil
  code_fits := by
    rw [signed_toDigits]
    exact h.code_fits
  gap_blank := fun _ => Text.isBlank_of_mem_space
  message_some := fun hnil => h.text_some (String.toList_eq_nil_iff.1 hnil)

theorem Printable.chars_report {e : SqlError} (h : Printable e) :
    h.report.chars = e.printed.toList := by
  simp [toList_printed, Report.chars, report]

theorem Printable.trimChars_text {e : SqlError} (h : Printable e) :
    Text.trimChars e.text.toList = e.text.toList := by
  rw [← String.toList_ofList (l := Text.trimChars e.text.toList)]
  exact congrArg String.toList h.text_trimmed

theorem Printable.reports_printed {e : SqlError} (h : Printable e) :
    Reports e.printed.toList e := by
  refine ⟨h.report, ?_, ?_⟩
  · rw [← h.chars_report]
    have hhead : ∀ c ∈ h.report.chars.head?, Text.isBlank c = false :=
      forall_head?_cons (p := fun c => Text.isBlank c = false) rfl _
    refine Text.trimChars_of_ends hhead ?_
    rw [Report.getLast?_chars]
    have hlast : ∀ c ∈ (Text.trimChars e.text.toList).getLast?, Text.isBlank c = false :=
      Text.isBlank_getLast?_trimChars
    rwa [h.trimChars_text] at hlast
  · obtain ⟨code, text⟩ := e
    simp [Report.error, report, signed_toDigits, h.trimChars_text]

theorem Printable.no_line_feed_printed {e : SqlError} (h : Printable e) :
    '\n' ∉ e.printed.toList := by
  have hdigits : '\n' ∉ Nat.toDigits 10 e.code.natAbs := fun hn =>
    absurd (isDigit_of_mem_toDigits hn) (by decide)
  have hminus : '\n' ∉ minus (decide (e.code < 0)) := by
    cases decide (e.code < 0) <;> decide
  simp [toList_printed, hdigits, hminus, h.no_line_feed]

theorem ofText?_printed {e : SqlError} (h : Printable e) {before after : List (List Char)}
    (hlines : ∀ l ∈ before ++ after, '\n' ∉ l) (hbefore : ∀ l ∈ before, ¬ ∃ e', Reports l e') :
    ofText? (String.ofList (['\n'].intercalate (before ++ e.printed.toList :: after))) =
      some e := by
  refine ofText?_eq_some_iff.2 ⟨before, e.printed.toList, after, ?_, h.reports_printed, hbefore⟩
  rw [String.toList_ofList]
  refine List.splitOn_intercalate '\n' ?_ (by simp)
  intro l hl
  rcases List.mem_append.1 hl with hl | hl
  · exact hlines l (List.mem_append_left _ hl)
  rcases List.mem_cons.1 hl with rfl | hl
  · exact h.no_line_feed_printed
  · exact hlines l (List.mem_append_right _ hl)

end SqlError

namespace Client

def clause (text : String) : String := if text = "" then "" else ": " ++ text

/-- Why an output without success gave no rows: for the error reported on the error output, or else
on the output, or else for how the command ended. One that a signal ended has no exit code. -/
inductive Reason (c : Connection) (output : CommandOutput) : String → Prop where
  | stderr {e : SqlError} (h : SqlError.ofText? output.stderr = some e) :
      Reason c output ("SQL error " ++ toString e.code ++ ": " ++ e.text)
  | stdout {e : SqlError} (hnone : SqlError.ofText? output.stderr = none)
      (h : SqlError.ofText? output.stdout = some e) :
      Reason c output ("SQL error " ++ toString e.code ++ ": " ++ e.text)
  | exit {code : Int} (hcode : output.exitCode = some code)
      (hstderr : SqlError.ofText? output.stderr = none)
      (hstdout : SqlError.ofText? output.stdout = none) :
      Reason c output ("Command '" ++ c.clientPath ++ "' failed with exit code " ++
        toString code ++ clause (Text.trim output.stderr))
  | killed (hcode : output.exitCode = none) (hstderr : SqlError.ofText? output.stderr = none)
      (hstdout : SqlError.ofText? output.stdout = none) :
      Reason c output
        ("Command '" ++ c.clientPath ++ "' failed" ++ clause (Text.trim output.stderr))

theorem ite_isEmpty_eq_clause (text : String) :
    (if text.isEmpty then "" else ": " ++ text) = clause text := by
  by_cases htext : text = "" <;> simp [clause, htext]

theorem message_exited (command : String) (code : Int) (text : String) :
    (SystemError.commandFailed command (some code) text).message =
      "Command '" ++ command ++ "' failed with exit code " ++ toString code ++ clause text := by
  have hmessage : (SystemError.commandFailed command (some code) text).message =
      "Command '" ++ command ++ "' failed" ++ (" with exit code " ++ toString code) ++
        (if text.isEmpty then "" else ": " ++ text) := rfl
  have hjoin : "' failed with exit code " = "' failed" ++ " with exit code " := rfl
  rw [hmessage, ite_isEmpty_eq_clause, hjoin]
  simp only [String.append_assoc]

theorem message_killed (command text : String) :
    (SystemError.commandFailed command none text).message =
      "Command '" ++ command ++ "' failed" ++ clause text := by
  have hmessage : (SystemError.commandFailed command none text).message =
      "Command '" ++ command ++ "' failed" ++ "" ++
        (if text.isEmpty then "" else ": " ++ text) := rfl
  rw [hmessage, ite_isEmpty_eq_clause, String.append_empty]

theorem reason_failureReason (c : Connection) (output : CommandOutput) :
    Reason c output (failureReason c output) := by
  unfold failureReason
  cases hstderr : SqlError.ofText? output.stderr with
  | some e => exact .stderr hstderr
  | none =>
    cases hstdout : SqlError.ofText? output.stdout with
    | some e => exact .stdout hstderr hstdout
    | none =>
      cases hcode : output.exitCode with
      | none => exact message_killed c.clientPath _ ▸ .killed hcode hstderr hstdout
      | some code => exact message_exited c.clientPath code _ ▸ .exit hcode hstderr hstdout

theorem value_execute_of_unsuccessful {env : Environment} {c : Connection} {timeout : Nat}
    {runner : Runner} {q : Query} {cmd : SystemCommand} {output : CommandOutput}
    (hsql : Text.isBlankText q.sql = false) (hcommand : command env c timeout q = .ok cmd)
    (hrun : (runner cmd).value = .ok output) (hfailed : output.success = false) :
    (execute env c timeout runner q).value = .error (.failed q.name (failureReason c output)) := by
  refine (@value_executeEach env c timeout (fun _ => runner) q cmd hsql hcommand).trans ?_
  rw [hrun]
  simp [rowsOf, hfailed]

/-- The error of a text is the one on its first line that has the form of a report, so a printed
error is read back from behind other lines; and it is what a query without success fails for. -/
theorem first_reported_error_is_shown :
    (∀ text e, SqlError.ofText? text = some e ↔ ∃ before line after,
      text.toList.splitOn '\n' = before ++ line :: after ∧ SqlError.Reports line e ∧
        ∀ l ∈ before, ¬ ∃ e', SqlError.Reports l e') ∧
    (∀ text, SqlError.ofText? text = none ↔
      ∀ line ∈ text.toList.splitOn '\n', ¬ ∃ e, SqlError.Reports line e) ∧
    (∀ e : SqlError, e.Printable → ∀ before after : List (List Char),
      (∀ l ∈ before ++ after, '\n' ∉ l) → (∀ l ∈ before, ¬ ∃ e', SqlError.Reports l e') →
      SqlError.ofText?
        (String.ofList (['\n'].intercalate (before ++ e.printed.toList :: after))) = some e) ∧
    ∀ env c timeout runner q cmd output, Text.isBlankText q.sql = false →
      command env c timeout q = .ok cmd → (runner cmd).value = .ok output →
      output.success = false →
      ∃ reason, Reason c output reason ∧
        (execute env c timeout runner q).value = .error (.failed q.name reason) := by
  refine ⟨fun _ _ => SqlError.ofText?_eq_some_iff, fun _ => SqlError.ofText?_eq_none_iff,
    fun e he before after hlines hbefore => SqlError.ofText?_printed he hlines hbefore, ?_⟩
  intro env c timeout runner q cmd output hsql hcommand hrun hfailed
  exact ⟨_, reason_failureReason c output,
    value_execute_of_unsuccessful hsql hcommand hrun hfailed⟩

def lookalikes : CommandOutput where
  stdout := "* 3000000000: too large\n* 7:\n* -10709: Connection failed: refused\n* 5: later"
  stderr := "* -2147483649: too small"
  exitCode := some 3
  success := false

/-- Nothing here is a report: a code in other digits, and one without a colon behind it. -/
def unreported : CommandOutput where
  stdout := "* ٣: not ASCII\n"
  stderr := " * 7 connection refused\n"
  exitCode := some 2
  success := false

theorem first_reported_error_behind_lookalikes :
    SqlError.ofText? lookalikes.stdout = some ⟨-10709, "Connection failed: refused"⟩ ∧
    (execute .empty { userstoreKey := some "SDB" } 30 (fun _ => pure (.ok lookalikes))
      { name := "hosts", sql := "SELECT HOST FROM M_HOSTS" }).value =
        .error (.failed "hosts" "SQL error -10709: Connection failed: refused") ∧
    (execute .empty { userstoreKey := some "SDB" } 30 (fun _ => pure (.ok unreported))
      { name := "hosts", sql := "SELECT HOST FROM M_HOSTS" }).value =
        .error (.failed "hosts"
          "Command 'hdbsql' failed with exit code 2: * 7 connection refused") := by
  let before := ["* 3000000000: too large".toList, "* 7:".toList]
  have hbefore : ∀ l ∈ before, ¬ ∃ e, SqlError.Reports l e := by
    intro l hl
    rw [← SqlError.ofLine?_eq_none_iff]
    revert l
    decide
  have hprintable : SqlError.Printable ⟨-10709, "Connection failed: refused"⟩ :=
    ⟨by decide, by decide, by decide, by decide⟩
  have hstdout : SqlError.ofText? lookalikes.stdout = some ⟨-10709, "Connection failed: refused"⟩ :=
    first_reported_error_is_shown.2.2.1 _ hprintable before ["* 5: later".toList] (by decide)
      hbefore
  have hstderr : SqlError.ofText? lookalikes.stderr = none := by decide
  have hnone : SqlError.ofText? unreported.stderr = none ∧
      SqlError.ofText? unreported.stdout = none := by decide
  have hcommand := fun output => first_reported_error_is_shown.2.2.2 .empty
    { userstoreKey := some "SDB" } 30 (fun _ => pure (.ok output))
    { name := "hosts", sql := "SELECT HOST FROM M_HOSTS" } _ output (by decide) rfl rfl
  refine ⟨hstdout, ?_, ?_⟩
  · obtain ⟨reason, hreason, hvalue⟩ := hcommand lookalikes rfl
    cases hreason with
    | stderr h => cases hstderr.symm.trans h
    | stdout _ h =>
      cases hstdout.symm.trans h
      exact hvalue
    | exit _ _ h => cases hstdout.symm.trans h
    | killed _ _ h => cases hstdout.symm.trans h
  · obtain ⟨reason, hreason, hvalue⟩ := hcommand unreported rfl
    cases hreason with
    | stderr h => cases hnone.1.symm.trans h
    | stdout _ h => cases hnone.2.symm.trans h
    | exit hcode =>
      cases hcode
      exact hvalue
    | killed hcode => cases hcode

end Client
end HanaInsights
