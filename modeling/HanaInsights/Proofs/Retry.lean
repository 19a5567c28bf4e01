import Mathlib.Algebra.Order.Ring.Int
import Mathlib.Data.List.Intervals
import Mathlib.Order.Nat
import HanaInsights.Command.Execution
set_option autoImplicit false

/-!
How often a command is started. The first start that is decisive is the last one: the command ran,
its program is missing or may not be run, or no retry is left. Counting starts and pausing between
them stays within the machine's numbers, however the starts come out.
-/

namespace HanaInsights

theorem CommandError.isRetryable_eq_false_iff {e : CommandError} :
    e.isRetryable = false ↔
      (∃ program, e = .system (.commandNotFound program)) ∨
        ∃ reason, e = .system (.permissionDenied reason) := by
  constructor
  · intro h
    cases e with
    | system error =>
      cases error with
      | commandNotFound program => exact .inl ⟨program, rfl⟩
      | permissionDenied reason => exact .inr ⟨reason, rfl⟩
      | commandFailed command exitCode stderr => cases h
      | timeout reason => cases h
    | executionFailed reason => cases h
    | invalidArguments reason => cases h
  · rintro (⟨program, rfl⟩ | ⟨reason, rfl⟩) <;> rfl

namespace Retry

section
variable {α : Type} (once : Nat → Logged (Except CommandError α)) (retries : UInt32)

/-- What makes a start the last one if none was before it. -/
inductive Decisive (n : Nat) : Prop where
  | ran (output : α) (h : (once n).value = .ok output)
  | missing (program : String) (h : (once n).value = .error (.system (.commandNotFound program)))
  | denied (reason : String) (h : (once n).value = .error (.system (.permissionDenied reason)))
  | last (h : n = retries.toNat)

/-- The line that announces a retry after so many attempts. -/
def announced (attempt : Nat) : Except CommandError α → List LogLine
  | .ok _ => []
  | .error e => [warnLine (e.message ++ " (attempt " ++ toString attempt ++ "), retrying")]

/-- What comes of starting again and again, from the start of one index to that of another, with
these pauses behind. -/
structure EndsAt (start n : Nat) (pauses : List UInt64) (result : Logged (Result α)) : Prop where
  outcome : result.value.outcome = (once n).value
  started : result.value.started = n + 1
  pauses : result.value.pauses.map UInt64.toNat =
    pauses.map UInt64.toNat ++ (List.Ico start n).map fun i => 100 * (i + 1)
  log : result.log = ((List.Ico start n).flatMap fun i =>
    (once i).log ++ announced (i + 1) (once i).value) ++ (once n).log
  signals : result.signals =
    ((List.Ico start n).flatMap fun i => (once i).signals) ++ (once n).signals

end

section
variable {α : Type} {once : Nat → Logged (Except CommandError α)} {retries attempt : UInt32}

theorem exists_first (once : Nat → Logged (Except CommandError α)) (retries : UInt32) :
    ∃ n, IsLeast {i | Decisive once retries i} n := by
  classical
  have hlast : ∃ i, Decisive once retries i := ⟨retries.toNat, .last rfl⟩
  exact ⟨Nat.find hlast, Nat.isLeast_find hlast⟩

theorem again_of_not_decisive {n : Nat} (h : ¬ Decisive once retries n) :
    ∃ e, (once n).value = .error e ∧ e.isRetryable = true := by
  cases hvalue : (once n).value with
  | ok output => exact absurd (.ran output hvalue) h
  | error e =>
    refine ⟨e, rfl, ?_⟩
    by_contra hnot
    rw [Bool.not_eq_true, CommandError.isRetryable_eq_false_iff] at hnot
    rcases hnot with ⟨program, rfl⟩ | ⟨reason, rfl⟩
    · exact h (.missing program hvalue)
    · exact h (.denied reason hvalue)

theorem stops_of_decisive {n : Nat} (h : Decisive once retries n) {e : CommandError}
    (he : (once n).value = .error e) : retries.toNat ≤ n ∨ e.isRetryable = false := by
  rw [CommandError.isRetryable_eq_false_iff]
  cases h with
  | ran output h => cases h.symm.trans he
  | missing program h => exact .inr (.inl ⟨program, Except.error.inj (he.symm.trans h)⟩)
  | denied reason h => exact .inr (.inr ⟨reason, Except.error.inj (he.symm.trans h)⟩)
  | last h => exact .inl (Nat.le_of_eq h.symm)

theorem attemptFrom_of_decisive (h : Decisive once retries attempt.toNat) (pauses : List UInt64) :
    attemptFrom once retries attempt attempt.toNat pauses =
      ⟨⟨(once attempt.toNat).value, attempt.toNat + 1, pauses⟩, (once attempt.toNat).log,
        (once attempt.toNat).signals⟩ := by
  rw [attemptFrom]
  cases hvalue : (once attempt.toNat).value with
  | ok output => simp [bind, hvalue, pure]
  | error e =>
    have hstops : ¬ (attempt < retries ∧ e.isRetryable = true) := by
      rintro ⟨hlt, hretry⟩
      rcases stops_of_decisive h hvalue with hle | hfalse
      · exact absurd (UInt32.lt_iff_toNat_lt.1 hlt) (Nat.not_lt.2 hle)
      · exact absurd hretry (by simp [hfalse])
    simp [bind, hvalue, hstops, pure]

theorem attemptFrom_of_again {e : CommandError} (he : (once attempt.toNat).value = .error e)
    (hagain : attempt < retries ∧ e.isRetryable = true) (pauses : List UInt64) :
    attemptFrom once retries attempt attempt.toNat pauses =
      once attempt.toNat >>= fun outcome =>
        Logged.writeAll (announced (attempt.toNat + 1) outcome) >>= fun _ =>
          attemptFrom once retries (attempt + 1) (attempt + 1).toNat
            (pauses ++ [pause (attempt + 1)]) := by
  have hline : retryLine e (attempt + 1) =
      warnLine (e.message ++ " (attempt " ++ toString (attempt + 1).toNat ++ "), retrying") := rfl
  rw [toNat_add_one hagain.1] at hline ⊢
  rw [attemptFrom]
  simp [bind, he, hagain, announced, hline]

theorem EndsAt.self (n : Nat) (pauses : List UInt64) :
    EndsAt once n n pauses ⟨⟨(once n).value, n + 1, pauses⟩, (once n).log, (once n).signals⟩ := by
  constructor <;> simp

theorem EndsAt.again {n : Nat} {pauses : List UInt64} {result : Logged (Result α)}
    (hlt : attempt.toNat < n) (hretries : attempt < retries)
    (h : EndsAt once (attempt + 1).toNat n (pauses ++ [pause (attempt + 1)]) result) :
    EndsAt once attempt.toNat n pauses
      (once attempt.toNat >>= fun outcome =>
        Logged.writeAll (announced (attempt.toNat + 1) outcome) >>= fun _ => result) := by
  obtain ⟨houtcome, hstarted, hpauses, hlog, hsignals⟩ := h
  rw [toNat_add_one hretries] at hpauses hlog hsignals
  refine ⟨houtcome, hstarted, ?_, ?_, ?_⟩
  · simp [hpauses, toNat_pause, toNat_add_one hretries, List.Ico.eq_cons hlt]
  · simp [hlog, Logged.writeAll, Logged.withLog, List.Ico.eq_cons hlt]
  · simp [hsignals, Logged.writeAll, Logged.withLog, List.Ico.eq_cons hlt]

theorem endsAt_of_first {n : Nat} (hn : Decisive once retries n) (hbound : n ≤ retries.toNat)
    (hle : attempt.toNat ≤ n)
    (hbefore : ∀ i, attempt.toNat ≤ i → i < n → ¬ Decisive once retries i)
    (pauses : List UInt64) :
    EndsAt once attempt.toNat n pauses
      (attemptFrom once retries attempt attempt.toNat pauses) := by
  -- The induction is on the starts still to come before the decisive one.
  induction hk : n - attempt.toNat generalizing attempt pauses with
  | zero =>
    obtain rfl : attempt.toNat = n := by omega
    rw [attemptFrom_of_decisive hn]
    exact .self _ _
  | succ k ih =>
    have hlt : attempt.toNat < n := by omega
    have hretries : attempt < retries := UInt32.lt_iff_toNat_lt.2 (by omega)
    have hnext : (attempt + 1).toNat = attempt.toNat + 1 := toNat_add_one hretries
    obtain ⟨e, he, hretry⟩ := again_of_not_decisive (hbefore _ (Nat.le_refl _) hlt)
    rw [attemptFrom_of_again he ⟨hretries, hretry⟩]
    apply EndsAt.again hlt hretries
    apply ih
    · omega
    · exact fun i hi => hbefore i (by omega)
    · omega

theorem run_endsAt_least {n : Nat} (h : IsLeast {i | Decisive once retries i} n) :
    EndsAt once 0 n [] (run once retries) := by
  have hfrom : (0 : UInt32).toNat ≤ n := Nat.zero_le n
  have hbefore : ∀ i, (0 : UInt32).toNat ≤ i → i < n → ¬ Decisive once retries i :=
    fun i _ hi hdecisive => Nat.not_le.2 hi (h.2 hdecisive)
  exact endsAt_of_first h.1 (h.2 (.last rfl)) hfrom hbefore []

theorem sum_pauses (n : Nat) :
    ((List.range n).map fun i => 100 * (i + 1)).sum = 100 * (List.range (n + 1)).sum := by
  induction n with
  | zero => rfl
  | succ n ih => simp [List.range_succ, ih]; omega

end

end Retry

/-- What no retry can better: the program came to its end, or it is missing, or may not be run. -/
inductive Started.Final : Started → Prop where
  | ended (stdout stderr : List UInt8) (exitCode : Option Int) :
      Final (.ended stdout stderr exitCode)
  | missing (reason : String) : Final (.refused .notFound reason)
  | denied (reason : String) : Final (.refused .permissionDenied reason)

theorem Started.final_of_result_eq_ok {c : SystemCommand} {limit : Nat} {s : Started}
    {output : CommandOutput} (h : s.result c limit = .ok output) : s.Final := by
  revert h
  fun_cases Started.result c limit s with
  | case1 stdout stderr exitCode => exact fun _ => .ended stdout stderr exitCode
  | case2 => rintro ⟨⟩
  | case3 => rintro ⟨⟩
  | case4 => rintro ⟨⟩
  | case5 => rintro ⟨⟩

theorem Started.final_of_result_eq_error {c : SystemCommand} {limit : Nat} {s : Started}
    {e : CommandError} (h : s.result c limit = .error e) (he : e.isRetryable = false) :
    s.Final := by
  revert h
  fun_cases Started.result c limit s with
  | case1 stdout stderr exitCode => exact fun _ => .ended stdout stderr exitCode
  | case2 reason => exact fun _ => .missing reason
  | case3 reason => exact fun _ => .denied reason
  | case4 reason =>
    rintro ⟨⟩
    cases he
  | case5 =>
    rintro ⟨⟩
    cases he

/-- Executing a command once settles the matter exactly if its program ended, whatever it left
behind, or cannot be run at all. -/
theorem Retry.decisive_once_iff (starts : Nat → Starter) (limit : Nat) (c : SystemCommand)
    {retries : UInt32} {n : Nat} :
    Decisive (fun i => (starts i).once limit c) retries n ↔
      n = retries.toNat ∨ (starts n c (c.timeout.getD limit)).value.Final := by
  have hvalue : ((starts n).once limit c).value =
      (starts n c (c.timeout.getD limit)).value.result c (c.timeout.getD limit) := rfl
  generalize (starts n c (c.timeout.getD limit)).value = started at hvalue ⊢
  constructor
  · rintro (⟨output, h⟩ | ⟨program, h⟩ | ⟨reason, h⟩ | h)
    · exact .inr (Started.final_of_result_eq_ok (hvalue.symm.trans h))
    · exact .inr (Started.final_of_result_eq_error (hvalue.symm.trans h) rfl)
    · exact .inr (Started.final_of_result_eq_error (hvalue.symm.trans h) rfl)
    · exact .inl h
  · rintro (h | h)
    · exact .last h
    · cases h with
      | ended stdout stderr exitCode => exact .ran _ hvalue
      | missing reason => exact .missing c.program hvalue
      | denied reason => exact .denied _ hvalue

/-- However the starts come out, the loop ends with the first decisive one, and every start before
it was followed by its line and its pause. A command whose program came to its end is never executed
again, whatever its exit code. -/
theorem Retry.first_decisive_start_is_last {α : Type}
    (once : Nat → Logged (Except CommandError α)) (retries : UInt32) :
    (∃ n, IsLeast {i | Decisive once retries i} n ∧ n ≤ retries.toNat ∧
      (run once retries).value.outcome = (once n).value ∧
      (run once retries).value.started = n + 1 ∧
      (run once retries).value.pauses.map UInt64.toNat =
        (List.range n).map (fun i => 100 * (i + 1)) ∧
      ((run once retries).value.pauses.map UInt64.toNat).sum = 100 * (List.range (n + 1)).sum ∧
      (run once retries).log = ((List.range n).flatMap fun i =>
        (once i).log ++ announced (i + 1) (once i).value) ++ (once n).log ∧
      (run once retries).signals = (List.range (n + 1)).flatMap fun i => (once i).signals) ∧
    ∀ (starts : Nat → Starter) (limit : Nat) (c : SystemCommand) (n : Nat),
      Decisive (fun i => (starts i).once limit c) retries n ↔
        n = retries.toNat ∨ (starts n c (c.timeout.getD limit)).value.Final := by
  refine ⟨?_, fun starts limit c n => decisive_once_iff starts limit c⟩
  obtain ⟨n, hleast⟩ := exists_first once retries
  obtain ⟨houtcome, hstarted, hpauses, hlog, hsignals⟩ := run_endsAt_least hleast
  simp only [List.map_nil, List.nil_append, List.Ico.zero_bot] at hpauses hlog hsignals
  refine ⟨n, hleast, hleast.2 (.last rfl), houtcome, hstarted, hpauses, ?_, hlog, ?_⟩
  · rw [hpauses, sum_pauses]
  · rw [hsignals, List.range_succ, List.flatMap_append, List.flatMap_singleton]

end HanaInsights
