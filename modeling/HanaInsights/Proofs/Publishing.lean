import HanaInsights.Publish.Basic
set_option autoImplicit false

namespace HanaInsights.Publisher

/-- How publishing comes out for each answer of the collector, or for the lack of one. -/
inductive Concluded (c : PublishConfig) :
    Except String HttpResponse → Except PublishError Unit → Prop where
  | nowhere {answer : Except String HttpResponse} (hendpoint : c.endpoint = "") :
      Concluded c answer (.error (.networkFailed "No endpoint URL provided"))
  | unanswered {reason : String} (hendpoint : c.endpoint ≠ "") :
      Concluded c (.error reason) (.error (.networkFailed ("Failed to send request: " ++ reason)))
  | published {r : HttpResponse} (hendpoint : c.endpoint ≠ "")
      (hsuccess : 200 ≤ r.status ∧ r.status < 300) : Concluded c (.ok r) (.ok ())
  | unauthorized {r : HttpResponse} (hendpoint : c.endpoint ≠ "")
      (hstatus : r.status = 401 ∨ r.status = 403) :
      Concluded c (.ok r) (.error (.authenticationFailed
        ("HTTP " ++ r.shownStatus ++ ": " ++ r.body.getD "Unknown error")))
  | failed {r : HttpResponse} (hendpoint : c.endpoint ≠ "")
      (hsuccess : ¬ (200 ≤ r.status ∧ r.status < 300))
      (hstatus : ¬ (r.status = 401 ∨ r.status = 403)) :
      Concluded c (.ok r) (.error (.networkFailed
        ("HTTP " ++ r.shownStatus ++ ": " ++ r.body.getD "Unknown error")))

theorem Concluded.unique {c : PublishConfig} {answer : Except String HttpResponse}
    {o o' : Except PublishError Unit} (h : Concluded c answer o) (h' : Concluded c answer o') :
    o = o' := by
  cases h <;> cases h' <;> first | rfl | contradiction | omega

theorem concluded_verdict {c : PublishConfig} (hendpoint : c.endpoint ≠ "") (r : HttpResponse) :
    Concluded c (.ok r) r.verdict := by
  rw [HttpResponse.verdict]
  by_cases hsuccess : 200 ≤ r.status ∧ r.status < 300
  · rw [if_pos (by simpa [HttpResponse.isSuccess] using hsuccess)]
    exact .published hendpoint hsuccess
  · rw [if_neg (by simpa [HttpResponse.isSuccess] using hsuccess)]
    by_cases hstatus : r.status = 401 ∨ r.status = 403
    · rw [if_pos hstatus]
      exact .unauthorized hendpoint hstatus
    · rw [if_neg hstatus]
      exact .failed hendpoint hsuccess hstatus

theorem verdict_eq_ok_iff {r : HttpResponse} : r.verdict = .ok () ↔ r.isSuccess = true := by
  rw [HttpResponse.verdict]
  cases r.isSuccess with
  | true => simp
  | false =>
    rw [if_neg (by simp)]
    by_cases hstatus : r.status = 401 ∨ r.status = 403
    · simp [if_pos hstatus]
    · simp [if_neg hstatus]

section
variable {env : Environment} {send : Transport} {run : Run} {c : PublishConfig}

theorem publish_of_answer (hendpoint : c.endpoint ≠ "") {r : HttpResponse}
    (hanswer : send ⟨.post, c.endpoint, c.resolveToken env, run.payload c⟩ = .ok r) :
    (publish env send run c .http).value = r.verdict ∧
      (publish env send run c .http).log =
        debugLine ("Posting insights to " ++ c.endpoint) ::
          if r.isSuccess then [publishedLine run c] else [] := by
  rw [publish, if_neg (by simpa using hendpoint), hanswer]
  cases hsuccess : r.isSuccess <;>
    simp [hsuccess, Logged.write, Logged.writeAll, Logged.withLog, debugLine]

theorem concluded_publish :
    Concluded c (send ⟨.post, c.endpoint, c.resolveToken env, run.payload c⟩)
      (publish env send run c .http).value := by
  by_cases hendpoint : c.endpoint = ""
  · rw [publish, if_pos (by simp [hendpoint])]
    exact .nowhere hendpoint
  · cases hanswer : send ⟨.post, c.endpoint, c.resolveToken env, run.payload c⟩ with
    | error reason =>
      rw [publish, if_neg (by simpa using hendpoint), hanswer]
      exact .unanswered hendpoint
    | ok r =>
      rw [(publish_of_answer hendpoint hanswer).1]
      exact concluded_verdict hendpoint r

/-- What the collector answers to the one request that holds the run settles how publishing comes
out. -/
theorem publish_eq_iff {o : Except PublishError Unit} :
    (publish env send run c .http).value = o ↔
      Concluded c (send ⟨.post, c.endpoint, c.resolveToken env, run.payload c⟩) o := by
  constructor
  · rintro rfl
    exact concluded_publish
  · exact concluded_publish.unique

/-- The log says that a run is published exactly if it is. -/
theorem publishedLine_mem_log_iff :
    publishedLine run c ∈ (publish env send run c .http).log ↔
      (publish env send run c .http).value = .ok () := by
  have hother : publishedLine run c ≠ debugLine ("Posting insights to " ++ c.endpoint) :=
    fun h => nomatch congrArg LogLine.level h
  by_cases hendpoint : c.endpoint = ""
  · rw [publish, if_pos (by simp [hendpoint])]
    simp
  · cases hanswer : send ⟨.post, c.endpoint, c.resolveToken env, run.payload c⟩ with
    | error reason =>
      rw [publish, if_neg (by simpa using hendpoint), hanswer]
      exact iff_of_false (fun hmem => hother (List.mem_singleton.1 hmem)) (by simp)
    | ok r =>
      rw [(publish_of_answer hendpoint hanswer).1, (publish_of_answer hendpoint hanswer).2,
        verdict_eq_ok_iff]
      cases r.isSuccess <;> simp [hother]

end
end HanaInsights.Publisher
