import HanaInsights.Config.Basic
import HanaInsights.DomainError
set_option autoImplicit false

/-!
Publishing a run: to a collector over HTTP when an endpoint is set, to the log otherwise. What a
request holds and what its answer means is settled here; the request is carried by a transport that
is passed in.
-/

namespace HanaInsights

inductive HttpMethod where
  | post | head
  deriving DecidableEq, Repr

structure HttpRequest where
  method : HttpMethod
  url : String
  token : Option String
  body : Json

/-- An answer; its status comes with the text it is shown as, and its body may be lost. -/
structure HttpResponse where
  status : Nat
  shownStatus : String
  body : Option String

/-- Carries a request and brings the answer, or says why there is none. -/
abbrev Transport := HttpRequest → Except String HttpResponse

namespace HttpResponse

def isSuccess (r : HttpResponse) : Bool := 200 ≤ r.status && r.status < 300

def failureText (r : HttpResponse) : String :=
  "HTTP " ++ r.shownStatus ++ ": " ++ r.body.getD "Unknown error"

def verdict (r : HttpResponse) : Except PublishError Unit :=
  if r.isSuccess then .ok ()
  else if r.status = 401 ∨ r.status = 403 then .error (.authenticationFailed r.failureText)
  else .error (.networkFailed r.failureText)

end HttpResponse

namespace Run

/-- The body of a request: the outcomes twice, as a map and as samples, and labels if there are
any. -/
def payload (run : Run) (c : PublishConfig) : Json :=
  .object <| [("generatedAt", .natural run.generatedAt), ("hostname", .string run.hostname),
      ("insights", Insights.toJson run.insights),
      ("samples", .array ((Insights.samples run.insights).map Sample.toJson))] ++
    (if c.labels.size = 0 then [] else [("labels", c.labelsJson)])

end Run

inductive Publisher where
  | http
  | log
  deriving DecidableEq, Repr

namespace Publisher

def ofConfig : Option PublishConfig → Publisher
  | some c => if c.endpoint.isEmpty then .log else .http
  | none => .log

def noEndpoint : String := "No endpoint URL provided"

def publishedLine (run : Run) (c : PublishConfig) : LogLine :=
  infoLine ("Published " ++ toString (Insights.samples run.insights).length ++
    " insight samples to " ++ c.endpoint)

def publish (env : Environment) (send : Transport) (run : Run) (c : PublishConfig) :
    Publisher → Logged (Except PublishError Unit)
  | .log => .withLog (.ok ()) (run.lines.map fun line => infoLine ("insight " ++ line))
  | .http =>
    if c.endpoint.isEmpty then pure (.error (.networkFailed noEndpoint))
    else do
      Logged.write .debug ("Posting insights to " ++ c.endpoint)
      match send ⟨.post, c.endpoint, c.resolveToken env, run.payload c⟩ with
      | .error reason => pure (.error (.networkFailed ("Failed to send request: " ++ reason)))
      | .ok response => do
        if response.isSuccess then Logged.writeAll [publishedLine run c]
        pure response.verdict

/-- The log can always be reached. An endpoint that does not let its headers be asked for is there
all the same. -/
def reach (env : Environment) (send : Transport) (c : PublishConfig) : Publisher → Bool
  | .log => true
  | .http =>
    if c.endpoint.isEmpty then false
    else
      match send ⟨.head, c.endpoint, c.resolveToken env, .null⟩ with
      | .ok response => response.isSuccess || response.status == 405
      | .error _ => false

end Publisher
end HanaInsights
