import TraceSearch.Duration.Notation
import TraceSearch.Host.Network
import TraceSearch.Json.Error
import TraceSearch.Model.Endpoint

/-!
# Failures of a language model

What can go wrong between a prompt and its completion. A failure has a message and, for a reader who
wants to know more, the messages of its causes.

Source: `LlmError`.
-/

namespace TraceSearch

/-- Why a prompt has no completion. A time to wait is in nanoseconds. -/
inductive ModelError where
  | unsupportedProvider (name : String)
  | invalidEndpoint (endpoint : String) (cause : UriError)
  | transport (cause : Host.ConnectError)
  | status (code : Nat) (body : String)
  | decode (cause : Json.Error)
  | timeout (patience : Nat)
  | emptyResponse

namespace ModelError

def message : ModelError → String
  | unsupportedProvider name => "unsupported LLM provider " ++ Text.quoted name
  | invalidEndpoint endpoint cause =>
    "invalid endpoint " ++ Text.quoted endpoint ++ ": " ++ cause.message
  | transport cause => "request failed: " ++ (cause.report.head?.getD "")
  | status code body =>
    "model server returned HTTP " ++ Decimal.integer code ++ ": " ++ body
  | decode cause => "unexpected response shape: " ++ cause.message
  | timeout patience =>
    "model did not answer within " ++ String.ofList (Duration.singleUnitText patience)
  | emptyResponse => "model returned an empty response"

/-- The causes of a failure in words, the outermost first. -/
def causes : ModelError → List String
  | invalidEndpoint _ cause => [cause.message]
  | transport cause => cause.report
  | decode cause => [cause.message]
  | unsupportedProvider _ | status _ _ | timeout _ | emptyResponse => []

end ModelError

end TraceSearch
