import TraceSearch.Json.Printer
import TraceSearch.Json.Record
import TraceSearch.Model.Error
import TraceSearch.Text.Blank
import TraceSearch.Text.Utf8

/-!
# Text generators

A generator completes prompts. The one that is built from settings posts each prompt to a model
server as one request and reads the completion from the response. A response whose status is no
success, a body of the wrong shape and a blank completion are failures, and nothing is tried twice.

Source: `new_generator`, `OllamaGenerator::send` and `OllamaGenerator::generate`.
-/

namespace TraceSearch

/-- Prompt in, completion out. -/
structure Generator (m : Type → Type) where
  generate : String → m (Except ModelError String)

namespace Model

/-- Which model completes prompts and how. The time to wait is in seconds. -/
structure ModelSettings where
  provider : String
  model : String
  endpoint : String
  temperature : Float
  maxTokens : Nat
  timeout : Nat
deriving BEq

def requestBody (settings : ModelSettings) (prompt : String) : Json :=
  .object
    [("model", .string settings.model), ("prompt", .string prompt), ("stream", .bool false),
      ("options", .object
        [("temperature", .ofFloat settings.temperature),
          ("num_predict", .nat settings.maxTokens)])]

def request (settings : ModelSettings) (uri : Uri) (prompt : String) : Host.PostRequest where
  authority := uri.authority
  target := uri.target
  contentType := "application/json"
  body := (requestBody settings prompt).compact
  patience := settings.timeout * 1000000000

def responseFields : List (Json.TextField String) :=
  [.of "response" [] Json.readString fun _ text => text]

def readCompletion (body : ByteArray) : Except ModelError String :=
  match Text.ofUtf8? body with
  | none => .error (.decode .malformed)
  | some text =>
    match Json.complete (Json.readRecord "GenerateResponse" responseFields "" text.toList) with
    | .error e => .error (.decode e)
    | .ok completion =>
      if Text.isBlankText completion then .error .emptyResponse else .ok (Text.trim completion)

def isSuccess (status : Nat) : Bool := 200 ≤ status && status < 300

def completionOf (patience : Nat) :
    Except Host.ExchangeError Host.PostResponse → Except ModelError String
  | .error (.connect cause) => .error (.transport cause)
  | .error .timedOut => .error (.timeout patience)
  | .ok response =>
    if isSuccess response.status then readCompletion response.body
    else .error (.status response.status (Text.ofUtf8Lossy response.body))

/-- A generator over a model server at a URI, given how requests are exchanged for responses. -/
def overServer {m : Type → Type} [Monad m]
    (exchange : Host.PostRequest → m (Except Host.ExchangeError Host.PostResponse))
    (settings : ModelSettings) (uri : Uri) : Generator m where
  generate prompt := do
    let posted := request settings uri prompt
    return completionOf posted.patience (← exchange posted)

def serverUri (settings : ModelSettings) : Except ModelError Uri :=
  if settings.provider = "ollama" then
    (endpointUri settings.endpoint).mapError (.invalidEndpoint settings.endpoint)
  else .error (.unsupportedProvider settings.provider)

end Model

def Generator.ofSettings {m : Type → Type} [Monad m]
    (exchange : Host.PostRequest → m (Except Host.ExchangeError Host.PostResponse))
    (settings : Model.ModelSettings) : Except ModelError (Generator m) :=
  (Model.serverUri settings).map (Model.overServer exchange settings)

end TraceSearch
