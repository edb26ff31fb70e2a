import TraceSearch.Json.Record
import TraceSearch.Scan.Token
import TraceSearch.Search.Report
import TraceSearch.Search.Service
import TraceSearch.Server.MediaType
import TraceSearch.Server.Route

/-!
# Answering requests

The server answers searches and explanations of one service. What a request is refused for before it
reaches the service (an unknown path, another method, a media type that is not JSON, a body that is
too long or of the wrong form or shape, a position that is no number) is told by the status alone; a
failure of the service is told by a status for its class and a document with its text.

Source: `search`, `explain_trace`, `explain_span` and `ApiError`; axum's extractors `Json` and
`Path` with their refusals, and its default limit of a body.
-/

namespace TraceSearch.Server

/-- A request. -/
structure Request where
  method : Method
  target : String
  contentType : Option String
  body : String
deriving DecidableEq

/-- What a response carries. -/
inductive Body where
  | none
  | text (s : String)
  | json (j : Json)

/-- A response. -/
structure Response where
  status : Nat
  body : Body

namespace Response

def refusal (status : Nat) : Response := ⟨status, .none⟩

def failure (status : Nat) (message : String) : Response :=
  ⟨status, .json (.object [("error", .string message)])⟩

end Response

def searchStatus : SearchError → Nat
  | .extraction _ => 502
  | .validation _ | .mapping _ => 400
  | .query .cancelled => 503

def explainStatus : ExplainError → Nat
  | .lookup _ => 404
  | .extraction _ => 502

def queryField : Json.TextField (Option String) :=
  .of "query" [] Json.readString fun _ text => some text

/-- The free text that the body of a search request asks for. -/
def readSearchText (body : String) : Except Json.Error String :=
  match Json.readRecord "SearchRequest" [queryField] none body.toList with
  | .error e => .error e
  | .ok (none, _) => .error (.mismatch (.missingField "query"))
  | .ok (some text, rest) => Json.complete (.ok (text, rest))

/-- The status of a body that is not read: one of the wrong shape is told from one that is no
document. -/
def bodyStatus : Json.Error → Nat
  | .mismatch _ => 422
  | .malformed | .truncated => 400

/-- How many bytes a body may have. -/
def bodyLimit : Nat := 2097152

def announcesJson (contentType : Option String) : Bool :=
  (contentType.bind MediaType.read).any MediaType.isJson

/-- What the scan of a search checks for while the shutdown token stays as it is: every search gets
a child of that token. -/
def requestSchedule (tokens : TokenForest) (shutdown : Nat) : Schedule :=
  fun _ => (tokens.add (some shutdown)).isCancelled tokens.tokens.length

def searched : Except SearchError (List Trace) → Response
  | .error e => .failure (searchStatus e) e.message
  | .ok found => ⟨200, .json (Report.toJson found)⟩

def explained : Except ExplainError String → Response
  | .error e => .failure (explainStatus e) e.message
  | .ok text => ⟨200, .json (.object [("explanation", .string text)])⟩

variable {m : Type → Type} [Monad m]

def respondToSearch (service : Service m) (schedule : Schedule) (r : Request) : m Response :=
  if !announcesJson r.contentType then return .refusal 415
  else if bodyLimit < r.body.utf8ByteSize then return .refusal 413
  else
    match readSearchText r.body with
    | .error e => return .refusal (bodyStatus e)
    | .ok text => return searched (← service.search schedule text)

def respondToTrace (service : Service m) (index : Nat) : m Response :=
  match Corpus.trace service.corpus index with
  | .error e => return explained (.error (.lookup e))
  | .ok t => return explained ((← service.describeTrace t).mapError .extraction)

/-- The response about the span at a position of the trace at a position. -/
def respondToSpan (service : Service m) (traceIndex index : Nat) : m Response :=
  match Corpus.span service.corpus traceIndex index with
  | .error e => return explained (.error (.lookup e))
  | .ok s => do
    let context := Explanation.spanContext s.span (s.service?.getD "unknown")
    return explained ((← service.assistant.explainSpan context).mapError .extraction)

/-- The response to a request for a route that answers its method. -/
def respondAt (service : Service m) (schedule : Schedule) (r : Request) : Route → m Response
  | .health => return ⟨200, .text "ok"⟩
  | .search => respondToSearch service schedule r
  | .explainTrace trace =>
    match positionOf trace with
    | some index => respondToTrace service index
    | none => return .refusal 400
  | .explainSpan trace span =>
    match positionOf trace, positionOf span with
    | some traceIndex, some index => respondToSpan service traceIndex index
    | _, _ => return .refusal 400

/-- The response to a request. One that asks for the head alone gets the status of the whole. -/
def respond (service : Service m) (schedule : Schedule) (r : Request) : m Response :=
  match Route.ofTarget r.target with
  | none => return .refusal 404
  | some route =>
    if !route.allows r.method then return .refusal 405
    else do
      let response ← respondAt service schedule r route
      return if r.method = .head then .refusal response.status else response

end TraceSearch.Server
