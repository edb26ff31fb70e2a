import TraceSearch.Corpus.Lookup
import TraceSearch.Explanation.Context
import TraceSearch.Search.Basic

/-!
# The search service

A corpus together with an assistant: it is searched, and its traces and spans are explained by their
positions. A position that names nothing does not reach the assistant.

Source: `AssistedQueryService::search`, `AssistedQueryService::explain_trace`,
`AssistedQueryService::explain_span` and `App::explain_span`.
-/

namespace TraceSearch

/-- A corpus with an assistant, and how many traces a search may return, zero for any number. -/
structure Service (m : Type → Type) where
  corpus : List Trace
  assistant : Assistant m
  maxResults : Nat

/-- Why there is no explanation. -/
inductive ExplainError where
  | lookup (cause : LookupError)
  | extraction (cause : ExtractionError)

namespace ExplainError

def message : ExplainError → String
  | lookup cause => cause.message
  | extraction cause => cause.message

/-- The causes of a failure in words, the outermost first. -/
def causes : ExplainError → List String
  | lookup _ => []
  | extraction cause => cause.causes

end ExplainError

namespace Service

variable {m : Type → Type} [Monad m]

/-- The traces that answer free text, found by a scan under a schedule of cancellation. -/
def search (s : Service m) (schedule : Schedule) (text : String) :
    m (Except SearchError (List Trace)) :=
  Search.run s.assistant (fun q => pure (Scan.collect schedule s.corpus q)) s.maxResults text

def describeTrace (s : Service m) (t : Trace) : m (Except ExtractionError String) :=
  s.assistant.explainTrace (Explanation.traceContext t)

def describeSpan (s : Service m) (span : PlacedSpan) : m (Except ExtractionError String) :=
  s.assistant.explainSpan (Explanation.spanContext span.span span.serviceLabel)

def explainTrace (s : Service m) (index : Nat) : m (Except ExplainError String) :=
  match Corpus.trace s.corpus index with
  | .error e => return .error (.lookup e)
  | .ok t => return (← s.describeTrace t).mapError .extraction

/-- The explanation of the span at a position of the trace at a position. -/
def explainSpan (s : Service m) (traceIndex index : Nat) : m (Except ExplainError String) :=
  match Corpus.span s.corpus traceIndex index with
  | .error e => return .error (.lookup e)
  | .ok span => return (← s.describeSpan span).mapError .extraction

end Service

end TraceSearch
