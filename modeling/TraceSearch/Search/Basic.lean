import TraceSearch.Intent.Validation
import TraceSearch.Model.Assistant
import TraceSearch.Scan.Basic

/-!
# Assisted search

Free text in, matching traces out: an assistant states an intent, the intent is validated and
becomes a query, and the query is put to a source of traces. The first failure of a stage is the
outcome, and no later stage is reached.

Source: `AssistedQueryService::search`.
-/

namespace TraceSearch

/-- Why a search has no result. -/
inductive SearchError where
  | extraction (cause : ExtractionError)
  | validation (cause : Intent.ValidationError)
  | mapping (cause : Query.MappingError)
  | query (cause : QueryError)

namespace SearchError

def message : SearchError → String
  | extraction cause => cause.message
  | validation cause => "invalid search: " ++ cause.message
  | mapping cause => "cannot build query: " ++ cause.message
  | query cause => cause.message

/-- The causes of a failure in words, the outermost first. -/
def causes : SearchError → List String
  | extraction cause => cause.causes
  | validation cause => cause.message :: cause.causes
  | mapping cause => cause.message :: cause.causes
  | query _ => []

end SearchError

namespace Search

/-- The query that answers an intent, for at most `limit` traces. -/
def plan (limit : Nat) (i : Intent) : Except SearchError Query :=
  match i.validate with
  | .error e => .error (.validation e)
  | .ok () =>
    match Query.ofIntent i with
    | .error e => .error (.mapping e)
    | .ok q => .ok { q with limit }

def run {m : Type → Type} [Monad m] (assistant : Assistant m)
    (source : Query → m (Except QueryError (List Trace))) (limit : Nat) (text : String) :
    m (Except SearchError (List Trace)) := do
  match ← assistant.extract text with
  | .error e => return .error (.extraction e)
  | .ok i =>
    match plan limit i with
    | .error e => return .error e
    | .ok q => return (← source q).mapError .query

end Search

end TraceSearch
