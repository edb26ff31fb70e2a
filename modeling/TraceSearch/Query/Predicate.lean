import TraceSearch.Query.Basic

/-!
# Predicates on traces

Each dimension of a query is a predicate that some span of a trace has to satisfy; different
dimensions, and different tags, may be satisfied by different spans. An unconstrained dimension
holds of every trace. A query becomes the list of its constrained dimensions, which is checked from
the left up to the first that fails.

Source: `matches_service`, `matches_operation`, `matches_min_duration`, `matches_max_duration`,
`matches_time_range`, `matches_attributes`, `span_has_tag`, `TracePredicates::from_query` and
`TracePredicates::matches`.
-/

namespace TraceSearch

namespace Trace

def matchesService (t : Trace) (service : String) : Bool :=
  service == "" || t.spans.any fun s => s.service? == some service

def matchesOperation (t : Trace) (operation : String) : Bool :=
  operation == "" || t.spans.any fun s => s.span.name == operation

/-- Some span lasts at least as long. -/
def matchesDurationMin (t : Trace) (least : Duration) : Bool :=
  decide (least = Duration.zero) || t.spans.any fun s => decide (least ≤ s.span.duration)

def matchesDurationMax (t : Trace) (greatest : Duration) : Bool :=
  decide (greatest = Duration.zero) || t.spans.any fun s => decide (s.span.duration ≤ greatest)

/-- An instant within bounds that include their ends. -/
def within (least greatest : Option Instant) (time : Instant) : Bool :=
  least.all (fun m => decide (m ≤ time)) && greatest.all fun m => decide (time ≤ m)

def matchesTimeRange (t : Trace) (least greatest : Option Instant) : Bool :=
  (least.isNone && greatest.isNone) || t.spans.any fun s => within least greatest s.span.startTime

/-- The key of the tag that any failed span satisfies. -/
def errorKey : String := "error"

/-- A span carries a tag when it or its resource has an attribute of that key and text. A failed
span carries the tag `error = true` without an attribute. -/
def carriesTag (s : PlacedSpan) (key : String) (value : AttributeValue) : Bool :=
  (key == errorKey && value.text == "true" && s.span.isError) ||
    (s.attribute? key).any fun actual => actual.text == value.text

def matchesAttributes (t : Trace) (attributes : Attributes) : Bool :=
  attributes.entries.all fun (key, value) => t.spans.any fun s => carriesTag s key value

end Trace

/-- One constrained dimension of a query. -/
inductive Predicate where
  | service (name : String)
  | operation (name : String)
  | durationMin (least : Duration)
  | durationMax (greatest : Duration)
  | timeRange (least greatest : Option Instant)
  | attributes (required : Attributes)

namespace Predicate

def holds (t : Trace) : Predicate → Bool
  | service name => t.matchesService name
  | operation name => t.matchesOperation name
  | durationMin least => t.matchesDurationMin least
  | durationMax greatest => t.matchesDurationMax greatest
  | timeRange least greatest => t.matchesTimeRange least greatest
  | attributes required => t.matchesAttributes required

def name : Predicate → String
  | service _ => "service"
  | operation _ => "operation"
  | durationMin _ => "min_duration"
  | durationMax _ => "max_duration"
  | timeRange _ _ => "time_range"
  | attributes _ => "attributes"

end Predicate

namespace Query

def predicates (q : Query) : List Predicate :=
  (if q.service = "" then [] else [.service q.service]) ++
    (if q.operation = "" then [] else [.operation q.operation]) ++
    (if q.durationMin = Duration.zero then [] else [.durationMin q.durationMin]) ++
    (if q.durationMax = Duration.zero then [] else [.durationMax q.durationMax]) ++
    (if q.startMin.isNone && q.startMax.isNone then [] else [.timeRange q.startMin q.startMax]) ++
    (if q.attributes.isEmpty then [] else [.attributes q.attributes])

def accepts (q : Query) (t : Trace) : Bool := q.predicates.all (Predicate.holds t)

end Query

end TraceSearch
