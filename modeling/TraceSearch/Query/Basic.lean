import TraceSearch.Duration.Literal
import TraceSearch.Instant.Rfc3339
import TraceSearch.Intent.Basic
import TraceSearch.Trace.View

/-!
# Trace queries

A query is an intent with its literals parsed. An empty name, a zero duration, an absent bound and
an empty set of attributes each leave their dimension unconstrained, and a limit of zero is no
limit.

Source: `TraceQueryParams` and `map_ir`.
-/

namespace TraceSearch

/-- The constraints of a search. -/
structure Query where
  service : String
  operation : String
  attributes : Attributes
  startMin : Option Instant
  startMax : Option Instant
  durationMin : Duration
  durationMax : Duration
  limit : Nat
deriving BEq, Inhabited

namespace Query

def unconstrained : Query := ⟨"", "", Attributes.empty, none, none, Duration.zero, Duration.zero, 0⟩

/-- Why an intent has no query. -/
inductive MappingError where
  | duration (part : Intent.Part) (cause : Duration.LiteralError)
  | timestamp (part : Intent.Part) (cause : Instant.TimestampError)
deriving DecidableEq

def MappingError.message : MappingError → String
  | duration part cause => "cannot parse " ++ part.name ++ ": " ++ cause.message
  | timestamp part cause => "cannot parse " ++ part.name ++ ": " ++ cause.message

def MappingError.causes : MappingError → List String
  | duration _ cause => [cause.message]
  | timestamp _ cause => [cause.message]

/-- The bound a duration literal denotes, zero for none. -/
def durationBound (part : Intent.Part) : Option String → Except MappingError Duration
  | none => .ok Duration.zero
  | some literal => (Duration.ofLiteral literal).mapError (.duration part)

def timeBound (part : Intent.Part) : Option String → Except MappingError (Option Instant)
  | none => .ok none
  | some literal =>
    match Instant.ofRfc3339 literal with
    | .error cause => .error (.timestamp part cause)
    | .ok t => .ok (some t)

/-- The query of an intent, without a limit. Literals are parsed in the order of the parts, and the
first failure is reported. -/
def ofIntent (i : Intent) : Except MappingError Query := do
  let durationMin ← durationBound .minDuration i.minDuration
  let durationMax ← durationBound .maxDuration i.maxDuration
  let startMin ← timeBound .startTime i.startTime
  let startMax ← timeBound .endTime i.endTime
  return { service := i.service.getD ""
           operation := i.operation.getD ""
           attributes := Attributes.ofStrings i.tags.entries
           startMin, startMax, durationMin, durationMax, limit := 0 }

/-- A query with a string attribute added. -/
def withAttribute (q : Query) (key value : String) : Query :=
  { q with attributes := q.attributes.putString key value }

end Query

end TraceSearch
