import TraceSearch.Instant.Basic
import TraceSearch.Trace.Basic

/-!
# Views of a trace

A trace is looked at as one list of spans, each with the resource that emitted it, in the order of
resources, scopes and spans. Counts, identities and times are read off that list. Main fact:
`spanCount`, which adds up the scopes, is the length of the list.

Source: `Span::duration`, `Span::start_time`, `SpanRef::service_name`, `SpanRef::attribute`,
`Trace::spans`, `Trace::span_count`, `Trace::trace_id`, `Trace::root_span`, `Trace::duration`,
`Trace::summary` and `nanos_to_datetime`.
-/

namespace TraceSearch

/-- The key of the attribute that names a service. -/
def serviceKey : String := "service.name"

def Resource.service? (r : Resource) : Option String := r.attributes.getString? serviceKey

/-- The instant of a timestamp; one beyond 63 bits counts as the greatest. -/
def instantOf (nanos : UInt64) : Instant :=
  Instant.ofUnixNanos (min (nanos.toNat : Int) Duration.greatest64)

namespace Span

/-- The length of a span, negative when it ends before it starts, kept within 64 bits. -/
def duration (s : Span) : Duration :=
  ⟨Duration.clamp64 ((s.stop.toNat : Int) - (s.start.toNat : Int))⟩

def startTime (s : Span) : Instant := instantOf s.start

def stopTime (s : Span) : Instant := instantOf s.stop

def isError (s : Span) : Bool := s.status.code == .error

/-- A span without a parent. -/
def isRoot (s : Span) : Bool := s.parentSpanId == ""

end Span

def Event.instant (e : Event) : Instant := instantOf e.time

/-- A span together with the resource that emitted it. -/
structure PlacedSpan where
  resource : Resource
  span : Span

namespace PlacedSpan

/-- The service of a span: its own attribute if that is a string, or else its resource's. -/
def service? (s : PlacedSpan) : Option String :=
  (s.span.attributes.getString? serviceKey).orElse fun _ => s.resource.service?

/-- An attribute of a span, or else of its resource. -/
def attribute? (s : PlacedSpan) (key : String) : Option AttributeValue :=
  (s.span.attributes.get? key).orElse fun _ => s.resource.attributes.get? key

/-- The service of a span for a reader, `unknown` where there is none. -/
def serviceLabel (s : PlacedSpan) : String := s.service?.getD "unknown"

end PlacedSpan

def ResourceSpans.placed (r : ResourceSpans) : List PlacedSpan :=
  r.scopes.flatMap fun scope => scope.spans.map fun span => ⟨r.resource, span⟩

def ResourceSpans.spanCount (r : ResourceSpans) : Nat :=
  r.scopes.foldr (fun scope count => scope.spans.length + count) 0

@[simp]
theorem ResourceSpans.length_placed (r : ResourceSpans) : r.placed.length = r.spanCount := by
  unfold placed spanCount
  induction r.scopes with
  | nil => rfl
  | cons scope scopes ih => simp [ih]

/-- One line about a trace. -/
structure TraceSummary where
  traceId : String
  rootName : String
  rootService : String
  spanCount : Nat
  duration : Duration
  hasError : Bool
deriving DecidableEq

namespace Trace

def spans (t : Trace) : List PlacedSpan := t.resources.flatMap ResourceSpans.placed

def spanCount (t : Trace) : Nat := t.resources.foldr (fun r count => r.spanCount + count) 0

@[simp] theorem length_spans (t : Trace) : t.spans.length = t.spanCount := by
  unfold spans spanCount
  induction t.resources with
  | nil => rfl
  | cons r resources ih => simp [ih]

/-- The first trace id that is not empty. -/
def traceId? (t : Trace) : Option String :=
  (t.spans.map fun s => s.span.traceId).find? fun id => id != ""

/-- The first span without a parent, or else the first span. -/
def root? (t : Trace) : Option PlacedSpan :=
  (t.spans.find? fun s => s.span.isRoot).orElse fun _ => t.spans.head?

/-- The earliest start of spans, the greatest timestamp if there are none. -/
def earliestStart (spans : List PlacedSpan) : Nat :=
  spans.foldl (fun least s => min least s.span.start.toNat) 18446744073709551615

/-- The latest end of spans, zero if there are none. -/
def latestStop (spans : List PlacedSpan) : Nat :=
  spans.foldl (fun greatest s => max greatest s.span.stop.toNat) 0

/-- The time from the earliest start to the latest end. It is zero when no span starts before the
greatest timestamp, and when the clocks disagree so far that the end comes first. -/
def duration (t : Trace) : Duration :=
  if earliestStart t.spans = 18446744073709551615 then Duration.zero
  else ⟨min ((latestStop t.spans - earliestStart t.spans : Nat) : Int) Duration.greatest64⟩

def hasError (t : Trace) : Bool := t.spans.any fun s => s.span.isError

def summary (t : Trace) : TraceSummary where
  traceId := t.traceId?.getD ""
  rootName := (t.root?.map fun s => s.span.name).getD ""
  rootService := (t.root?.bind PlacedSpan.service?).getD "unknown"
  spanCount := t.spanCount
  duration := t.duration
  hasError := t.hasError

end Trace

end TraceSearch
