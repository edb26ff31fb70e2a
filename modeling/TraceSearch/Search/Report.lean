import TraceSearch.Json.Printer
import TraceSearch.Trace.View

/-!
# Reporting search results

The traces that a search found, as lines for a terminal and as a document. In both, traces keep the
order they were found in; the terminal shows every span and whether it failed.

Source: `write_search_result`, `span_failed`, `SearchResponse` and `serialize_millis`.
-/

namespace TraceSearch

/-- Whether a span failed: by its status, or by an attribute `error` of its own that reads `true`.
-/
def Span.failed (s : Span) : Bool :=
  s.isError || (s.attributes.get? "error").any fun value => value.text == "true"

namespace Report

def spanLine (s : PlacedSpan) : String :=
  "trace=" ++ s.span.traceId ++ " span=" ++ s.span.name ++ " service=" ++ s.service?.getD "" ++
    " error=" ++ (if s.span.failed then "true" else "false") ++ "\n"

/-- The lines about the trace of a position, counted from zero. -/
def traceBlock (position : Nat) (t : Trace) : String :=
  "\nTrace #" ++ Decimal.integer (position + 1) ++ "\n" ++ String.join (t.spans.map spanLine)

def text (traces : List Trace) : String :=
  "Traces returned: " ++ Decimal.integer traces.length ++ "\n" ++
    String.join (traces.mapIdx traceBlock)

end Report

/-- A summary as a document, its duration in milliseconds. -/
def TraceSummary.toJson (s : TraceSummary) : Json :=
  .object
    [("trace_id", .string s.traceId), ("root_name", .string s.rootName),
      ("root_service", .string s.rootService), ("span_count", .nat s.spanCount),
      ("duration", .int s.duration.milliseconds), ("has_error", .bool s.hasError)]

def Report.toJson (traces : List Trace) : Json :=
  .object
    [("count", .nat traces.length), ("traces", .array (traces.map fun t => t.summary.toJson))]

end TraceSearch
