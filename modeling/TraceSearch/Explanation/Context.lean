import TraceSearch.Decimal.Integer
import TraceSearch.Duration.Notation
import TraceSearch.Trace.View

/-!
# Contexts for explanations

The plain text about a trace or a span that a language model is asked to explain. The context of a
trace has one block for every span; the context of a span adds its events, each with its offset from
the start of the span. Only attributes of interest are shown.

Source: `build_trace_context`, `build_span_context` and `is_selected`.
-/

namespace TraceSearch.Explanation

/-- The attributes of interest: those with one of the stems or one of the keys. -/
structure Interest where
  stems : List String
  keys : List String

def Interest.covers (i : Interest) (key : String) : Bool :=
  i.keys.contains key || i.stems.any fun stem => stem.toList.isPrefixOf key.toList

def Interest.trace : Interest := ⟨["http."], ["db.system", "error"]⟩

def Interest.span : Interest :=
  ⟨["http.", "db.", "rpc.", "messaging."], ["error", "exception.type"]⟩

def attributeLines (i : Interest) (line : String → String → String) (a : Attributes) : String :=
  String.join <| (a.entries.filter fun (key, _) => i.covers key).map fun (key, value) =>
    line key value.text

def spanHeader (service : String) (s : Span) : String :=
  "\n[Span] Name: " ++ s.name ++ " | Service: " ++ service ++ " | Kind: " ++ s.kind.name ++ "\n"

/-- The block of a span in the context of its trace, under the service of its resource. -/
def spanBlock (service : String) (s : Span) : String :=
  spanHeader service s ++
    "  Duration: " ++ Decimal.integer s.duration.milliseconds ++ "ms\n" ++
    attributeLines .trace (fun key value => "  Tag: " ++ key ++ " = " ++ value ++ "\n")
      s.attributes ++
    (if s.isError then "  Status: ERROR (" ++ s.status.message ++ ")\n" else "")

/-- The blocks of the spans of a resource, scope by scope. -/
def resourceBlocks (r : ResourceSpans) : String :=
  String.join ((r.scopes.flatMap ScopeSpans.spans).map (spanBlock (r.resource.service?.getD "")))

def traceContext (t : Trace) : String :=
  "Trace Analysis Context:\n" ++ String.join (t.resources.map resourceBlocks)

/-- The time from the start of a span to one of its events. -/
def eventOffset (s : Span) (e : Event) : Duration := e.instant.since s.startTime

def eventBlock (s : Span) (e : Event) : String :=
  "- T+" ++ (eventOffset s e).format ++ ": " ++ e.name ++ "\n" ++
    String.join (e.attributes.entries.map fun (key, value) =>
      "  └ " ++ key ++ ": " ++ value.text ++ "\n")

def spanContext (s : Span) (service : String) : String :=
  "### Detailed Span Analysis\n" ++
    "Operation: " ++ s.name ++ "\n" ++
    "Service: " ++ service ++ "\n" ++
    "Kind: " ++ s.kind.name ++ "\n" ++
    "Duration: " ++ s.duration.format ++ "\n" ++
    "\nAttributes:\n" ++
    attributeLines .span (fun key value => "- " ++ key ++ ": " ++ value ++ "\n") s.attributes ++
    (if s.isError then
      "\n[!] Status: ERROR\n[!] Error Message: " ++ s.status.message ++ "\n" else "") ++
    (if s.events.isEmpty then ""
      else "\nEvents (Internal Logs):\n" ++ String.join (s.events.map (eventBlock s)))

end TraceSearch.Explanation
