import TraceSearch.Json.Printer
import TraceSearch.Trace.Basic

/-!
# Writing OTLP documents

A trace becomes a value in the OTLP JSON encoding, its members in the order of the format. Times and
integers are written as strings of digits and kinds and codes as numbers. An empty parent, scope
name, scope version or status message and an empty list of events are left out.

Source: `Trace`, `Span`, `KeyValue`, `AnyValue`, `unix_nanos` and `int_value`; the encoders that
serde derives for these types.
-/

namespace TraceSearch.Otlp

/-- A member that is left out when its string is empty. -/
def memberUnlessEmpty (name value : String) : List (String × Json) :=
  if value = "" then [] else [(name, .string value)]

def digitsOf (n : Int) : Json := .string (Decimal.integer n)

def encodeTime (t : UInt64) : Json := digitsOf t.toNat

mutual

/-- An attribute value, under the name of its form. -/
def encodeValue : AttributeValue → Json
  | .string s => .object [("stringValue", .string s)]
  | .bool b => .object [("boolValue", .bool b)]
  | .int n => .object [("intValue", digitsOf n.toInt)]
  | .double x => .object [("doubleValue", .ofFloat x)]
  | .array items =>
    .object [("arrayValue", .object [("values", .array (encodeValues items))])]
  | .keyValues entries =>
    .object [("kvlistValue", .object [("values", .array (encodeEntries entries))])]
  | .bytes encoded => .object [("bytesValue", .string encoded)]

def encodeValues : List AttributeValue → List Json
  | [] => []
  | item :: rest => encodeValue item :: encodeValues rest

def encodeEntries : List (String × AttributeValue) → List Json
  | [] => []
  | (key, value) :: rest =>
    .object [("key", .string key), ("value", encodeValue value)] :: encodeEntries rest

end

def encodeAttributes (a : Attributes) : Json := .array (encodeEntries a.entries)

def encodeStatus (s : Status) : Json :=
  .object (memberUnlessEmpty "message" s.message ++ [("code", .int s.code.code)])

def encodeEvent (e : Event) : Json :=
  .object [("timeUnixNano", encodeTime e.time), ("name", .string e.name),
    ("attributes", encodeAttributes e.attributes)]

def encodeSpan (s : Span) : Json :=
  .object <|
    [("traceId", .string s.traceId), ("spanId", .string s.spanId)] ++
      memberUnlessEmpty "parentSpanId" s.parentSpanId ++
      [("name", .string s.name), ("kind", .int s.kind.code),
        ("startTimeUnixNano", encodeTime s.start), ("endTimeUnixNano", encodeTime s.stop),
        ("attributes", encodeAttributes s.attributes)] ++
      (if s.events.isEmpty then [] else [("events", .array (s.events.map encodeEvent))]) ++
      [("status", encodeStatus s.status)]

def encodeScope (s : Scope) : Json :=
  .object (memberUnlessEmpty "name" s.name ++ memberUnlessEmpty "version" s.version)

def encodeScopeSpans (s : ScopeSpans) : Json :=
  .object [("scope", encodeScope s.scope), ("spans", .array (s.spans.map encodeSpan))]

def encodeResource (r : Resource) : Json :=
  .object [("attributes", encodeAttributes r.attributes)]

def encodeResourceSpans (r : ResourceSpans) : Json :=
  .object [("resource", encodeResource r.resource),
    ("scopeSpans", .array (r.scopes.map encodeScopeSpans))]

def encodeTrace (t : Trace) : Json :=
  .object [("resourceSpans", .array (t.resources.map encodeResourceSpans))]

end TraceSearch.Otlp
