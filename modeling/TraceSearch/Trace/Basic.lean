import TraceSearch.Attribute.Basic

/-!
# Traces

A trace is one request followed through a system: resources, usually service instances, hold groups
of spans by instrumentation scope, and a span is a unit of work. Times are 64-bit nanoseconds since
the epoch. Every field has a default, which is what a document that leaves it out means.

Source: `Trace`, `ResourceSpans`, `ScopeSpans`, `Span`, `Event`, `Status`, `SpanKind` and
`StatusCode`.
-/

namespace TraceSearch

/-- The role of a span. -/
inductive SpanKind where
  | unspecified | internal | server | client | producer | consumer
deriving DecidableEq, Inhabited

/-- The outcome of a span. -/
inductive StatusCode where
  | unset | ok | error
deriving DecidableEq, Inhabited

/-- The outcome of a span with an explanation. -/
structure Status where
  message : String
  code : StatusCode
deriving BEq, Inhabited

/-- A timestamped note on a span. -/
structure Event where
  time : UInt64
  name : String
  attributes : Attributes
deriving BEq, Inhabited

/-- A unit of work. -/
structure Span where
  traceId : String
  spanId : String
  parentSpanId : String
  name : String
  kind : SpanKind
  start : UInt64
  stop : UInt64
  attributes : Attributes
  events : List Event
  status : Status
deriving BEq, Inhabited

/-- The instrumentation that made a group of spans. -/
structure Scope where
  name : String
  version : String
deriving BEq, Inhabited

/-- The spans of one instrumentation scope. -/
structure ScopeSpans where
  scope : Scope
  spans : List Span
deriving BEq, Inhabited

/-- What emits spans. -/
structure Resource where
  attributes : Attributes
deriving BEq, Inhabited

/-- The spans of one resource. -/
structure ResourceSpans where
  resource : Resource
  scopes : List ScopeSpans
deriving BEq, Inhabited

/-- One request end to end. -/
structure Trace where
  resources : List ResourceSpans
deriving BEq, Inhabited

namespace SpanKind

def all : List SpanKind := [unspecified, internal, server, client, producer, consumer]

def code : SpanKind → Int
  | unspecified => 0
  | internal => 1
  | server => 2
  | client => 3
  | producer => 4
  | consumer => 5

def name : SpanKind → String
  | unspecified => "Unspecified"
  | internal => "Internal"
  | server => "Server"
  | client => "Client"
  | producer => "Producer"
  | consumer => "Consumer"

end SpanKind

namespace StatusCode

def all : List StatusCode := [unset, ok, error]

def code : StatusCode → Int
  | unset => 0
  | ok => 1
  | error => 2

def name : StatusCode → String
  | unset => "Unset"
  | ok => "Ok"
  | error => "Error"

end StatusCode

end TraceSearch
