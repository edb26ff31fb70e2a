import TraceSearch.Instant.Calendar
import TraceSearch.Trace.View

/-!
# The synthetic corpus

Traces for demonstrations rotate through three stories, one second apart from 2024-01-01T12:00:00Z
on: a checkout whose payment fails, a search over a fast database, and a catalogue page over a slow
one. Every span has a resource of its own, and both name its service. Ids follow from the position
of the trace in the corpus and of the span in the trace, in 64 bits.

Source: `base_time`, `generate_traces`, `checkout`, `search`, `catalog`, `Story::span`,
`Story::finish` and `unix_nanos`.
-/

namespace TraceSearch.Corpus.Synthetic

/-- A span of a story: times are milliseconds after the story's start, the parent is the position of
an earlier span. -/
structure Scene where
  service : String
  name : String
  parent : Option Nat
  kind : SpanKind
  offset : Nat
  length : Nat
  status : Status
  attributes : List (String × AttributeValue)

def checkout : List Scene :=
  [{ service := "frontend", name := "POST /checkout", parent := none, kind := .server, offset := 0,
     length := 300, status := default, attributes := [("http.status_code", .int 402)] },
   { service := "payment-svc", name := "Authorize", parent := some 0, kind := .client, offset := 50,
     length := 150, status := ⟨"insufficient_funds", .error⟩,
     attributes := [("http.status_code", .int 402)] }]

def search : List Scene :=
  [{ service := "frontend", name := "GET /search", parent := none, kind := .server, offset := 0,
     length := 50, status := default,
     attributes := [("http.method", .string "GET"), ("http.status_code", .int 200)] },
   { service := "search-db", name := "SELECT products", parent := some 0, kind := .client,
     offset := 5, length := 20, status := default,
     attributes := [("db.system", .string "postgres")] }]

def catalog : List Scene :=
  [{ service := "frontend", name := "GET /items", parent := none, kind := .server, offset := 0,
     length := 100, status := default,
     attributes := [("http.method", .string "GET"), ("http.status_code", .int 200)] },
   { service := "catalog-svc", name := "GetItems", parent := some 0, kind := .server, offset := 10,
     length := 80, status := default, attributes := [] },
   { service := "catalog-db", name := "FETCH", parent := some 1, kind := .client, offset := 20,
     length := 60, status := default, attributes := [("slow_query", .bool true)] }]

def story (index : Nat) : List Scene :=
  match index % 3 with
  | 0 => checkout
  | 1 => search
  | _ => catalog

/-- A number in lower-case hexadecimal, padded with zeros. -/
def hex (width n : Nat) : String := String.ofList ((Nat.toDigits 16 n).leftpad width '0')

def traceId (index : Nat) : String := hex 32 (index + 1)

/-- The number of a span: that of its trace above eight bits for its own. -/
def spanNumber (index position : Nat) : UInt64 :=
  (UInt64.ofNat index + 1) <<< 8 ||| (UInt64.ofNat position + 1)

/-- The id of a span by the index of its trace and its position there. -/
def spanId (index position : Nat) : String := hex 16 (spanNumber index position).toNat

/-- The start of the first story, 2024-01-01T12:00:00Z. -/
def baseTime : Instant := ⟨(⟨2024, 1, 1⟩ : Date).toDays * 86400 + 12 * 3600, 0⟩

/-- The start of the story at an index in nanoseconds since the epoch. -/
def storyStart (index : Nat) : Int := baseTime.unixNanos + index * 1000000000

/-- The timestamp of nanoseconds since the epoch; before it and beyond 63 bits there is none, which
counts as zero. -/
def timestamp (nanos : Int) : UInt64 :=
  if Duration.fits64 nanos && decide (0 ≤ nanos) then UInt64.ofNat nanos.toNat else 0

/-- The attributes of a span: the name of its service and then those of its scene. -/
def Scene.spanAttributes (scene : Scene) : Attributes :=
  Attributes.ofList ((serviceKey, .string scene.service) :: scene.attributes)

/-- A scene as the span at a position of the trace at an index, under the span with an id. -/
def spanOf (index position : Nat) (parentId : String) (scene : Scene) : Span :=
  let start := storyStart index + scene.offset * 1000000
  { traceId := traceId index
    spanId := spanId index position
    parentSpanId := parentId
    name := scene.name
    kind := scene.kind
    start := timestamp start
    stop := timestamp (start + scene.length * 1000000)
    attributes := scene.spanAttributes
    events := []
    status := scene.status }

/-- A span of a story with the service whose resource it will stand under. -/
structure Told where
  service : String
  span : Span

/-- Append a scene to the spans that were told before it, one of which is its parent. -/
def tell (index : Nat) (told : List Told) (scene : Scene) : List Told :=
  let parent? := scene.parent.bind (told[·]?)
  let parentId := (parent?.map fun parent => parent.span.spanId).getD ""
  told ++ [⟨scene.service, spanOf index told.length parentId scene⟩]

def Told.resourceSpans (t : Told) : ResourceSpans :=
  { resource := ⟨Attributes.empty.putString serviceKey t.service⟩
    scopes := [⟨default, [t.span]⟩] }

def trace (index : Nat) : Trace :=
  ⟨((story index).foldl (tell index) []).map Told.resourceSpans⟩

/-- The first `n` traces. -/
def generate (n : Nat) : List Trace := (List.range n).map trace

end TraceSearch.Corpus.Synthetic
