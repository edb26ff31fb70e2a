import TraceSearch.Decimal.Integer
import TraceSearch.Json.Literal
import TraceSearch.Text.Segments
import TraceSearch.Text.Utf8
import TraceSearch.Uri.Reader

/-!
# Routes

The paths a server answers and the methods it answers them for. The target of a request is a URI, of
which only the path counts. A path is compared segment by segment as it stands; only segments that
name a position are decoded, and a position that is no number makes a bad request rather than an
unknown path.

Source: `router`; axum's routes, methods and percent decoding.
-/

namespace TraceSearch.Server

/-- The method of a request. -/
inductive Method where
  | get | head | post | other
deriving DecidableEq

/-- The method of a name, which is written in capitals. -/
def Method.ofName (name : String) : Method :=
  if name = "GET" then get
  else if name = "HEAD" then head
  else if name = "POST" then post
  else other

/-- What a path asks for; positions are still as written. -/
inductive Route where
  | health
  | search
  | explainTrace (trace : List Char)
  | explainSpan (trace span : List Char)
deriving DecidableEq

namespace Route

def ofSegments : List (List Char) → Option Route
  | [[], name] =>
    if name = "healthz".toList then some health
    else if name = "search".toList then some search
    else none
  | [[], traces, trace, verb] =>
    if traces = "traces".toList ∧ verb = "explain".toList then some (explainTrace trace) else none
  | [[], traces, trace, spans, span, verb] =>
    if traces = "traces".toList ∧ spans = "spans".toList ∧ verb = "explain".toList then
      some (explainSpan trace span)
    else none
  | _ => none

def ofTarget (target : String) : Option Route :=
  match Uri.read target with
  | .ok uri => ofSegments (Text.segments uri.path.toList)
  | .error _ => none

def allows : Route → Method → Bool
  | search, m => m == .post
  | _, m => m == .get || m == .head

end Route

/-- The bytes of a segment, its percent signs decoded where two hexadecimal digits follow. -/
def percentDecoded : List Char → List UInt8
  | [] => []
  | '%' :: a :: b :: rest =>
    match Json.hexValue? a, Json.hexValue? b with
    | some x, some y => (16 * x + y).toUInt8 :: percentDecoded rest
    | _, _ => '%'.toNat.toUInt8 :: percentDecoded (a :: b :: rest)
  | c :: rest => String.utf8EncodeChar c ++ percentDecoded rest

def positionOf (segment : List Char) : Option Nat :=
  match Text.ofUtf8? ⟨(percentDecoded segment).toArray⟩ with
  | none => none
  | some text =>
    match Decimal.Range.unsigned64.read text with
    | .ok n => some n.toNat
    | .error _ => none

end TraceSearch.Server
