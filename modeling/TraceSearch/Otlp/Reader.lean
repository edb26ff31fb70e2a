import TraceSearch.Json.Record
import TraceSearch.Trace.Basic

/-!
# Reading OTLP documents

A trace is read from a value in the OTLP JSON encoding. Every field has a default except the key and
the value of an attribute. Times and integers may be numbers or strings of digits, and kinds and
status codes numbers or names, whose letters may be of either case after the standard stem.

Source: `Trace`, `Span`, `KeyValue`, `EnumRepr`, `IntRepr`, `unix_nanos` and `int_value`; the
decoders that serde derives for these types, in the order of their errors.
-/

namespace TraceSearch.Otlp

open Json (Mismatch RecordField)

/-- An integer code or a name, each looked up in its way. -/
def decodeEnum {α : Type} (ofCode : Int → Option α) (ofName : String → Option α)
    (unknown : Mismatch) (j : Json) : Except Mismatch α :=
  let choose (found : Option α) : Except Mismatch α :=
    match found with
    | some x => .ok x
    | none => .error unknown
  match j with
  | .number (.integer n) =>
    if Decimal.Range.signed64.contains n then choose (ofCode n) else .error (.noVariant "EnumRepr")
  | .string s => choose (ofName s)
  | _ => .error (.noVariant "EnumRepr")

/-- A name without a stem, if it starts with it, in capitals. -/
def bareName (stem name : String) : String :=
  let chars := name.toList
  let chars := if stem.toList.isPrefixOf chars then chars.drop stem.length else chars
  String.ofList (chars.map Char.toUpper)

def kindName (k : SpanKind) : String := String.ofList (k.name.toList.map Char.toUpper)

def statusName (c : StatusCode) : String := String.ofList (c.name.toList.map Char.toUpper)

def kindOfCode? (n : Int) : Option SpanKind := SpanKind.all.find? fun k => k.code == n

def kindOfName? (name : String) : Option SpanKind :=
  SpanKind.all.find? fun k => kindName k == bareName "SPAN_KIND_" name

def statusOfCode? (n : Int) : Option StatusCode := StatusCode.all.find? fun c => c.code == n

def statusOfName? (name : String) : Option StatusCode :=
  StatusCode.all.find? fun c => statusName c == bareName "STATUS_CODE_" name

def decodeKind : Json → Except Mismatch SpanKind :=
  decodeEnum kindOfCode? kindOfName? .unknownSpanKind

def decodeStatusCode : Json → Except Mismatch StatusCode :=
  decodeEnum statusOfCode? statusOfName? .unknownStatusCode

def decodeTime (j : Json) : Except Mismatch UInt64 :=
  (Json.decodeInteger .unsigned64 j).map fun n => UInt64.ofNat n.toNat

def decodeInt (j : Json) : Except Mismatch Int64 :=
  (Json.decodeInteger .signed64 j).map Int64.ofInt

/-- The forms of an attribute value, in the order messages list them. -/
def variants : List String :=
  ["stringValue", "boolValue", "intValue", "doubleValue", "arrayValue", "kvlistValue", "bytesValue"]

/-- The key and value of an attribute of which either may be missing. -/
def completeEntry (key : Option String) (value : Option AttributeValue) :
    Except Mismatch (String × AttributeValue) :=
  match key, value with
  | none, _ => .error (.missingField "key")
  | some _, none => .error (.missingField "value")
  | some k, some v => .ok (k, v)

mutual

/-- An attribute value: an object whose one member names the form. -/
def decodeValue : Json → Except Mismatch AttributeValue
  | .object [(name, content)] => decodeVariant name content
  | .object _ => .error .notSingleMember
  | .string name =>
    if variants.contains name then .error (.wrongType .unitVariant .newtypeVariant)
    else .error (.unknownVariant name variants)
  | j => Json.wrongType .stringOrMap j

def decodeVariant (name : String) (content : Json) : Except Mismatch AttributeValue :=
  if name = "stringValue" then (Json.decodeString content).map .string
  else if name = "boolValue" then (Json.decodeBool content).map .bool
  else if name = "intValue" then (decodeInt content).map .int
  else if name = "doubleValue" then (Json.decodeFloat content).map .double
  else if name = "arrayValue" then (decodeArrayValue content).map .array
  else if name = "kvlistValue" then (decodeKeyValueList content).map .keyValues
  else if name = "bytesValue" then (Json.decodeString content).map .bytes
  else .error (.unknownVariant name variants)

def decodeArrayValue : Json → Except Mismatch (List AttributeValue)
  | .object members => decodeArrayMembers [] members
  | .array [] => .ok []
  | .array [values] => decodeValues values
  | .array (values :: item :: items) =>
    match decodeValues values with
    | .error m => .error m
    | .ok _ => .error (.tooManyElements (values :: item :: items).length)
  | j => Json.wrongType (.record "ArrayValue") j

def decodeArrayMembers (values : List AttributeValue) :
    List (String × Json) → Except Mismatch (List AttributeValue)
  | [] => .ok values
  | (name, value) :: rest =>
    if name = "values" then
      match decodeValues value with
      | .error m => .error m
      | .ok values => decodeArrayMembers values rest
    else decodeArrayMembers values rest

def decodeValues : Json → Except Mismatch (List AttributeValue)
  | .array items => decodeEachValue items
  | j => Json.wrongType .sequence j

def decodeEachValue : List Json → Except Mismatch (List AttributeValue)
  | [] => .ok []
  | item :: rest =>
    match decodeValue item with
    | .error m => .error m
    | .ok v => (decodeEachValue rest).map (v :: ·)

def decodeKeyValueList : Json → Except Mismatch (List (String × AttributeValue))
  | .object members => decodeListMembers [] members
  | .array [] => .ok []
  | .array [values] => decodeEntries values
  | .array (values :: item :: items) =>
    match decodeEntries values with
    | .error m => .error m
    | .ok _ => .error (.tooManyElements (values :: item :: items).length)
  | j => Json.wrongType (.record "KeyValueList") j

def decodeListMembers (entries : List (String × AttributeValue)) :
    List (String × Json) → Except Mismatch (List (String × AttributeValue))
  | [] => .ok entries
  | (name, value) :: rest =>
    if name = "values" then
      match decodeEntries value with
      | .error m => .error m
      | .ok entries => decodeListMembers entries rest
    else decodeListMembers entries rest

def decodeEntries : Json → Except Mismatch (List (String × AttributeValue))
  | .array items => decodeEachEntry items
  | j => Json.wrongType .sequence j

def decodeEachEntry : List Json → Except Mismatch (List (String × AttributeValue))
  | [] => .ok []
  | item :: rest =>
    match decodeEntry item with
    | .error m => .error m
    | .ok entry => (decodeEachEntry rest).map (entry :: ·)

/-- A keyed value, whose two fields have no defaults. -/
def decodeEntry : Json → Except Mismatch (String × AttributeValue)
  | .object members => decodeEntryMembers none none members
  | .array [] => .error (.tooFewElements 0 "KeyValue" 2)
  | .array [key] =>
    match Json.decodeString key with
    | .error m => .error m
    | .ok _ => .error (.tooFewElements 1 "KeyValue" 2)
  | .array (key :: value :: items) =>
    match Json.decodeString key, decodeValue value with
    | .error m, _ => .error m
    | .ok _, .error m => .error m
    | .ok k, .ok v =>
      if items.isEmpty then .ok (k, v) else .error (.tooManyElements (items.length + 2))
  | j => Json.wrongType (.record "KeyValue") j

def decodeEntryMembers (key : Option String) (value : Option AttributeValue) :
    List (String × Json) → Except Mismatch (String × AttributeValue)
  | [] => completeEntry key value
  | (name, content) :: rest =>
    if name = "key" then
      match Json.decodeString content with
      | .error m => .error m
      | .ok k => decodeEntryMembers (some k) value rest
    else if name = "value" then
      match decodeValue content with
      | .error m => .error m
      | .ok v => decodeEntryMembers key (some v) rest
    else decodeEntryMembers key value rest

end

/-- Attributes, as they are listed. -/
def decodeAttributes (j : Json) : Except Mismatch Attributes := (decodeEntries j).map Attributes.mk

def statusFields : List (RecordField Status) :=
  [.of "message" Json.decodeString fun s x => { s with message := x },
   .of "code" decodeStatusCode fun s x => { s with code := x }]

def decodeStatus : Json → Except Mismatch Status :=
  Json.decodeRecord "Status" statusFields default

def eventFields : List (RecordField Event) :=
  [.of "timeUnixNano" decodeTime fun e x => { e with time := x },
   .of "name" Json.decodeString fun e x => { e with name := x },
   .of "attributes" decodeAttributes fun e x => { e with attributes := x }]

def decodeEvent : Json → Except Mismatch Event :=
  Json.decodeRecord "Event" eventFields default

def spanFields : List (RecordField Span) :=
  [.of "traceId" Json.decodeString fun s x => { s with traceId := x },
   .of "spanId" Json.decodeString fun s x => { s with spanId := x },
   .of "parentSpanId" Json.decodeString fun s x => { s with parentSpanId := x },
   .of "name" Json.decodeString fun s x => { s with name := x },
   .of "kind" decodeKind fun s x => { s with kind := x },
   .of "startTimeUnixNano" decodeTime fun s x => { s with start := x },
   .of "endTimeUnixNano" decodeTime fun s x => { s with stop := x },
   .of "attributes" decodeAttributes fun s x => { s with attributes := x },
   .of "events" (Json.decodeArray decodeEvent) fun s x => { s with events := x },
   .of "status" decodeStatus fun s x => { s with status := x }]

def decodeSpan : Json → Except Mismatch Span :=
  Json.decodeRecord "Span" spanFields default

def scopeFields : List (RecordField Scope) :=
  [.of "name" Json.decodeString fun s x => { s with name := x },
   .of "version" Json.decodeString fun s x => { s with version := x }]

def decodeScope : Json → Except Mismatch Scope :=
  Json.decodeRecord "Scope" scopeFields default

def scopeSpansFields : List (RecordField ScopeSpans) :=
  [.of "scope" decodeScope fun s x => { s with scope := x },
   .of "spans" (Json.decodeArray decodeSpan) fun s x => { s with spans := x }]

def decodeScopeSpans : Json → Except Mismatch ScopeSpans :=
  Json.decodeRecord "ScopeSpans" scopeSpansFields default

def resourceFields : List (RecordField Resource) :=
  [.of "attributes" decodeAttributes fun _ x => ⟨x⟩]

def decodeResource : Json → Except Mismatch Resource :=
  Json.decodeRecord "Resource" resourceFields default

def resourceSpansFields : List (RecordField ResourceSpans) :=
  [.of "resource" decodeResource fun r x => { r with resource := x },
   .of "scopeSpans" (Json.decodeArray decodeScopeSpans) fun r x => { r with scopes := x }]

def decodeResourceSpans : Json → Except Mismatch ResourceSpans :=
  Json.decodeRecord "ResourceSpans" resourceSpansFields default

def traceFields : List (RecordField Trace) :=
  [.of "resourceSpans" (Json.decodeArray decodeResourceSpans) fun _ x => ⟨x⟩]

def decodeTrace : Json → Except Mismatch Trace :=
  Json.decodeRecord "Trace" traceFields default

end TraceSearch.Otlp
