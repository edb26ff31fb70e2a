import Mathlib.Data.List.Forall2
import TraceSearch.Proofs.Otlp.Trace

/-!
# Shapes of OTLP values

Every value of a document stands for something: a span, a list of events, a time. Its shape says
what it is decoded as and, for a record, which fields it has. Main fact: `Shape.reading`, every
record, down to the key and value of an attribute, is read field by field.
-/

namespace TraceSearch.Otlp

open Json (Mismatch RecordField Commute)

/-- What a value of a document stands for. -/
inductive Shape where
  | trace | resourceSpans | resource | scopeSpans | scope | span | event | status
  | keyValue | arrayValue | keyValueList
  | value | text | time | integer | kind | statusCode
  | list (item : Shape)

namespace Shape

/-- What a value of a shape is decoded as. -/
def Value : Shape → Type
  | trace => Trace
  | resourceSpans => ResourceSpans
  | resource => Resource
  | scopeSpans => ScopeSpans
  | scope => Scope
  | span => Span
  | event => Event
  | status => Status
  | keyValue => String × AttributeValue
  | arrayValue => List AttributeValue
  | keyValueList => List (String × AttributeValue)
  | value => AttributeValue
  | text => String
  | time => UInt64
  | integer => Int64
  | kind => SpanKind
  | statusCode => StatusCode
  | list item => List item.Value

def decode : (s : Shape) → Json → Except Mismatch s.Value
  | trace => decodeTrace
  | resourceSpans => decodeResourceSpans
  | resource => decodeResource
  | scopeSpans => decodeScopeSpans
  | scope => decodeScope
  | span => decodeSpan
  | event => decodeEvent
  | status => decodeStatus
  | keyValue => decodeEntry
  | arrayValue => decodeArrayValue
  | keyValueList => decodeKeyValueList
  | value => decodeValue
  | text => Json.decodeString
  | time => decodeTime
  | integer => decodeInt
  | kind => decodeKind
  | statusCode => decodeStatusCode
  | list item => Json.decodeArray item.decode

def default : (s : Shape) → s.Value
  | trace => (Inhabited.default : Trace)
  | resourceSpans => (Inhabited.default : ResourceSpans)
  | resource => (Inhabited.default : Resource)
  | scopeSpans => (Inhabited.default : ScopeSpans)
  | scope => (Inhabited.default : Scope)
  | span => (Inhabited.default : Span)
  | event => (Inhabited.default : Event)
  | status => (Inhabited.default : Status)
  | keyValue => ("", .string "")
  | arrayValue | keyValueList | list _ => []
  | value => AttributeValue.string ""
  | text => ""
  | time => (0 : UInt64)
  | integer => (0 : Int64)
  | kind => SpanKind.unspecified
  | statusCode => StatusCode.unset

/-- The fields of a record in their order, with the shapes of their values. -/
def fields : Shape → List (String × Shape)
  | trace => [("resourceSpans", list resourceSpans)]
  | resourceSpans => [("resource", resource), ("scopeSpans", list scopeSpans)]
  | resource => [("attributes", list keyValue)]
  | scopeSpans => [("scope", scope), ("spans", list span)]
  | scope => [("name", text), ("version", text)]
  | span =>
    [("traceId", text), ("spanId", text), ("parentSpanId", text), ("name", text), ("kind", kind),
      ("startTimeUnixNano", time), ("endTimeUnixNano", time), ("attributes", list keyValue),
      ("events", list event), ("status", status)]
  | event => [("timeUnixNano", time), ("name", text), ("attributes", list keyValue)]
  | status => [("message", text), ("code", statusCode)]
  | keyValue => [("key", text), ("value", value)]
  | arrayValue => [("values", list value)]
  | keyValueList => [("values", list keyValue)]
  | value | text | time | integer | kind | statusCode | list _ => []

/-- The shape of the field of a name. -/
def find? (named : List (String × Shape)) (name : String) : Option Shape :=
  (named.find? fun entry => entry.1 == name).map Prod.snd

theorem find?_cons (entry : String × Shape) (named : List (String × Shape)) (name : String) :
    find? (entry :: named) name = if entry.1 = name then some entry.2 else find? named name := by
  by_cases h : entry.1 = name <;> simp [find?, h]

def IsRecord (s : Shape) : Prop := s.fields ≠ []

/-- Records whose fields all have defaults. -/
def Defaulted (s : Shape) : Prop := s.IsRecord ∧ s ≠ keyValue

end Shape

theorem decodeEachValue_eq_mapM (items : List Json) :
    decodeEachValue items = items.mapM decodeValue := by
  induction items with
  | nil =>
    rw [decodeEachValue]
    rfl
  | cons item rest ih =>
    rw [decodeEachValue, List.mapM_cons, ih]
    cases decodeValue item with
    | error e => rfl
    | ok v => cases rest.mapM decodeValue <;> rfl

theorem decodeEachEntry_eq_mapM (items : List Json) :
    decodeEachEntry items = items.mapM decodeEntry := by
  induction items with
  | nil =>
    rw [decodeEachEntry]
    rfl
  | cons item rest ih =>
    rw [decodeEachEntry, List.mapM_cons, ih]
    cases decodeEntry item with
    | error e => rfl
    | ok entry => cases rest.mapM decodeEntry <;> rfl

theorem decodeValues_eq_decodeArray : decodeValues = Json.decodeArray decodeValue := by
  funext j
  cases j with
  | array items => rw [decodeValues, decodeEachValue_eq_mapM, Json.decodeArray]
  | _ => simp [decodeValues, Json.decodeArray]

theorem decodeEntries_eq_decodeArray : decodeEntries = Json.decodeArray decodeEntry := by
  funext j
  cases j with
  | array items => rw [decodeEntries, decodeEachEntry_eq_mapM, Json.decodeArray]
  | _ => simp [decodeEntries, Json.decodeArray]

/-- A field of a record that holds a value of a shape; where it has a default, the initial record
holds it. -/
def Reads {ρ : Type} (initial : ρ) (defaulted : Prop) (field : RecordField ρ)
    (named : String × Shape) : Prop :=
  field.name = named.1 ∧ ∃ put : ρ → named.2.Value → ρ,
    (∀ r j, field.set r j = (named.2.decode j).map (put r)) ∧
      (defaulted → put initial named.2.default = initial)

section Reads

variable {ρ : Type} {initial : ρ} {defaulted : Prop} {fields : List (RecordField ρ)}
  {named : List (String × Shape)}

theorem reads_of {name : String} {s : Shape} {put : ρ → s.Value → ρ}
    (h : defaulted → put initial s.default = initial) :
    Reads initial defaulted (.of name s.decode put) (name, s) :=
  ⟨rfl, put, fun _ _ => rfl, h⟩

theorem reads_attributes {name : String} {put : ρ → Attributes → ρ}
    (h : put initial (Inhabited.default : Attributes) = initial) :
    Reads initial defaulted (.of name decodeAttributes put) (name, .list .keyValue) := by
  refine ⟨rfl, fun r entries => put r ⟨entries⟩, fun r j => ?_, fun _ => h⟩
  show (decodeAttributes j).map (put r) = (Json.decodeArray decodeEntry j).map _
  rw [decodeAttributes, decodeEntries_eq_decodeArray]
  cases Json.decodeArray decodeEntry j <;> rfl

theorem rel_find? (h : List.Forall₂ (Reads initial defaulted) fields named) (name : String) :
    Option.Rel (fun field s => Reads initial defaulted field (name, s))
      (RecordField.find? fields name) (Shape.find? named name) := by
  induction h with
  | nil => exact .none
  | @cons field entry fields named hreads _ ih =>
    rw [RecordField.find?_cons, Shape.find?_cons, hreads.1]
    split
    · rename_i hname
      subst hname
      exact .some hreads
    · exact ih

theorem rel_getElem? (h : List.Forall₂ (Reads initial defaulted) fields named) (i : Nat) :
    Option.Rel (Reads initial defaulted) fields[i]? named[i]? := by
  induction h generalizing i with
  | nil => exact .none
  | cons hreads _ ih =>
    cases i with
    | zero => exact .some hreads
    | succ i => exact ih i

end Reads

/-- How a record is read: field by field from an initial record, with a last check. -/
structure Reading (shape : Shape) where
  Record : Type
  name : String
  fields : List (RecordField Record)
  initial : Record
  finish : Record → Except Mismatch shape.Value
  decode_iff : ∀ j x, shape.decode j = .ok x ↔
    ∃ r, Json.decodeRecord name fields initial j = .ok r ∧ finish r = .ok x
  commute : fields.Pairwise Commute
  reads : List.Forall₂ (Reads initial shape.Defaulted) fields shape.fields

/-- A shape that is decoded as a record from its default, without a last check. -/
def Reading.ofRecord {shape : Shape} (name : String) (fields : List (RecordField shape.Value))
    (hdecode : ∀ j, shape.decode j = Json.decodeRecord name fields shape.default j)
    (commute : fields.Pairwise Commute)
    (reads : List.Forall₂ (Reads shape.default shape.Defaulted) fields shape.fields) :
    Reading shape where
  Record := shape.Value
  name := name
  fields := fields
  initial := shape.default
  finish := .ok
  decode_iff j x := by simp [hdecode]
  commute := commute
  reads := reads

def valuesFields : List (RecordField (List AttributeValue)) :=
  [.of "values" (Json.decodeArray decodeValue) fun _ x => x]

def entriesFields : List (RecordField (List (String × AttributeValue))) :=
  [.of "values" (Json.decodeArray decodeEntry) fun _ x => x]

/-- The two fields of an attribute, neither of which need be given. -/
def entryFields : List (RecordField (Option String × Option AttributeValue)) :=
  [.of "key" Json.decodeString fun e x => (some x, e.2),
   .of "value" decodeValue fun e x => (e.1, some x)]

theorem decodeArrayMembers_eq_setMembers (values : List AttributeValue)
    (members : List (String × Json)) :
    decodeArrayMembers values members = Json.setMembers valuesFields values members := by
  induction members generalizing values with
  | nil => rw [decodeArrayMembers, Json.setMembers]
  | cons member rest ih =>
    rw [decodeArrayMembers, decodeValues_eq_decodeArray, valuesFields, Json.setMembers_only_cons]
    cases Json.decodeArray decodeValue member.2 <;> simp only [ih, valuesFields]

theorem decodeArrayValue_eq_decodeRecord (j : Json) :
    decodeArrayValue j = Json.decodeRecord "ArrayValue" valuesFields [] j := by
  cases j with
  | object members => rw [decodeArrayValue, decodeArrayMembers_eq_setMembers, Json.decodeRecord]
  | array items =>
    rw [Json.decodeRecord, valuesFields]
    rcases items with _ | ⟨values, _ | ⟨item, items⟩⟩
    · rw [decodeArrayValue, Json.setElements]
    · rw [decodeArrayValue, decodeValues_eq_decodeArray, Json.setElements_only_one]
    · rw [decodeArrayValue, decodeValues_eq_decodeArray, Json.setElements_only_cons]
      cases Json.decodeArray decodeValue values <;> rfl
  | _ => simp [decodeArrayValue, Json.decodeRecord]

theorem decodeListMembers_eq_setMembers (entries : List (String × AttributeValue))
    (members : List (String × Json)) :
    decodeListMembers entries members = Json.setMembers entriesFields entries members := by
  induction members generalizing entries with
  | nil => rw [decodeListMembers, Json.setMembers]
  | cons member rest ih =>
    rw [decodeListMembers, decodeEntries_eq_decodeArray, entriesFields, Json.setMembers_only_cons]
    cases Json.decodeArray decodeEntry member.2 <;> simp only [ih, entriesFields]

theorem decodeKeyValueList_eq_decodeRecord (j : Json) :
    decodeKeyValueList j = Json.decodeRecord "KeyValueList" entriesFields [] j := by
  cases j with
  | object members => rw [decodeKeyValueList, decodeListMembers_eq_setMembers, Json.decodeRecord]
  | array items =>
    rw [Json.decodeRecord, entriesFields]
    rcases items with _ | ⟨values, _ | ⟨item, items⟩⟩
    · rw [decodeKeyValueList, Json.setElements]
    · rw [decodeKeyValueList, decodeEntries_eq_decodeArray, Json.setElements_only_one]
    · rw [decodeKeyValueList, decodeEntries_eq_decodeArray, Json.setElements_only_cons]
      cases Json.decodeArray decodeEntry values <;> rfl
  | _ => simp [decodeKeyValueList, Json.decodeRecord]

theorem decodeEntryMembers_iff {key : Option String} {value : Option AttributeValue}
    {members : List (String × Json)} {entry : String × AttributeValue} :
    decodeEntryMembers key value members = .ok entry ↔
      ∃ r, Json.setMembers entryFields (key, value) members = .ok r ∧
        completeEntry r.1 r.2 = .ok entry := by
  induction members generalizing key value with
  | nil => simp [decodeEntryMembers, Json.setMembers]
  | cons member rest ih =>
    obtain ⟨name, content⟩ := member
    rw [decodeEntryMembers, Json.setMembers]
    by_cases hkey : name = "key"
    · subst hkey
      have hfind : RecordField.find? entryFields "key" =
          some (.of "key" Json.decodeString fun e x => (some x, e.2)) := rfl
      rw [hfind, if_pos rfl]
      cases hcontent : Json.decodeString content with
      | error e => simp [RecordField.of, hcontent, Except.map]
      | ok k => simpa only [RecordField.of, hcontent, Except.map] using ih
    rw [if_neg hkey]
    by_cases hvalue : name = "value"
    · subst hvalue
      have hfind : RecordField.find? entryFields "value" =
          some (.of "value" decodeValue fun e x => (e.1, some x)) := rfl
      rw [hfind, if_pos rfl]
      cases hcontent : decodeValue content with
      | error e => simp [RecordField.of, hcontent, Except.map]
      | ok v => simpa only [RecordField.of, hcontent, Except.map] using ih
    · have hfind : RecordField.find? entryFields name = none := by
        simp [entryFields, RecordField.find?, RecordField.of, Ne.symm hkey, Ne.symm hvalue]
      rw [hfind, if_neg hvalue]
      exact ih

theorem decodeEntry_iff {j : Json} {entry : String × AttributeValue} :
    decodeEntry j = .ok entry ↔
      ∃ r, Json.decodeRecord "KeyValue" entryFields (none, none) j = .ok r ∧
        completeEntry r.1 r.2 = .ok entry := by
  cases j with
  | object members => rw [decodeEntry, decodeEntryMembers_iff, Json.decodeRecord]
  | array items =>
    rw [Json.decodeRecord, entryFields]
    rcases items with _ | ⟨key, _ | ⟨value, items⟩⟩
    · simp [decodeEntry, Json.setElements, completeEntry]
    · cases hkey : Json.decodeString key <;>
        simp [decodeEntry, Json.setElements, RecordField.of, hkey, Except.map, completeEntry]
    · cases hkey : Json.decodeString key <;> cases hvalue : decodeValue value <;> cases items <;>
        simp [decodeEntry, Json.setElements, RecordField.of, hkey, hvalue, Except.map,
          completeEntry]
  | _ => simp [decodeEntry, Json.decodeRecord, Json.wrongType]

/-- Every record is read field by field. -/
def Shape.reading : (s : Shape) → s.IsRecord → Reading s
  | .trace, _ =>
    .ofRecord "Trace" traceFields (fun _ => rfl) (List.pairwise_singleton _ _)
      (.cons (reads_of fun _ => rfl) .nil)
  | .resourceSpans, _ =>
    .ofRecord "ResourceSpans" resourceSpansFields (fun _ => rfl) commute_resourceSpansFields
      (.cons (reads_of fun _ => rfl) <| .cons (reads_of fun _ => rfl) .nil)
  | .resource, _ =>
    .ofRecord "Resource" resourceFields (fun _ => rfl) (List.pairwise_singleton _ _)
      (.cons (reads_attributes rfl) .nil)
  | .scopeSpans, _ =>
    .ofRecord "ScopeSpans" scopeSpansFields (fun _ => rfl) commute_scopeSpansFields
      (.cons (reads_of fun _ => rfl) <| .cons (reads_of fun _ => rfl) .nil)
  | .scope, _ =>
    .ofRecord "Scope" scopeFields (fun _ => rfl) commute_scopeFields
      (.cons (reads_of fun _ => rfl) <| .cons (reads_of fun _ => rfl) .nil)
  | .span, _ =>
    .ofRecord "Span" spanFields (fun _ => rfl) commute_spanFields
      (.cons (reads_of fun _ => rfl) <| .cons (reads_of fun _ => rfl) <|
        .cons (reads_of fun _ => rfl) <| .cons (reads_of fun _ => rfl) <|
        .cons (reads_of fun _ => rfl) <| .cons (reads_of fun _ => rfl) <|
        .cons (reads_of fun _ => rfl) <| .cons (reads_attributes rfl) <|
        .cons (reads_of fun _ => rfl) <| .cons (reads_of fun _ => rfl) .nil)
  | .event, _ =>
    .ofRecord "Event" eventFields (fun _ => rfl) commute_eventFields
      (.cons (reads_of fun _ => rfl) <| .cons (reads_of fun _ => rfl) <|
        .cons (reads_attributes rfl) .nil)
  | .status, _ =>
    .ofRecord "Status" statusFields (fun _ => rfl) commute_statusFields
      (.cons (reads_of fun _ => rfl) <| .cons (reads_of fun _ => rfl) .nil)
  | .arrayValue, _ =>
    .ofRecord "ArrayValue" valuesFields decodeArrayValue_eq_decodeRecord
      (List.pairwise_singleton _ _) (.cons (reads_of fun _ => rfl) .nil)
  | .keyValueList, _ =>
    .ofRecord "KeyValueList" entriesFields decodeKeyValueList_eq_decodeRecord
      (List.pairwise_singleton _ _) (.cons (reads_of fun _ => rfl) .nil)
  | .keyValue, _ =>
    { Record := Option String × Option AttributeValue
      name := "KeyValue"
      fields := entryFields
      initial := (none, none)
      finish := fun r => completeEntry r.1 r.2
      decode_iff := fun _ _ => decodeEntry_iff
      commute := by simp [entryFields, Json.commute_of]
      reads := .cons (reads_of fun h => absurd rfl h.2) <|
        .cons (reads_of fun h => absurd rfl h.2) .nil }
  | .value, h | .text, h | .time, h | .integer, h | .kind, h | .statusCode, h | .list _, h =>
    absurd rfl h

end TraceSearch.Otlp
