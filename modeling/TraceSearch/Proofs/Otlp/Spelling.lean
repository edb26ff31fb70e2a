import TraceSearch.Proofs.Otlp.Shape

/-!
# Spellings of a document

A document may be spelled in many ways: with members of unknown names, with fields that are given
their default or left out, with integers as numbers or as texts, and with kinds and status codes as
numbers or names. Main fact: `decodeTrace_respelled`, all spellings are decoded as the same trace.
-/

namespace TraceSearch.Otlp

open Json (Mismatch RecordField)
open Decimal (Range)

/-- A text that names something: by its name, whose letters may be of either case, after a stem or
without it. -/
def Names (stem name text : String) : Prop :=
  ∃ part : String, (text = part ∨ text = stem ++ part) ∧
    part.toList.map Char.toUpper = name.toList

/-- The forms of an attribute value whose content may be spelled in more than one way. -/
def contents : List (String × Shape) :=
  [("intValue", .integer), ("arrayValue", .arrayValue), ("kvlistValue", .keyValueList)]

/-- Two spellings of what stands for a value of a shape. They may differ in members of unknown
names, in fields that are given their default or left out, in integers as numbers or as decimal
texts, and in kinds and status codes as numbers or names; and so may the values inside them. -/
inductive Respelled : Shape → Json → Json → Prop where
  | refl {shape : Shape} (j : Json) : Respelled shape j j
  | symm {shape : Shape} {j k : Json} (h : Respelled shape j k) : Respelled shape k j
  | trans {shape : Shape} {j k l : Json} (h : Respelled shape j k) (h' : Respelled shape k l) :
    Respelled shape j l
  | unknown {shape : Shape} (hshape : shape.IsRecord) {name : String}
    (hname : Shape.find? shape.fields name = none) (value : Json)
    (before after : List (String × Json)) :
    Respelled shape (.object (before ++ after)) (.object (before ++ (name, value) :: after))
  | defaulted {shape field : Shape} (hshape : shape.Defaulted) {name : String}
    (hfield : Shape.find? shape.fields name = some field) {value : Json}
    (hvalue : field.decode value = .ok field.default) (before after : List (String × Json))
    (hname : name ∉ before.map Prod.fst) :
    Respelled shape (.object (before ++ after)) (.object (before ++ (name, value) :: after))
  | time (n : Int) : Respelled .time (.int n) (.string (Decimal.integer n))
  | integer (n : Int) : Respelled .integer (.int n) (.string (Decimal.integer n))
  | kind (k : SpanKind) {text : String} (h : Names "SPAN_KIND_" (kindName k) text) :
    Respelled .kind (.int k.code) (.string text)
  | statusCode (c : StatusCode) {text : String} (h : Names "STATUS_CODE_" (statusName c) text) :
    Respelled .statusCode (.int c.code) (.string text)
  | member {shape field : Shape} {name : String}
    (hfield : Shape.find? shape.fields name = some field) {j k : Json} (h : Respelled field j k)
    (before after : List (String × Json)) :
    Respelled shape (.object (before ++ (name, j) :: after))
      (.object (before ++ (name, k) :: after))
  | element {shape field : Shape} {name : String} {items : List Json}
    (hfield : shape.fields[items.length]? = some (name, field)) {j k : Json}
    (h : Respelled field j k) (others : List Json) :
    Respelled shape (.array (items ++ j :: others)) (.array (items ++ k :: others))
  | item {shape : Shape} {j k : Json} (h : Respelled shape j k) (items others : List Json) :
    Respelled (.list shape) (.array (items ++ j :: others)) (.array (items ++ k :: others))
  | content {name : String} {shape : Shape} (hname : (name, shape) ∈ contents) {j k : Json}
    (h : Respelled shape j k) : Respelled .value (.object [(name, j)]) (.object [(name, k)])

theorem decodeInteger_iff {r : Range} {n m : Int} :
    Json.decodeInteger r (.int n) = .ok m ↔
      Json.decodeInteger r (.string (Decimal.integer n)) = .ok m := by
  have htext : Json.decodeInteger r (.string (Decimal.integer n)) = .ok m ↔
      r.contains n = true ∧ m = n := by
    rw [← read_integer_iff, Json.decodeInteger]
    cases r.read (Decimal.integer n) <;> simp [Except.mapError]
  rw [htext, Json.int, Json.decodeInteger]
  split
  · rename_i hn
    simp [hn, eq_comm]
  · rename_i hn
    simp [hn]

theorem bareName_of_names {stem name text : String} (h : Names stem name text)
    (hstem : ¬ stem.toList.map Char.toUpper <+: name.toList) : bareName stem text = name := by
  obtain ⟨part, htext, hpart⟩ := h
  unfold bareName
  rcases htext with rfl | rfl
  · have hbare : stem.toList.isPrefixOf text.toList = false := by
      rw [Bool.eq_false_iff, ne_eq, List.isPrefixOf_iff_prefix]
      exact fun hp => hstem (hpart ▸ hp.map Char.toUpper)
    simp [hbare, hpart]
  · have hbare : stem.toList.isPrefixOf (stem ++ part).toList = true := by
      rw [List.isPrefixOf_iff_prefix, String.toList_append]
      exact List.prefix_append _ _
    have hdrop : (stem ++ part).toList.drop stem.length = part.toList := by
      rw [String.toList_append, ← String.length_toList, List.drop_left]
    simp only [hbare, if_true, hdrop, hpart, String.ofList_toList]

theorem decodeKind_of_names {k : SpanKind} {text : String}
    (h : Names "SPAN_KIND_" (kindName k) text) : decodeKind (.string text) = .ok k := by
  have hbare : bareName "SPAN_KIND_" text = kindName k :=
    bareName_of_names h (by cases k <;> decide)
  simp only [decodeKind, decodeEnum, kindOfName?, hbare]
  cases k <;> rfl

theorem decodeStatusCode_of_names {c : StatusCode} {text : String}
    (h : Names "STATUS_CODE_" (statusName c) text) : decodeStatusCode (.string text) = .ok c := by
  have hbare : bareName "STATUS_CODE_" text = statusName c :=
    bareName_of_names h (by cases c <;> decide)
  simp only [decodeStatusCode, decodeEnum, statusOfName?, hbare]
  cases c <;> rfl

theorem decodeTime_iff {n : Int} {t : UInt64} :
    decodeTime (.int n) = .ok t ↔ decodeTime (.string (Decimal.integer n)) = .ok t := by
  simp only [decodeTime, Json.map_eq_ok_iff, decodeInteger_iff]

theorem decodeInt_iff {n : Int} {m : Int64} :
    decodeInt (.int n) = .ok m ↔ decodeInt (.string (Decimal.integer n)) = .ok m := by
  simp only [decodeInt, Json.map_eq_ok_iff, decodeInteger_iff]

theorem isRecord_of_find? {shape field : Shape} {name : String}
    (h : Shape.find? shape.fields name = some field) : shape.IsRecord := by
  intro hfields
  rw [hfields] at h
  cases h

theorem isRecord_of_getElem? {shape : Shape} {i : Nat} {entry : String × Shape}
    (h : shape.fields[i]? = some entry) : shape.IsRecord := by
  intro hfields
  rw [hfields] at h
  cases h

section Step

variable {shape field : Shape} {name : String} {j k : Json} {before after : List (String × Json)}

theorem Reading.decode_congr (reading : Reading shape)
    (h : ∀ r, Json.decodeRecord reading.name reading.fields reading.initial j = .ok r ↔
      Json.decodeRecord reading.name reading.fields reading.initial k = .ok r) (x : shape.Value) :
    shape.decode j = .ok x ↔ shape.decode k = .ok x := by
  rw [reading.decode_iff, reading.decode_iff]
  simp only [h]

theorem decode_unknown (hshape : shape.IsRecord) (hname : Shape.find? shape.fields name = none)
    (x : shape.Value) :
    shape.decode (.object (before ++ after)) = .ok x ↔
      shape.decode (.object (before ++ (name, j) :: after)) = .ok x := by
  have reading := shape.reading hshape
  have hfind : RecordField.find? reading.fields name = none := by
    have hrel := rel_find? reading.reads name
    rw [hname] at hrel
    cases h : RecordField.find? reading.fields name with
    | none => rfl
    | some f =>
      rw [h] at hrel
      cases hrel
  refine reading.decode_congr (fun r => ?_) x
  exact (Json.setMembers_unknown hfind).symm

/-- The field of a record in which a value of a shape is read. -/
theorem Reading.exists_field (reading : Reading shape)
    (hfield : Shape.find? shape.fields name = some field) :
    ∃ f, RecordField.find? reading.fields name = some f ∧
      Reads reading.initial shape.Defaulted f (name, field) := by
  have hrel := rel_find? reading.reads name
  rw [hfield] at hrel
  cases h : RecordField.find? reading.fields name with
  | none =>
    rw [h] at hrel
    cases hrel
  | some f =>
    rw [h] at hrel
    cases hrel with
    | some hreads => exact ⟨f, rfl, hreads⟩

theorem decode_defaulted (hshape : shape.Defaulted)
    (hfield : Shape.find? shape.fields name = some field)
    (hvalue : field.decode j = .ok field.default) (hname : name ∉ before.map Prod.fst)
    (x : shape.Value) :
    shape.decode (.object (before ++ after)) = .ok x ↔
      shape.decode (.object (before ++ (name, j) :: after)) = .ok x := by
  have reading := shape.reading hshape.1
  obtain ⟨f, hfind, -, put, hset, hdefault⟩ := reading.exists_field hfield
  have hidle : Json.setMember reading.fields reading.initial (name, j) = .ok reading.initial := by
    rw [Json.setMember, hfind]
    show f.set reading.initial j = _
    rw [hset, hvalue, Except.map, hdefault hshape]
  refine reading.decode_congr (fun r => ?_) x
  exact (Json.setMembers_idle reading.commute hname hidle).symm

theorem Reads.set_congr {ρ : Type} {initial : ρ} {defaulted : Prop} {f : RecordField ρ}
    (hreads : Reads initial defaulted f (name, field))
    (h : ∀ x, field.decode j = .ok x ↔ field.decode k = .ok x) (r s : ρ) :
    f.set r j = .ok s ↔ f.set r k = .ok s := by
  obtain ⟨-, put, hset, -⟩ := hreads
  simp only [hset, Json.map_eq_ok_iff, h]

theorem decode_member (hfield : Shape.find? shape.fields name = some field)
    (h : ∀ x, field.decode j = .ok x ↔ field.decode k = .ok x) (x : shape.Value) :
    shape.decode (.object (before ++ (name, j) :: after)) = .ok x ↔
      shape.decode (.object (before ++ (name, k) :: after)) = .ok x := by
  have reading := shape.reading (isRecord_of_find? hfield)
  obtain ⟨f, hfind, hreads⟩ := reading.exists_field hfield
  have hset : ∀ r s, Json.setMember reading.fields r (name, j) = .ok s ↔
      Json.setMember reading.fields r (name, k) = .ok s := by
    simp only [Json.setMember, hfind]
    exact hreads.set_congr h
  refine reading.decode_congr (fun r => ?_) x
  exact Json.setMembers_congr hset

theorem decode_element {items others : List Json}
    (hfield : shape.fields[items.length]? = some (name, field))
    (h : ∀ x, field.decode j = .ok x ↔ field.decode k = .ok x) (x : shape.Value) :
    shape.decode (.array (items ++ j :: others)) = .ok x ↔
      shape.decode (.array (items ++ k :: others)) = .ok x := by
  have reading := shape.reading (isRecord_of_getElem? hfield)
  have hlength : (items ++ j :: others).length = (items ++ k :: others).length := by simp
  have hrel := rel_getElem? reading.reads items.length
  rw [hfield] at hrel
  refine reading.decode_congr (fun r => ?_) x
  rw [Json.decodeRecord, Json.decodeRecord, hlength]
  refine Json.setElements_congr fun f hf => ?_
  rw [hf] at hrel
  cases hrel with
  | some hreads => exact hreads.set_congr h

theorem decode_item {items others : List Json}
    (h : ∀ x, shape.decode j = .ok x ↔ shape.decode k = .ok x) (xs : (Shape.list shape).Value) :
    (Shape.list shape).decode (.array (items ++ j :: others)) = .ok xs ↔
      (Shape.list shape).decode (.array (items ++ k :: others)) = .ok xs := by
  exact Json.mapM_congr h

theorem decode_content (hname : (name, shape) ∈ contents)
    (h : ∀ x, shape.decode j = .ok x ↔ shape.decode k = .ok x) (v : AttributeValue) :
    decodeValue (.object [(name, j)]) = .ok v ↔ decodeValue (.object [(name, k)]) = .ok v := by
  simp only [contents, List.mem_cons, Prod.mk.injEq, List.not_mem_nil, or_false] at hname
  rw [decodeValue, decodeValue]
  rcases hname with ⟨rfl, rfl⟩ | ⟨rfl, rfl⟩ | ⟨rfl, rfl⟩
  · have hint : ∀ n, decodeInt j = .ok n ↔ decodeInt k = .ok n := h
    simp [decodeVariant, hint]
  · have hitems : ∀ items, decodeArrayValue j = .ok items ↔ decodeArrayValue k = .ok items := h
    simp [decodeVariant, hitems]
  · have hentries : ∀ entries,
        decodeKeyValueList j = .ok entries ↔ decodeKeyValueList k = .ok entries := h
    simp [decodeVariant, hentries]

end Step

/-- Two spellings are decoded as the same value, or neither is decoded. -/
theorem decode_iff_of_respelled {shape : Shape} {j k : Json} (h : Respelled shape j k) :
    ∀ x, shape.decode j = .ok x ↔ shape.decode k = .ok x := by
  induction h with
  | refl j => exact fun x => Iff.rfl
  | symm _ ih => exact fun x => (ih x).symm
  | trans _ _ ih ih' => exact fun x => (ih x).trans (ih' x)
  | unknown hshape hname value before after => exact decode_unknown hshape hname
  | defaulted hshape hfield hvalue before after hname =>
    exact decode_defaulted hshape hfield hvalue hname
  | time n => exact fun t => decodeTime_iff
  | integer n => exact fun m => decodeInt_iff
  | kind k hname =>
    intro x
    show decodeKind (.int k.code) = .ok x ↔ decodeKind (.string _) = .ok x
    rw [decodeKind_of_names hname, show decodeKind (.int k.code) = .ok k from decodeKind_encode k]
  | statusCode c hname =>
    intro x
    show decodeStatusCode (.int c.code) = .ok x ↔ decodeStatusCode (.string _) = .ok x
    rw [decodeStatusCode_of_names hname,
      show decodeStatusCode (.int c.code) = .ok c from decodeStatusCode_encode c]
  | member hfield _ before after ih => exact decode_member hfield ih
  | element hfield _ others ih => exact decode_element hfield ih
  | item _ items others ih => exact decode_item ih
  | content hname _ ih => exact decode_content hname ih

/-- A document that is decoded as a trace is decoded as that trace in every other spelling. -/
theorem decodeTrace_respelled {j k : Json} (h : Respelled .trace j k) {t : Trace}
    (hj : decodeTrace j = .ok t) : decodeTrace k = .ok t :=
  (decode_iff_of_respelled h t).1 hj

/-- A document of one span. -/
def spanDocument (span : Json) : Json :=
  .object [("resourceSpans", .array [.object [("scopeSpans", .array [.object [("spans",
    .array [span])]])]])]

theorem respelled_spanDocument {j k : Json} (h : Respelled .span j k) :
    Respelled .trace (spanDocument j) (spanDocument k) := by
  have hscope : Respelled .scopeSpans (.object [("spans", .array [j])])
      (.object [("spans", .array [k])]) := .member rfl (.item h [] []) [] []
  have hresource : Respelled .resourceSpans
      (.object [("scopeSpans", .array [.object [("spans", .array [j])]])])
      (.object [("scopeSpans", .array [.object [("spans", .array [k])]])]) :=
    .member rfl (.item hscope [] []) [] []
  exact .member rfl (.item hresource [] []) [] []

def chargeSpan : Json :=
  .object [("name", .string "charge"), ("kind", .int 3), ("startTimeUnixNano", .int 7),
    ("attributes", .array [.object [("key", .string "code"),
      ("value", .object [("intValue", .string "-5")])]])]

/-- The same span with names for codes, texts for integers and back, a member that is not known, and
a status that says nothing. -/
def chargeRespelled : Json :=
  .object [("flags", .bool true), ("name", .string "charge"), ("kind", .string "SPAN_KIND_cLient"),
    ("startTimeUnixNano", .string "7"),
    ("attributes", .array [.object [("key", .string "code"), ("unit", .null),
      ("value", .object [("intValue", .int (-5))])]]),
    ("status", .object [])]

def chargeTrace : Trace :=
  ⟨[⟨default, [⟨default, [{ (default : Span) with
    name := "charge", kind := .client, start := 7, attributes := ⟨[("code", .int (-5))]⟩ }]⟩]⟩]⟩

theorem isRecord_keyValue : Shape.keyValue.IsRecord := List.cons_ne_nil _ _

theorem isRecord_span : Shape.span.IsRecord := List.cons_ne_nil _ _

theorem decodeTrace_respelled_charge :
    Respelled .trace (spanDocument chargeSpan) (spanDocument chargeRespelled) ∧
      decodeTrace (spanDocument chargeSpan) = .ok chargeTrace ∧
      decodeTrace (spanDocument chargeRespelled) = .ok chargeTrace := by
  have hname : Names "SPAN_KIND_" (kindName .client) "SPAN_KIND_cLient" :=
    ⟨"cLient", .inr rfl, rfl⟩
  have hentry : Respelled .keyValue
      (.object [("key", .string "code"), ("value", .object [("intValue", .string "-5")])])
      (.object [("key", .string "code"), ("unit", .null),
        ("value", .object [("intValue", .int (-5))])]) :=
    .trans (.unknown isRecord_keyValue rfl .null [("key", .string "code")] [("value", _)])
      (.member rfl (.content (by simp [contents]) (.symm (.integer (-5))))
        [("key", .string "code"), ("unit", .null)] [])
  have hfield : Shape.find? Shape.span.fields "status" = some .status := rfl
  have hstatus : Shape.status.decode (.object []) = .ok Shape.status.default := rfl
  have hflags : Shape.find? Shape.span.fields "flags" = none := rfl
  have hspan : Respelled .span chargeSpan chargeRespelled := by
    refine .trans (.member rfl (.kind .client hname) [("name", _)] [_, _]) ?_
    refine .trans (.member rfl (.time 7) [_, _] [_]) ?_
    refine .trans (.member rfl (.item hentry [] []) [_, _, _] []) ?_
    refine .trans (.unknown isRecord_span hflags (.bool true) [] [_, _, _, _]) ?_
    exact .defaulted ⟨isRecord_span, by simp⟩ hfield hstatus [_, _, _, _, _] [] (by simp)
  have hdecode : decodeTrace (spanDocument chargeSpan) = .ok chargeTrace := by cbv
  have hdocument := respelled_spanDocument hspan
  exact ⟨hdocument, hdecode, decodeTrace_respelled hdocument hdecode⟩

end TraceSearch.Otlp
