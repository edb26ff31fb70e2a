import TraceSearch.Proofs.Corpus.RoundTrip
import TraceSearch.Proofs.Otlp.Loaded

/-!
# Loaded corpora written again

A loaded corpus holds finite doubles, and is loaded again from what it is written as if these are
read as they were written, unless it was loaded from a text at the limit of the brackets a document
may open: the writer spells out the list of an empty array, which takes one bracket more than
leaving it out. Main facts:
`parse_write_of_parse`, and `parse_write_deepTrace` for a corpus that reaches the limit.
-/

namespace TraceSearch.Corpus

open Json (nestingLimit)
open Decimal (isFinite)

theorem mem_decodeFrom {index : Nat} {documents : List Json} {traces : List Trace}
    (h : decodeFrom index documents = .ok traces) :
    ∀ t ∈ traces, ∃ d ∈ documents, Otlp.decodeTrace d = .ok t := by
  induction documents generalizing index traces with
  | nil =>
    cases h
    simp
  | cons d rest ih =>
    unfold decodeFrom at h
    split at h
    · contradiction
    · rename_i t ht
      obtain ⟨ts, hts, rfl⟩ := Json.map_eq_ok_iff.1 h
      intro u hu
      rcases List.mem_cons.1 hu with rfl | hu
      · exact ⟨d, List.mem_cons_self, ht⟩
      · obtain ⟨e, he, hue⟩ := ih hts u hu
        exact ⟨e, List.mem_cons_of_mem _ he, hue⟩

theorem nested_of_readDocuments {text : String} {documents : List Json}
    (h : readDocuments text = .ok documents) :
    ∀ d ∈ documents, Json.Nested (nestingLimit - 1) d := by
  unfold readDocuments at h
  split at h
  · unfold Json.complete at h
    split at h
    · contradiction
    · rename_i documents' rest hread
      split at h
      · cases h
        intro d hd
        obtain ⟨before, after, hd⟩ := Json.mem_readEnclosed hread d hd
        exact Json.nested_of_readValue hd
      · contradiction
  · contradiction

/-- The documents of a text, and the traces they are decoded as. -/
theorem parse_eq_ok_iff {text : String} {traces : List Trace} :
    parse text = .ok traces ↔
      ∃ documents, readDocuments text = .ok documents ∧ decodeFrom 0 documents = .ok traces := by
  unfold parse
  cases readDocuments text with
  | error e => simp
  | ok documents => simp

theorem kept_of_parse {text : String} {documents : List Json} {traces : List Trace}
    (hread : readDocuments text = .ok documents) (hdecode : decodeFrom 0 documents = .ok traces) :
    (∀ t ∈ traces, ∀ x ∈ t.doubles, isFinite x = true) ∧
      (written traces).nesting ≤ max ((Json.array documents).nesting + 1) 6 := by
  have hnested := nested_of_readDocuments hread
  have hkept : ∀ t ∈ traces, Otlp.Kept (max (Json.itemsNesting documents + 1) 5) t.doubles
      (Otlp.encodeTrace t) := by
    intro t ht
    obtain ⟨d, hd, hdecoded⟩ := mem_decodeFrom hdecode t ht
    obtain ⟨hfinite, hnesting⟩ := Otlp.kept_of_decodeTrace (hnested d hd).2 hdecoded
    have hle := Json.itemsNesting_le_iff.1 (Nat.le_refl (Json.itemsNesting documents)) d hd
    exact ⟨hfinite, by omega⟩
  have hitems : Json.itemsNesting (traces.map Otlp.encodeTrace) ≤
      max (Json.itemsNesting documents + 1) 5 :=
    Json.itemsNesting_le_iff.2 (List.forall_mem_map.2 fun t ht => (hkept t ht).2)
  refine ⟨fun t ht => (hkept t ht).1, ?_⟩
  rw [written, Json.nesting, Json.nesting]
  omega

/-- An attribute value in nested arrays, the innermost of which leaves out its list of values. -/
def nestedOmitted : Nat → Json
  | 0 => .object [("arrayValue", .object [])]
  | levels + 1 => .object [("arrayValue", .object [("values", .array [nestedOmitted levels])])]

def nestedArray : Nat → AttributeValue
  | 0 => .array []
  | levels + 1 => .array [nestedArray levels]

theorem decodeValue_nestedOmitted (levels : Nat) :
    Otlp.decodeValue (nestedOmitted levels).sorted = .ok (nestedArray levels) := by
  induction levels with
  | zero =>
    rw [nestedOmitted, Otlp.decodeValue_sorted_one]
    simp [Otlp.decodeVariant, Json.sorted, Json.sortedMembers, Json.ofMembers,
      Otlp.decodeArrayValue, Otlp.decodeArrayMembers, Except.map, nestedArray]
  | succ levels ih =>
    have hitems : Otlp.decodeEachValue [(nestedOmitted levels).sorted] =
        .ok [nestedArray levels] := by
      simp [Otlp.decodeEachValue, ih, Except.map]
    rw [nestedOmitted, Otlp.decodeValue_sorted_one, Otlp.sorted_values]
    simp [Otlp.decodeVariant, Otlp.decodeArrayValue_values hitems, Except.map, nestedArray]

@[simp]
theorem nesting_nestedOmitted (levels : Nat) : (nestedOmitted levels).nesting = 3 * levels + 2 := by
  induction levels with
  | zero => rfl
  | succ levels ih =>
    simp only [nestedOmitted, Json.nesting, Json.membersNesting, Json.itemsNesting, ih]
    omega

theorem rereads_nestedOmitted (levels : Nat) : (nestedOmitted levels).Rereads := by
  induction levels with
  | zero => exact Otlp.rereads_object_one (Json.Numbers.object (by simp))
  | succ levels ih =>
    exact Otlp.rereads_object_one
      (Otlp.rereads_object_one (Json.Numbers.array (by simpa using ih)))

@[simp] theorem nesting_encode_nestedArray (levels : Nat) :
    (Otlp.encodeValue (nestedArray levels)).nesting = 3 * levels + 3 := by
  induction levels with
  | zero => rfl
  | succ levels ih =>
    simp only [nestedArray, Otlp.encodeValue, Otlp.encodeValues, Json.nesting, Json.membersNesting,
      Json.itemsNesting, ih]
    omega

@[simp] theorem doubles_nestedArray (levels : Nat) : (nestedArray levels).doubles = [] := by
  induction levels with
  | zero => rfl
  | succ levels ih =>
    simp [nestedArray, AttributeValue.doubles, AttributeValue.itemDoubles, ih]

theorem decodeEachEntry_one {j : Json} {entry : String × AttributeValue}
    (h : Otlp.decodeEntry j.sorted = .ok entry) :
    Otlp.decodeEachEntry [j.sorted] = .ok [entry] := by
  simp [Otlp.decodeEachEntry, h, Except.map]

theorem decodeArray_one {α : Type} {decode : Json → Except Json.Mismatch α} {j : Json} {x : α}
    (h : decode j.sorted = .ok x) : Json.decodeArray decode (Json.array [j]).sorted = .ok [x] := by
  rw [Json.sorted, Json.sortedItems, Json.sortedItems, Json.decodeArray, List.mapM_cons, h]
  rfl

/-- Nested arrays under a key of keyed values, as an attribute of a resource. -/
def deepAttribute (levels : Nat) : Json :=
  .object [("key", .string "outer"), ("value", .object [("kvlistValue", .object [("values",
    .array [.object [("key", .string "inner"), ("value", nestedOmitted levels)]])])])]

def deepDocument (levels : Nat) : Json :=
  .object [("resourceSpans", .array [.object [("resource",
    .object [("attributes", .array [deepAttribute levels])])]])]

def deepTrace (levels : Nat) : Trace :=
  ⟨[⟨⟨⟨[("outer", .keyValues [("inner", nestedArray levels)])]⟩⟩, []⟩]⟩

@[simp] theorem doubles_deepTrace (levels : Nat) : (deepTrace levels).doubles = [] := by
  simp [deepTrace, Trace.doubles, ResourceSpans.doubles, Attributes.doubles,
    AttributeValue.entryDoubles, AttributeValue.doubles]

theorem decodeEntry_deepAttribute (levels : Nat) :
    Otlp.decodeEntry (deepAttribute levels).sorted =
      .ok ("outer", .keyValues [("inner", nestedArray levels)]) := by
  have hinner := Otlp.decodeEntry_sorted "inner" (decodeValue_nestedOmitted levels)
  have hlist := Otlp.decodeKeyValueList_values (decodeEachEntry_one hinner)
  refine Otlp.decodeEntry_sorted "outer" ?_
  rw [Otlp.decodeValue_sorted_one, Otlp.sorted_values]
  simp [Otlp.decodeVariant, hlist, Except.map]

theorem decodeTrace_deepDocument (levels : Nat) :
    Otlp.decodeTrace (deepDocument levels).sorted = .ok (deepTrace levels) := by
  have hentries := decodeEachEntry_one (decodeEntry_deepAttribute levels)
  have hattributes : Otlp.decodeAttributes (Json.array [deepAttribute levels]).sorted =
      .ok ⟨[("outer", .keyValues [("inner", nestedArray levels)])]⟩ := by
    simp [Otlp.decodeAttributes, Json.sorted, Otlp.decodeEntries, hentries, Except.map]
  have hresource : Otlp.decodeResource
      (Json.object [("attributes", .array [deepAttribute levels])]).sorted = .ok ⟨_⟩ :=
    Json.decodeRecord_sorted (List.pairwise_singleton _ _) (by simp)
      (Json.setMembers_cons_of rfl hattributes rfl)
  have hspans : Otlp.decodeResourceSpans (Json.object [("resource",
      .object [("attributes", .array [deepAttribute levels])])]).sorted = .ok ⟨⟨_⟩, []⟩ :=
    Json.decodeRecord_sorted Otlp.commute_resourceSpansFields (by simp)
      (Json.setMembers_cons_of rfl hresource rfl)
  exact Json.decodeRecord_sorted (List.pairwise_singleton _ _) (by simp)
    (Json.setMembers_cons_of rfl (decodeArray_one hspans) rfl)

theorem rereads_deepDocument (levels : Nat) : (deepDocument levels).Rereads := by
  have hentry (key : String) {j : Json} (h : j.Rereads) :
      (Json.object [("key", .string key), ("value", j)]).Rereads :=
    Json.Numbers.object (by simpa using ⟨Json.Numbers.string key, h⟩)
  have hone {j : Json} (h : j.Rereads) : (Json.array [j]).Rereads :=
    Json.Numbers.array (by simpa using h)
  have hinner := hone (hentry "inner" (rereads_nestedOmitted levels))
  have hattribute : (deepAttribute levels).Rereads :=
    hentry "outer" (Otlp.rereads_object_one (Otlp.rereads_object_one hinner))
  exact Otlp.rereads_object_one (hone (Otlp.rereads_object_one (Otlp.rereads_object_one
    (hone hattribute))))

/-- Nested arrays are loaded up to the last bracket a document may open. -/
theorem parse_deepDocument (levels : Nat) :
    parse (Json.pretty (.array [deepDocument levels])) =
      if levels ≤ 38 then .ok [deepTrace levels] else .error (.notAnArray .malformed) := by
  have hrereads : ∀ d ∈ [deepDocument levels], d.Rereads := by
    simpa using rereads_deepDocument levels
  have hnesting : (Json.array [deepDocument levels]).nesting = 3 * levels + 13 := by
    simp [deepDocument, deepAttribute, Json.nesting, Json.itemsNesting, Json.membersNesting]
  have hlimit : 3 * levels + 13 ≤ nestingLimit ↔ levels ≤ 38 := by
    rw [nestingLimit]
    omega
  unfold parse
  rw [readDocuments_pretty hrereads, hnesting]
  simp only [hlimit]
  by_cases hlevels : levels ≤ 38
  · rw [if_pos hlevels, if_pos hlevels]
    simp [decodeFrom, decodeTrace_deepDocument, Except.map]
  · rw [if_neg hlevels, if_neg hlevels]

theorem nesting_written_deepTrace (levels : Nat) :
    (written [deepTrace levels]).nesting = 3 * levels + 14 := by
  simp [written, deepTrace, Otlp.encodeTrace, Otlp.encodeResourceSpans, Otlp.encodeResource,
    Otlp.encodeAttributes, Otlp.encodeEntries, Otlp.encodeValue, Json.nesting, Json.itemsNesting,
    Json.membersNesting]

/-- The list that was left out takes one bracket more than the arrays were loaded from. -/
theorem parse_write_deepTrace (levels : Nat) :
    parse (write [deepTrace levels]) =
      if levels ≤ 37 then .ok [deepTrace levels] else .error (.notAnArray .malformed) := by
  have hdoubles := doubles_deepTrace levels
  have hreread : ∀ t ∈ [deepTrace levels], RereadDoubles t.doubles := by simp [hdoubles]
  have hfinite : ∀ t ∈ [deepTrace levels], ∀ x ∈ t.doubles, isFinite x = true := by
    simp [hdoubles]
  have hlimit : 3 * levels + 14 ≤ nestingLimit ↔ levels ≤ 37 := by
    rw [nestingLimit]
    omega
  rw [parse_write hreread hfinite, nesting_written_deepTrace]
  simp only [hlimit]

/-- A corpus that was loaded is written with at most one bracket more than a document may open. If
its doubles are read as they were written, it is loaded again unless it is written with that one
bracket more, which never happens to a text that opens fewer brackets than it may. -/
theorem parse_write_of_parse {text : String} {traces : List Trace} (h : parse text = .ok traces) :
    (written traces).nesting ≤ nestingLimit + 1 ∧
      ((∀ t ∈ traces, RereadDoubles t.doubles) →
        parse (write traces) =
          (if (written traces).nesting ≤ nestingLimit then .ok traces
          else .error (.notAnArray .malformed)) ∧
        (∀ documents, readDocuments text = .ok documents →
          (Json.array documents).nesting < nestingLimit → parse (write traces) = .ok traces)) := by
  obtain ⟨documents, hread, hdecode⟩ := parse_eq_ok_iff.1 h
  obtain ⟨hfinite, hnesting⟩ := kept_of_parse hread hdecode
  have hlimit : (Json.array documents).nesting ≤ nestingLimit := by
    have hitems : Json.itemsNesting documents ≤ nestingLimit - 1 :=
      Json.itemsNesting_le_iff.2 fun d hd => (nested_of_readDocuments hread d hd).1
    rw [Json.nesting]
    exact Nat.succ_le_succ hitems
  have hleast : 6 ≤ nestingLimit := by decide
  refine ⟨by omega, fun hreread => ⟨parse_write hreread hfinite, fun documents' hread' hlt => ?_⟩⟩
  rw [hread] at hread'
  cases hread'
  rw [parse_write hreread hfinite, if_pos (by omega)]

theorem parse_write_of_parse_within :
    parse (Json.pretty (.array [deepDocument 37])) = .ok [deepTrace 37] ∧
      (∀ t ∈ [deepTrace 37], RereadDoubles t.doubles) ∧
      parse (write [deepTrace 37]) = .ok [deepTrace 37] := by
  have hparse : parse (Json.pretty (.array [deepDocument 37])) = .ok [deepTrace 37] := by
    rw [parse_deepDocument, if_pos (by decide)]
  have hreread : ∀ t ∈ [deepTrace 37], RereadDoubles t.doubles := by simp
  have hwritten : (written [deepTrace 37]).nesting ≤ nestingLimit := by
    rw [nesting_written_deepTrace]
    decide
  have hwrite := ((parse_write_of_parse hparse).2 hreread).1
  rw [if_pos hwritten] at hwrite
  exact ⟨hparse, hreread, hwrite⟩

/-- A corpus that is loaded and written, and cannot be loaded again. -/
theorem parse_write_at_limit :
    parse (Json.pretty (.array [deepDocument 38])) = .ok [deepTrace 38] ∧
      parse (write [deepTrace 38]) = .error (.notAnArray .malformed) := by
  constructor
  · rw [parse_deepDocument, if_pos (by decide)]
  · rw [parse_write_deepTrace, if_neg (by decide)]

end TraceSearch.Corpus
