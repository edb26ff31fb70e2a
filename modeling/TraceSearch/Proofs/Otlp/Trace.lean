import TraceSearch.Proofs.Otlp.Value

/-!
# Written traces read back

Every level of a trace is decoded from what it was encoded as: fields that are left out when they
are empty have the empty value as their default. Main facts: `decodeTrace_encodeTrace` and
`rereads_encodeTrace`.
-/

namespace TraceSearch

/-- The doubles among attributes. -/
def Attributes.doubles (a : Attributes) : List Float := AttributeValue.entryDoubles a.entries

def Span.doubles (s : Span) : List Float :=
  s.attributes.doubles ++ s.events.flatMap fun e => e.attributes.doubles

def ScopeSpans.doubles (s : ScopeSpans) : List Float := s.spans.flatMap Span.doubles

def ResourceSpans.doubles (r : ResourceSpans) : List Float :=
  r.resource.attributes.doubles ++ r.scopes.flatMap ScopeSpans.doubles

/-- The doubles a trace holds, of its resources, spans and events. -/
def Trace.doubles (t : Trace) : List Float := t.resources.flatMap ResourceSpans.doubles

namespace Json

section Record

variable {ρ α : Type} {fields : List (RecordField ρ)} {r t : ρ} {rest : List (String × Json)}

theorem setMembers_cons_of {name : String} {value : Json} {decode : Json → Except Mismatch α}
    {put : ρ → α → ρ} {a : α}
    (hfind : RecordField.find? fields name = some (RecordField.of name decode put))
    (hdecode : decode value.sorted = .ok a)
    (hrest : setMembers fields (put r a) (sortedMembers rest) = .ok t) :
    setMembers fields r (sortedMembers ((name, value) :: rest)) = .ok t := by
  rw [sortedMembers, setMembers, hfind]
  simp only [RecordField.of, hdecode, Except.map]
  exact hrest

/-- A string that is left out when it is empty, where the record holds the empty string. -/
theorem setMembers_unlessEmpty {name value : String} {put : ρ → String → ρ}
    (hfind : RecordField.find? fields name = some (RecordField.of name decodeString put))
    (hempty : put r "" = r)
    (hrest : setMembers fields (put r value) (sortedMembers rest) = .ok t) :
    setMembers fields r (sortedMembers (Otlp.memberUnlessEmpty name value ++ rest)) = .ok t := by
  unfold Otlp.memberUnlessEmpty
  split
  · rename_i hvalue
    rwa [hvalue, hempty] at hrest
  · exact setMembers_cons_of hfind rfl hrest

theorem decodeArray_encode {encode : α → Json} {decode : Json → Except Mismatch α} {xs : List α}
    (h : ∀ x ∈ xs, decode (encode x).sorted = .ok x) :
    decodeArray decode (array (xs.map encode)).sorted = .ok xs := by
  rw [sorted, sortedItems_eq_map, List.map_map]
  show List.mapM decode (xs.map fun x => (encode x).sorted) = .ok xs
  induction xs with
  | nil => rfl
  | cons x xs ih =>
    obtain ⟨hx, hxs⟩ := List.forall_mem_cons.1 h
    rw [List.map_cons, List.mapM_cons, hx, ih hxs]
    rfl

end Record

end Json

namespace Otlp

open Json (Mismatch Numbers RecordField Commute setMembers_cons_of setMembers_unlessEmpty)
open Decimal (isFinite)

theorem rereads_encodeAttributes {a : Attributes} (h : RereadDoubles a.doubles) :
    (encodeAttributes a).Rereads :=
  Numbers.array (rereads_encodeEntries a.entries (AttributeValue.forall_mem_keyValues_iff.1 h))

theorem decodeAttributes_encodeAttributes {a : Attributes}
    (h : ∀ x ∈ a.doubles, isFinite x = true) :
    decodeAttributes (encodeAttributes a).sorted = .ok a := by
  have hentries := decodeEachEntry_encodeEntries a.entries
    (AttributeValue.forall_mem_keyValues_iff.1 h)
  simp [decodeAttributes, encodeAttributes, Json.sorted, decodeEntries, hentries, Except.map]

theorem commute_statusFields : statusFields.Pairwise Commute := by
  simp [statusFields, Json.commute_of]

theorem commute_eventFields : eventFields.Pairwise Commute := by
  simp [eventFields, Json.commute_of]

theorem commute_spanFields : spanFields.Pairwise Commute := by
  simp [spanFields, Json.commute_of]

theorem commute_scopeFields : scopeFields.Pairwise Commute := by
  simp [scopeFields, Json.commute_of]

theorem commute_scopeSpansFields : scopeSpansFields.Pairwise Commute := by
  simp [scopeSpansFields, Json.commute_of]

theorem commute_resourceSpansFields : resourceSpansFields.Pairwise Commute := by
  simp [resourceSpansFields, Json.commute_of]

theorem decodeStatusCode_encode (c : StatusCode) :
    decodeStatusCode (Json.int c.code).sorted = .ok c := by
  cases c <;> rfl

theorem decodeKind_encode (k : SpanKind) : decodeKind (Json.int k.code).sorted = .ok k := by
  cases k <;> rfl

theorem decodeStatus_encodeStatus (s : Status) : decodeStatus (encodeStatus s).sorted = .ok s := by
  refine Json.decodeRecord_sorted commute_statusFields ?_ ?_
  · unfold memberUnlessEmpty
    split <;> simp
  · refine setMembers_unlessEmpty rfl rfl ?_
    refine setMembers_cons_of rfl (decodeStatusCode_encode s.code) ?_
    rfl

theorem decodeEvent_encodeEvent {e : Event} (h : ∀ x ∈ e.attributes.doubles, isFinite x = true) :
    decodeEvent (encodeEvent e).sorted = .ok e := by
  refine Json.decodeRecord_sorted commute_eventFields ?_ ?_
  · simp
  · refine setMembers_cons_of rfl (decodeTime_encodeTime e.time) ?_
    refine setMembers_cons_of rfl rfl ?_
    refine setMembers_cons_of rfl (decodeAttributes_encodeAttributes h) ?_
    rfl

theorem decodeSpan_encodeSpan {s : Span} (h : ∀ x ∈ s.doubles, isFinite x = true) :
    decodeSpan (encodeSpan s).sorted = .ok s := by
  rw [Span.doubles, List.forall_mem_append, List.forall_mem_flatMap] at h
  have hattributes := decodeAttributes_encodeAttributes h.1
  have hevents := Json.decodeArray_encode fun e he => decodeEvent_encodeEvent (h.2 e he)
  refine Json.decodeRecord_sorted commute_spanFields ?_ ?_
  · unfold memberUnlessEmpty
    split <;> split <;> simp
  · simp only [List.append_assoc, List.cons_append, List.nil_append]
    refine setMembers_cons_of rfl rfl ?_
    refine setMembers_cons_of rfl rfl ?_
    refine setMembers_unlessEmpty rfl rfl ?_
    refine setMembers_cons_of rfl rfl ?_
    -- the record so far is brought into one piece, or each step would carry all updates before it
    dsimp only
    refine setMembers_cons_of rfl (decodeKind_encode s.kind) ?_
    refine setMembers_cons_of rfl (decodeTime_encodeTime s.start) ?_
    refine setMembers_cons_of rfl (decodeTime_encodeTime s.stop) ?_
    refine setMembers_cons_of rfl hattributes ?_
    dsimp only
    by_cases hnone : s.events = []
    · rw [hnone]
      refine setMembers_cons_of rfl (decodeStatus_encodeStatus s.status) ?_
      show Except.ok ({ s with events := [] } : Span) = Except.ok s
      rw [← hnone]
    · have hsome : s.events.isEmpty = false := by simpa using hnone
      rw [hsome]
      refine setMembers_cons_of rfl hevents ?_
      refine setMembers_cons_of rfl (decodeStatus_encodeStatus s.status) ?_
      rfl

theorem decodeScope_encodeScope (s : Scope) : decodeScope (encodeScope s).sorted = .ok s := by
  refine Json.decodeRecord_sorted commute_scopeFields ?_ ?_
  · unfold memberUnlessEmpty
    split <;> split <;> simp
  · refine setMembers_unlessEmpty rfl rfl ?_
    rw [← List.append_nil (memberUnlessEmpty "version" s.version)]
    refine setMembers_unlessEmpty rfl rfl ?_
    rfl

theorem decodeScopeSpans_encodeScopeSpans {s : ScopeSpans}
    (h : ∀ x ∈ s.doubles, isFinite x = true) :
    decodeScopeSpans (encodeScopeSpans s).sorted = .ok s := by
  rw [ScopeSpans.doubles, List.forall_mem_flatMap] at h
  have hspans := Json.decodeArray_encode fun span hspan => decodeSpan_encodeSpan (h span hspan)
  refine Json.decodeRecord_sorted commute_scopeSpansFields ?_ ?_
  · simp
  · refine setMembers_cons_of rfl (decodeScope_encodeScope s.scope) ?_
    refine setMembers_cons_of rfl hspans ?_
    rfl

theorem decodeResource_encodeResource {r : Resource}
    (h : ∀ x ∈ r.attributes.doubles, isFinite x = true) :
    decodeResource (encodeResource r).sorted = .ok r := by
  refine Json.decodeRecord_sorted (List.pairwise_singleton _ _) ?_ ?_
  · simp
  · refine setMembers_cons_of rfl (decodeAttributes_encodeAttributes h) ?_
    rfl

theorem decodeResourceSpans_encodeResourceSpans {r : ResourceSpans}
    (h : ∀ x ∈ r.doubles, isFinite x = true) :
    decodeResourceSpans (encodeResourceSpans r).sorted = .ok r := by
  rw [ResourceSpans.doubles, List.forall_mem_append, List.forall_mem_flatMap] at h
  have hscopes := Json.decodeArray_encode fun s hs => decodeScopeSpans_encodeScopeSpans (h.2 s hs)
  refine Json.decodeRecord_sorted commute_resourceSpansFields ?_ ?_
  · simp
  · refine setMembers_cons_of rfl (decodeResource_encodeResource h.1) ?_
    refine setMembers_cons_of rfl hscopes ?_
    rfl

/-- A trace with finite doubles is decoded from what it was encoded as. -/
theorem decodeTrace_encodeTrace {t : Trace} (h : ∀ x ∈ t.doubles, isFinite x = true) :
    decodeTrace (encodeTrace t).sorted = .ok t := by
  rw [Trace.doubles, List.forall_mem_flatMap] at h
  have hresources := Json.decodeArray_encode fun r hr =>
    decodeResourceSpans_encodeResourceSpans (h r hr)
  refine Json.decodeRecord_sorted (List.pairwise_singleton _ _) ?_ ?_
  · simp
  · refine setMembers_cons_of rfl hresources ?_
    rfl

theorem rereads_array_map {α : Type} {encode : α → Json} {xs : List α}
    (h : ∀ x ∈ xs, (encode x).Rereads) : (Json.array (xs.map encode)).Rereads :=
  Numbers.array (List.forall_mem_map.2 h)

theorem rereads_memberUnlessEmpty (name value : String) :
    ∀ member ∈ memberUnlessEmpty name value, member.2.Rereads := by
  unfold memberUnlessEmpty
  split
  · simp
  · simpa using Numbers.string value

theorem rereads_int {n : Int} (hleast : 0 ≤ n) (hgreatest : n < 10) : (Json.int n).Rereads := by
  refine Numbers.number (Json.rereads_integer ?_)
  show (-9223372036854775808 : Int) ≤ n ∧ n ≤ 18446744073709551615
  omega

theorem rereads_encodeTime (t : UInt64) : (encodeTime t).Rereads := Numbers.string _

theorem rereads_encodeStatus (s : Status) : (encodeStatus s).Rereads := by
  have hcode : (Json.int s.code.code).Rereads := by
    cases s.code <;> exact rereads_int (by decide) (by decide)
  refine Numbers.object (List.forall_mem_append.2 ⟨rereads_memberUnlessEmpty _ _, ?_⟩)
  simpa using hcode

theorem rereads_encodeEvent {e : Event} (h : RereadDoubles e.attributes.doubles) :
    (encodeEvent e).Rereads := by
  have hattributes := rereads_encodeAttributes h
  refine Numbers.object ?_
  simpa using ⟨rereads_encodeTime e.time, Numbers.string e.name, hattributes⟩

theorem rereads_encodeSpan {s : Span} (h : RereadDoubles s.doubles) : (encodeSpan s).Rereads := by
  rw [Span.doubles, rereadDoubles_append, rereadDoubles_flatMap] at h
  have hkind : (Json.int s.kind.code).Rereads := by
    cases s.kind <;> exact rereads_int (by decide) (by decide)
  have hevents := rereads_array_map fun e he => rereads_encodeEvent (h.2 e he)
  have hattributes := rereads_encodeAttributes h.1
  have hstatus := rereads_encodeStatus s.status
  have hlisted : ∀ member ∈ (if s.events.isEmpty then []
      else [("events", Json.array (s.events.map encodeEvent))]), member.2.Rereads := by
    split
    · simp
    · simpa using hevents
  refine Numbers.object ?_
  simp only [List.forall_mem_append]
  refine ⟨⟨⟨⟨?_, rereads_memberUnlessEmpty _ _⟩, ?_⟩, hlisted⟩, ?_⟩
  · simpa using ⟨Numbers.string s.traceId, Numbers.string s.spanId⟩
  · simpa using ⟨Numbers.string s.name, hkind, rereads_encodeTime s.start,
      rereads_encodeTime s.stop, hattributes⟩
  · simpa using hstatus

theorem rereads_encodeScope (s : Scope) : (encodeScope s).Rereads :=
  Numbers.object (List.forall_mem_append.2
    ⟨rereads_memberUnlessEmpty _ _, rereads_memberUnlessEmpty _ _⟩)

theorem rereads_encodeScopeSpans {s : ScopeSpans} (h : RereadDoubles s.doubles) :
    (encodeScopeSpans s).Rereads := by
  rw [ScopeSpans.doubles, rereadDoubles_flatMap] at h
  have hspans := rereads_array_map fun span hspan => rereads_encodeSpan (h span hspan)
  refine Numbers.object ?_
  simpa using ⟨rereads_encodeScope s.scope, hspans⟩

theorem rereads_encodeResource {r : Resource} (h : RereadDoubles r.attributes.doubles) :
    (encodeResource r).Rereads := rereads_object_one (rereads_encodeAttributes h)

theorem rereads_encodeResourceSpans {r : ResourceSpans} (h : RereadDoubles r.doubles) :
    (encodeResourceSpans r).Rereads := by
  rw [ResourceSpans.doubles, rereadDoubles_append, rereadDoubles_flatMap] at h
  have hscopes := rereads_array_map fun s hs => rereads_encodeScopeSpans (h.2 s hs)
  refine Numbers.object ?_
  simpa using ⟨rereads_encodeResource h.1, hscopes⟩

/-- Of the numbers of a written trace only its doubles may be read as others: what else is a number
is small, and a double that is not finite becomes `null`. -/
theorem rereads_encodeTrace {t : Trace} (h : RereadDoubles t.doubles) :
    (encodeTrace t).Rereads := by
  rw [Trace.doubles, rereadDoubles_flatMap] at h
  exact rereads_object_one (rereads_array_map fun r hr => rereads_encodeResourceSpans (h r hr))

end Otlp

end TraceSearch
