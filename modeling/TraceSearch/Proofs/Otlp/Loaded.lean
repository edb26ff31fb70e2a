import TraceSearch.Proofs.Otlp.Growth
import TraceSearch.Proofs.Otlp.Trace

/-!
# Loaded traces are written with one bracket more

The levels of a trace grow as their values do: each is written with at most one bracket more than it
was decoded from. Records that may leave out everything are written with all their levels, which
bounds the brackets of a trace from below. Main fact: `kept_of_decodeTrace`.
-/

namespace TraceSearch

namespace Json

theorem mem_mapM {α β ε : Type} {f : α → Except ε β} {xs : List α} {ys : List β}
    (h : xs.mapM f = .ok ys) : ∀ y ∈ ys, ∃ x ∈ xs, f x = .ok y := by
  induction xs generalizing ys with
  | nil =>
    cases h
    simp
  | cons x xs ih =>
    obtain ⟨z, hx, zs, hxs, rfl⟩ := mapM_cons_eq_ok_iff.1 h
    intro y hy
    rcases List.mem_cons.1 hy with rfl | hy
    · exact ⟨x, List.mem_cons_self, hx⟩
    · obtain ⟨w, hw, hwy⟩ := ih hxs y hy
      exact ⟨w, List.mem_cons_of_mem _ hw, hwy⟩

theorem mem_decodeArray {α : Type} {decode : Json → Except Mismatch α} {j : Json} {xs : List α}
    (h : decodeArray decode j = .ok xs) : ∀ x ∈ xs, ∃ part ∈ j.parts, decode part = .ok x := by
  unfold decodeArray at h
  split at h
  · exact mem_mapM h
  · contradiction

theorem pos_nesting_of_decodeRecord {ρ : Type} {fields : List (RecordField ρ)} {name : String}
    {record x : ρ} {j : Json} (h : decodeRecord name fields record j = .ok x) : 0 < j.nesting := by
  unfold decodeRecord at h
  split at h
  · exact Nat.succ_pos _
  · exact Nat.succ_pos _
  · contradiction

end Json

namespace Otlp

open Json (Mismatch Stable RecordField)
open Decimal (isFinite)

variable {j part : Json}

theorem kept_of_decodeAttributes (hj : j.Stable) {a : Attributes}
    (h : decodeAttributes j = .ok a) : Kept (j.nesting + 1) a.doubles (encodeAttributes a) := by
  obtain ⟨entries, hentries, rfl⟩ := Json.map_eq_ok_iff.1 h
  have hpart : ∀ item ∈ j.parts, ∀ part ∈ item.parts, ∀ v, decodeValue part = .ok v →
      v.Finite ∧ (encodeValue v).nesting + 1 ≤ j.nesting := by
    intro item hitem part hpart v hv
    have hlt := Json.nesting_lt_of_mem_parts hitem
    have hlt' := Json.nesting_lt_of_mem_parts hpart
    have hstable := Json.stable_of_mem_parts (Json.stable_of_mem_parts hj hitem) hpart
    obtain ⟨hfinite, hnesting⟩ := kept_of_decodeValue hstable hv
    exact ⟨hfinite, by omega⟩
  have hkept := (forall_of_decodeEntries hpart hentries).2
  exact ⟨AttributeValue.forall_mem_keyValues_iff.2 fun entry he => (hkept entry he).1,
    nesting_encodeEntries_le_iff.2 fun entry he => (hkept entry he).2⟩

/-- The attributes a record has in one of its fields. -/
theorem kept_of_attributesField (hj : j.Stable) (hpart : part ∈ j.parts) {a : Attributes}
    (h : decodeAttributes part = .ok a) : Kept j.nesting a.doubles (encodeAttributes a) :=
  (kept_of_decodeAttributes (Json.stable_of_mem_parts hj hpart) h).mono
    (Json.nesting_lt_of_mem_parts hpart)

/-- Records with finite doubles that can be listed within a number of brackets. -/
def KeptItems {α : Type} (n : Nat) (doubles : α → List Float) (encode : α → Json) (xs : List α) :
    Prop :=
  ∀ x ∈ xs, (∀ d ∈ doubles x, isFinite d = true) ∧ (encode x).nesting + 1 ≤ n

section Items

variable {α : Type} {doubles : α → List Float} {encode : α → Json} {xs : List α}

theorem KeptItems.finite {n : Nat} (h : KeptItems n doubles encode xs) :
    ∀ d ∈ xs.flatMap doubles, isFinite d = true :=
  List.forall_mem_flatMap.2 fun x hx => (h x hx).1

theorem KeptItems.nesting {n : Nat} (h : KeptItems n doubles encode xs) (hn : 0 < n) :
    (Json.array (xs.map encode)).nesting ≤ n := by
  have hitems : Json.itemsNesting (xs.map encode) ≤ n - 1 :=
    Json.itemsNesting_le_iff.2 <| List.forall_mem_map.2 fun x hx => by
      have := (h x hx).2
      omega
  rw [Json.nesting]
  omega

/-- The records a record lists in one of its fields stand two brackets deeper; `least` is what the
smallest of them is written with. -/
theorem keptItems_of_listField {decode : Json → Except Mismatch α} {least : Nat}
    (hdecode : ∀ item : Json, item.Stable → ∀ x, decode item = .ok x →
      Kept (max (item.nesting + 1) least) (doubles x) (encode x))
    (hj : j.Stable) (hpart : part ∈ j.parts) (h : Json.decodeArray decode part = .ok xs) :
    KeptItems (max j.nesting (least + 1)) doubles encode xs := by
  intro x hx
  obtain ⟨item, hitem, hx⟩ := Json.mem_decodeArray h x hx
  have hlt := Json.nesting_lt_of_mem_parts hpart
  have hlt' := Json.nesting_lt_of_mem_parts hitem
  have hstable := Json.stable_of_mem_parts (Json.stable_of_mem_parts hj hpart) hitem
  obtain ⟨hfinite, hnesting⟩ := hdecode item hstable x hx
  exact ⟨hfinite, by omega⟩

end Items

@[simp] theorem nesting_encodeEvent (e : Event) :
    (encodeEvent e).nesting = (encodeAttributes e.attributes).nesting + 1 := by
  simp [encodeEvent, encodeTime, digitsOf, Json.nesting, Json.membersNesting]

theorem kept_of_decodeEvent (hj : j.Stable) {e : Event} (h : decodeEvent j = .ok e) :
    Kept (j.nesting + 1) e.attributes.doubles (encodeEvent e) := by
  have hset : ∀ field ∈ eventFields, field.Keeps
      (fun e => Kept j.nesting e.attributes.doubles (encodeAttributes e.attributes)) j.parts := by
    simp only [eventFields, List.forall_mem_cons]
    refine ⟨?_, ?_, ?attributes, List.forall_mem_nil _⟩
    case attributes =>
      exact RecordField.keeps_of fun part hpart a ha e _ => kept_of_attributesField hj hpart ha
    all_goals exact RecordField.keeps_other fun e x he => he
  have hpos := Json.pos_nesting_of_decodeRecord h
  have hdefault : Kept j.nesting (default : Event).attributes.doubles
      (encodeAttributes (default : Event).attributes) := ⟨by decide, hpos⟩
  obtain ⟨hfinite, hnesting⟩ := Json.decodeRecord_invariant hset hdefault h
  exact ⟨hfinite, by rw [nesting_encodeEvent]; omega⟩

@[simp] theorem nesting_encodeStatus (s : Status) : (encodeStatus s).nesting = 1 := by
  unfold encodeStatus memberUnlessEmpty
  split <;> rfl

theorem nesting_encodeSpan_le {s : Span} {n : Nat} (hn : 0 < n)
    (hattributes : (encodeAttributes s.attributes).nesting ≤ n)
    (hevents : (Json.array (s.events.map encodeEvent)).nesting ≤ n) :
    (encodeSpan s).nesting ≤ n + 1 := by
  have hparent : ∀ member ∈ memberUnlessEmpty "parentSpanId" s.parentSpanId,
      member.2.nesting ≤ n := by
    unfold memberUnlessEmpty
    split <;> simp [Json.nesting]
  have hlisted : ∀ member ∈ (if s.events.isEmpty then []
      else [("events", Json.array (s.events.map encodeEvent))]), member.2.nesting ≤ n := by
    split
    · simp
    · simpa using hevents
  refine Nat.succ_le_succ (Json.membersNesting_le_iff.2 ?_)
  simp only [List.forall_mem_append]
  refine ⟨⟨⟨⟨?_, hparent⟩, ?_⟩, hlisted⟩, ?_⟩
  · simp [Json.nesting]
  · simpa [Json.nesting, Json.int, encodeTime, digitsOf] using hattributes
  · rw [List.forall_mem_singleton, nesting_encodeStatus]
    exact hn

/-- What the fields of a span keep while it is decoded. -/
def KeptSpan (n : Nat) (s : Span) : Prop :=
  Kept n s.attributes.doubles (encodeAttributes s.attributes) ∧
    KeptItems (max n 1) (fun e => e.attributes.doubles) encodeEvent s.events

theorem kept_of_decodeSpan (hj : j.Stable) {s : Span} (h : decodeSpan j = .ok s) :
    Kept (j.nesting + 1) s.doubles (encodeSpan s) := by
  have hset : ∀ field ∈ spanFields, field.Keeps (KeptSpan j.nesting) j.parts := by
    simp only [spanFields, List.forall_mem_cons]
    refine ⟨?_, ?_, ?_, ?_, ?_, ?_, ?_, ?attributes, ?events, ?_, List.forall_mem_nil _⟩
    case attributes =>
      refine RecordField.keeps_of fun part hpart a ha s hs => ⟨?_, hs.2⟩
      exact kept_of_attributesField hj hpart ha
    case events =>
      refine RecordField.keeps_of fun part hpart events hevents s hs => ⟨hs.1, ?_⟩
      exact keptItems_of_listField
        (fun item hi e he => (kept_of_decodeEvent hi he).mono (Nat.le_max_left _ _)) hj hpart
        hevents
    all_goals exact RecordField.keeps_other fun s x hs => hs
  have hpos := Json.pos_nesting_of_decodeRecord h
  have hdefault : KeptSpan j.nesting default := ⟨⟨by decide, hpos⟩, List.forall_mem_nil _⟩
  obtain ⟨⟨hfinite, hattributes⟩, hevents⟩ := Json.decodeRecord_invariant hset hdefault h
  rw [Nat.max_eq_left hpos] at hevents
  exact ⟨List.forall_mem_append.2 ⟨hfinite, hevents.finite⟩,
    nesting_encodeSpan_le hpos hattributes (hevents.nesting hpos)⟩

@[simp] theorem nesting_encodeScope (s : Scope) : (encodeScope s).nesting = 1 := by
  unfold encodeScope memberUnlessEmpty
  split <;> split <;> rfl

@[simp] theorem nesting_encodeScopeSpans (s : ScopeSpans) : (encodeScopeSpans s).nesting =
    max 1 (Json.array (s.spans.map encodeSpan)).nesting + 1 := by
  simp [encodeScopeSpans, Json.nesting, Json.membersNesting]

theorem kept_of_decodeScopeSpans (hj : j.Stable) {s : ScopeSpans} (h : decodeScopeSpans j = .ok s) :
    Kept (j.nesting + 1) s.doubles (encodeScopeSpans s) := by
  have hset : ∀ field ∈ scopeSpansFields, field.Keeps
      (fun s => KeptItems (max j.nesting 1) Span.doubles encodeSpan s.spans) j.parts := by
    simp only [scopeSpansFields, List.forall_mem_cons]
    refine ⟨RecordField.keeps_other fun s x hs => hs, ?_, List.forall_mem_nil _⟩
    refine RecordField.keeps_of fun part hpart spans hspans s _ => ?_
    exact keptItems_of_listField
      (fun item hi s hs => (kept_of_decodeSpan hi hs).mono (Nat.le_max_left _ _)) hj hpart hspans
  have hpos := Json.pos_nesting_of_decodeRecord h
  have hdefault : KeptItems (max j.nesting 1) Span.doubles encodeSpan
      (default : ScopeSpans).spans := List.forall_mem_nil _
  have hspans := Json.decodeRecord_invariant hset hdefault h
  rw [Nat.max_eq_left hpos] at hspans
  have hlist := hspans.nesting hpos
  exact ⟨hspans.finite, by rw [nesting_encodeScopeSpans]; omega⟩

@[simp] theorem nesting_encodeResource (r : Resource) :
    (encodeResource r).nesting = (encodeAttributes r.attributes).nesting + 1 := by
  simp [encodeResource, Json.nesting, Json.membersNesting]

theorem kept_of_decodeResource (hj : j.Stable) {r : Resource} (h : decodeResource j = .ok r) :
    Kept (j.nesting + 1) r.attributes.doubles (encodeResource r) := by
  have hset : ∀ field ∈ resourceFields, field.Keeps
      (fun r => Kept j.nesting r.attributes.doubles (encodeAttributes r.attributes)) j.parts := by
    rw [resourceFields, List.forall_mem_singleton]
    exact RecordField.keeps_of fun part hpart a ha r _ => kept_of_attributesField hj hpart ha
  have hpos := Json.pos_nesting_of_decodeRecord h
  have hdefault : Kept j.nesting (default : Resource).attributes.doubles
      (encodeAttributes (default : Resource).attributes) := ⟨by decide, hpos⟩
  obtain ⟨hfinite, hattributes⟩ := Json.decodeRecord_invariant hset hdefault h
  exact ⟨hfinite, by rw [nesting_encodeResource]; omega⟩

@[simp] theorem nesting_encodeResourceSpans (r : ResourceSpans) : (encodeResourceSpans r).nesting =
    max (encodeResource r.resource).nesting
      (Json.array (r.scopes.map encodeScopeSpans)).nesting + 1 := by
  simp [encodeResourceSpans, Json.nesting, Json.membersNesting]

/-- What the fields of the spans of a resource keep while they are decoded. A resource without
attributes is written with two brackets. -/
def KeptResource (n : Nat) (r : ResourceSpans) : Prop :=
  Kept (max n 2) r.resource.attributes.doubles (encodeResource r.resource) ∧
    KeptItems (max n 1) ScopeSpans.doubles encodeScopeSpans r.scopes

theorem kept_of_decodeResourceSpans (hj : j.Stable) {r : ResourceSpans}
    (h : decodeResourceSpans j = .ok r) :
    Kept (max (j.nesting + 1) 3) r.doubles (encodeResourceSpans r) := by
  have hset : ∀ field ∈ resourceSpansFields, field.Keeps (KeptResource j.nesting) j.parts := by
    simp only [resourceSpansFields, List.forall_mem_cons]
    refine ⟨?resource, ?scopes, List.forall_mem_nil _⟩
    case resource =>
      refine RecordField.keeps_of fun part hpart x hx r hr => ⟨?_, hr.2⟩
      have hlt := Json.nesting_lt_of_mem_parts hpart
      exact (kept_of_decodeResource (Json.stable_of_mem_parts hj hpart) hx).mono (by omega)
    case scopes =>
      refine RecordField.keeps_of fun part hpart scopes hscopes r hr => ⟨hr.1, ?_⟩
      exact keptItems_of_listField
        (fun item hi s hs => (kept_of_decodeScopeSpans hi hs).mono (Nat.le_max_left _ _)) hj hpart
        hscopes
  have hpos := Json.pos_nesting_of_decodeRecord h
  have hdefault : KeptResource j.nesting default :=
    ⟨⟨by decide, Nat.le_max_right _ _⟩, List.forall_mem_nil _⟩
  obtain ⟨⟨hfinite, hresource⟩, hscopes⟩ := Json.decodeRecord_invariant hset hdefault h
  rw [Nat.max_eq_left hpos] at hscopes
  have hlist := hscopes.nesting hpos
  exact ⟨List.forall_mem_append.2 ⟨hfinite, hscopes.finite⟩, by
    rw [nesting_encodeResourceSpans]
    omega⟩

@[simp] theorem nesting_encodeTrace (t : Trace) : (encodeTrace t).nesting =
    (Json.array (t.resources.map encodeResourceSpans)).nesting + 1 := by
  simp [encodeTrace, Json.nesting, Json.membersNesting]

/-- A trace that was decoded holds finite doubles and is written with one bracket more than it was
decoded from, or with five. -/
theorem kept_of_decodeTrace (hj : j.Stable) {t : Trace} (h : decodeTrace j = .ok t) :
    Kept (max (j.nesting + 1) 5) t.doubles (encodeTrace t) := by
  have hset : ∀ field ∈ traceFields, field.Keeps
      (fun t => KeptItems (max j.nesting 4) ResourceSpans.doubles encodeResourceSpans t.resources)
      j.parts := by
    rw [traceFields, List.forall_mem_singleton]
    exact RecordField.keeps_of fun part hpart resources hresources t _ =>
      keptItems_of_listField (fun item hi r hr => kept_of_decodeResourceSpans hi hr) hj hpart
        hresources
  have hdefault : KeptItems (max j.nesting 4) ResourceSpans.doubles encodeResourceSpans
      (default : Trace).resources := List.forall_mem_nil _
  have hresources := Json.decodeRecord_invariant hset hdefault h
  have hlist := hresources.nesting (by omega)
  exact ⟨hresources.finite, by rw [nesting_encodeTrace]; omega⟩

end Otlp

end TraceSearch
