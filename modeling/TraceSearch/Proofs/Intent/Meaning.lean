import Mathlib.Algebra.Order.Group.Int
import Mathlib.Tactic.MkIffOfInductiveProp
import TraceSearch.Proofs.Intent.Mapping
import TraceSearch.Proofs.Query.Dimensions
import TraceSearch.Proofs.Trace.Arrangement

/-!
# What an intent asks of a trace

The constraints of an intent, read off its parts and off the spans a trace holds, with no query in
between. Main facts: `attribute?_eq_some_iff` and `service?_eq_some_iff`, what a span inherits from
its resource, and `accepts_query_iff`, the query of a validated intent accepts exactly the traces
that satisfy the intent.
-/

namespace TraceSearch

namespace Attributes

/-- The first entry of the key has the value. -/
def Maps (a : Attributes) (key : String) (value : AttributeValue) : Prop :=
  ∃ front back, a.entries = front ++ (key, value) :: back ∧ key ∉ front.map Prod.fst

def Lacks (a : Attributes) (key : String) : Prop := key ∉ a.entries.map Prod.fst

theorem find?_eq_none_iff {key : String} {entries : List (String × AttributeValue)} :
    find? key entries = none ↔ key ∉ entries.map Prod.fst := by
  induction entries with
  | nil => grind
  | cons entry rest ih => grind

theorem find?_eq_some_iff {key : String} {value : AttributeValue}
    {entries : List (String × AttributeValue)} :
    find? key entries = some value ↔
      ∃ front back, entries = front ++ (key, value) :: back ∧ key ∉ front.map Prod.fst := by
  constructor
  · intro h
    induction entries with
    | nil => grind
    | cons entry rest ih =>
      by_cases hkey : entry.1 = key
      · exact ⟨[], rest, by grind, List.not_mem_nil⟩
      · obtain ⟨front, back, rfl, hfront⟩ := ih (by grind)
        exact ⟨entry :: front, back, rfl, by grind⟩
  · rintro ⟨front, back, rfl, hfront⟩
    induction front with
    | nil => grind
    | cons first front ih => grind

theorem get?_eq_none_iff {a : Attributes} {key : String} : a.get? key = none ↔ a.Lacks key :=
  find?_eq_none_iff

theorem get?_eq_some_iff {a : Attributes} {key : String} {value : AttributeValue} :
    a.get? key = some value ↔ a.Maps key value :=
  find?_eq_some_iff

theorem getString?_eq_some_iff {a : Attributes} {key text : String} :
    a.getString? key = some text ↔ a.Maps key (.string text) := by
  rw [getString?, Option.bind_eq_some_iff, ← get?_eq_some_iff]
  constructor
  · rintro ⟨value, hvalue, htext⟩
    cases value <;> cases htext
    exact hvalue
  · intro h
    exact ⟨_, h, rfl⟩

end Attributes

namespace Span

/-- A span has a value under a key if the first of its own attributes with the key has it, or if it
has no such attribute and the first of its resource does. -/
def Carries (s : Span) (shared : Attributes) (key : String) (value : AttributeValue) : Prop :=
  s.attributes.Maps key value ∨ s.attributes.Lacks key ∧ shared.Maps key value

/-- The service of a span is its own `service.name` if that is a string, and else its resource's. -/
def ServedBy (s : Span) (shared : Attributes) (name : String) : Prop :=
  s.attributes.Maps "service.name" (.string name) ∨
    (∀ own, ¬s.attributes.Maps "service.name" (.string own)) ∧
      shared.Maps "service.name" (.string name)

/-- A span has a tag by an attribute that reads as the value, and the tag `error = true` also by its
status. -/
def Tagged (s : Span) (shared : Attributes) (key value : String) : Prop :=
  (∃ actual, s.Carries shared key actual ∧ actual.text = value) ∨
    key = "error" ∧ value = "true" ∧ s.status.code = .error

/-- The time from the start of a span to its end, negative if that comes first, within 64 bits. -/
def length (s : Span) : Duration :=
  ⟨max (-2 ^ 63) (min (2 ^ 63 - 1) (s.stop.toNat - s.start.toNat))⟩

theorem duration_eq_length (s : Span) : s.duration = s.length := rfl

end Span

namespace PlacedSpan

variable {s : PlacedSpan}

theorem attribute?_eq_some_iff {key : String} {value : AttributeValue} :
    s.attribute? key = some value ↔ s.span.Carries s.resource.attributes key value := by
  rw [attribute?, Span.Carries, ← Attributes.get?_eq_some_iff, ← Attributes.get?_eq_some_iff,
    ← Attributes.get?_eq_none_iff]
  cases s.span.attributes.get? key <;> simp

theorem service?_eq_some_iff {name : String} :
    s.service? = some name ↔ s.span.ServedBy s.resource.attributes name := by
  simp only [service?, Resource.service?, serviceKey, Span.ServedBy,
    ← Attributes.getString?_eq_some_iff]
  cases s.span.attributes.getString? "service.name" <;> simp

end PlacedSpan

namespace Intent

/-- The constraints of an intent. Every part that is present asks for a span of its own, but the
two bounds of the start time ask for the same one. -/
@[mk_iff]
structure SatisfiedBy (i : Intent) (t : Trace) : Prop where
  service : ∀ name ∈ i.service, ∃ shared span, t.Holds shared span ∧ span.ServedBy shared name
  operation : ∀ name ∈ i.operation, ∃ shared span, t.Holds shared span ∧ span.name = name
  minDuration : ∀ d ∈ duration? i.minDuration, d ≠ Duration.zero →
    ∃ shared span, t.Holds shared span ∧ d ≤ span.length
  maxDuration : ∀ d ∈ duration? i.maxDuration, d ≠ Duration.zero →
    ∃ shared span, t.Holds shared span ∧ span.length ≤ d
  startTime : i.startTime ≠ none ∨ i.endTime ≠ none → ∃ shared span, t.Holds shared span ∧
    (∀ least ∈ time? i.startTime, least ≤ span.startTime) ∧
      ∀ greatest ∈ time? i.endTime, span.startTime ≤ greatest
  tags : ∀ tag ∈ i.tags.entries, ∃ shared span, t.Holds shared span ∧ span.Tagged shared tag.1 tag.2

theorem carriesTag_string_iff {s : PlacedSpan} {key value : String} :
    Trace.carriesTag s key (.string value) = true ↔
      s.span.Tagged s.resource.attributes key value := by
  have htext : (AttributeValue.string value).text = value := String.ofList_toList
  unfold Trace.carriesTag Span.Tagged
  rw [htext, Bool.or_eq_true, or_comm, Option.any_eq_true]
  simp only [PlacedSpan.attribute?_eq_some_iff]
  simp [Trace.errorKey, Span.isError, and_assoc]

/-- The spans that a trace holds are those of its list. -/
theorem satisfiedBy_iff_spans {i : Intent} {t : Trace} :
    i.SatisfiedBy t ↔
      (∀ name ∈ i.service, ∃ s ∈ t.spans, s.service? = some name) ∧
      (∀ name ∈ i.operation, ∃ s ∈ t.spans, s.span.name = name) ∧
      (∀ d ∈ duration? i.minDuration, d ≠ Duration.zero → ∃ s ∈ t.spans, d ≤ s.span.duration) ∧
      (∀ d ∈ duration? i.maxDuration, d ≠ Duration.zero → ∃ s ∈ t.spans, s.span.duration ≤ d) ∧
      (i.startTime ≠ none ∨ i.endTime ≠ none → ∃ s ∈ t.spans,
        (∀ least ∈ time? i.startTime, least ≤ s.span.startTime) ∧
          ∀ greatest ∈ time? i.endTime, s.span.startTime ≤ greatest) ∧
      ∀ tag ∈ i.tags.entries, ∃ s ∈ t.spans, Trace.carriesTag s tag.1 (.string tag.2) = true := by
  simp only [satisfiedBy_iff, ← Trace.exists_span_iff, ← PlacedSpan.service?_eq_some_iff,
    ← carriesTag_string_iff, Span.duration_eq_length]

instance (i : Intent) (t : Trace) : Decidable (i.SatisfiedBy t) :=
  decidable_of_iff _ satisfiedBy_iff_spans.symm

section Dimensions

variable {t : Trace}

theorem getD_text_iff {text : Option String} {p : String → Prop} (h : text ≠ some "") :
    (text.getD "" = "" ∨ p (text.getD "")) ↔ ∀ name ∈ text, p name := by
  cases text with
  | none => simp
  | some name =>
    have hname : name ≠ "" := fun hempty => h (congrArg some hempty)
    simp [hname]

theorem getD_duration_iff {d : Option Duration} {p : Duration → Prop} :
    (d.getD Duration.zero = Duration.zero ∨ p (d.getD Duration.zero)) ↔
      ∀ x ∈ d, x ≠ Duration.zero → p x := by
  cases d with
  | none => simp
  | some x => simp [or_iff_not_imp_left]

theorem matchesService_getD {service : Option String} (h : service ≠ some "") :
    t.matchesService (service.getD "") = true ↔
      ∀ name ∈ service, ∃ s ∈ t.spans, s.service? = some name := by
  have hname := getD_text_iff (p := fun name => ∃ s ∈ t.spans, s.service? = some name) h
  rw [← hname]
  simp [Trace.matchesService]

theorem matchesOperation_getD {operation : Option String} (h : operation ≠ some "") :
    t.matchesOperation (operation.getD "") = true ↔
      ∀ name ∈ operation, ∃ s ∈ t.spans, s.span.name = name := by
  have hname := getD_text_iff (p := fun name => ∃ s ∈ t.spans, s.span.name = name) h
  rw [← hname]
  simp [Trace.matchesOperation]

theorem matchesDurationMin_getD {least : Option Duration} :
    t.matchesDurationMin (least.getD Duration.zero) = true ↔
      ∀ d ∈ least, d ≠ Duration.zero → ∃ s ∈ t.spans, d ≤ s.span.duration := by
  rw [← getD_duration_iff]
  simp [Trace.matchesDurationMin]

theorem matchesDurationMax_getD {greatest : Option Duration} :
    t.matchesDurationMax (greatest.getD Duration.zero) = true ↔
      ∀ d ∈ greatest, d ≠ Duration.zero → ∃ s ∈ t.spans, s.span.duration ≤ d := by
  rw [← getD_duration_iff]
  simp [Trace.matchesDurationMax]

theorem matchesTimeRange_time? {start stop : Option String}
    (hstart : checkTimestamp .startTime start = .ok ())
    (hstop : checkTimestamp .endTime stop = .ok ()) :
    t.matchesTimeRange (time? start) (time? stop) = true ↔
      (start ≠ none ∨ stop ≠ none → ∃ s ∈ t.spans,
        (∀ least ∈ time? start, least ≤ s.span.startTime) ∧
          ∀ greatest ∈ time? stop, s.span.startTime ≤ greatest) := by
  have hpresent : ((time? start).isNone && (time? stop).isNone) = true ↔
      ¬(start ≠ none ∨ stop ≠ none) := by
    rw [Bool.and_eq_true, Option.isNone_iff_eq_none, Option.isNone_iff_eq_none,
      time?_eq_none_iff hstart, time?_eq_none_iff hstop, not_or, not_not, not_not]
  rw [Trace.matchesTimeRange, Bool.or_eq_true, hpresent, List.any_eq_true, ← imp_iff_not_or]
  simp only [Trace.within_iff]

theorem matchesAttributes_ofStrings {tags : Tags} :
    t.matchesAttributes (Attributes.ofStrings tags.entries) = true ↔
      ∀ tag ∈ tags.entries, ∃ s ∈ t.spans, Trace.carriesTag s tag.1 (.string tag.2) = true := by
  rw [Trace.matchesAttributes, Attributes.entries_ofStrings tags.nodup_keys, List.all_map,
    List.all_eq_true]
  simp only [Function.comp_apply, List.any_eq_true]

end Dimensions

theorem accepts_query_iff {i : Intent} (h : Validated i) (t : Trace) :
    i.query.accepts t = true ↔ i.SatisfiedBy t := by
  have hservice := matchesService_getD (t := t) (ne_empty_of_checkText h.service)
  have hoperation := matchesOperation_getD (t := t) (ne_empty_of_checkText h.operation)
  have htime := matchesTimeRange_time? (t := t) h.startTime h.endTime
  rw [Query.accepts_iff, satisfiedBy_iff_spans]
  exact and_congr hservice (and_congr hoperation (and_congr matchesDurationMin_getD
    (and_congr matchesDurationMax_getD (and_congr htime matchesAttributes_ofStrings))))

end Intent

end TraceSearch
