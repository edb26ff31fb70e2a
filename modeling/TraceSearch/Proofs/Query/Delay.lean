import Mathlib.Data.List.Forall2
import TraceSearch.Proofs.Query.TimeWindow

/-!
# Traces at another time

The same request may be traced again later, under other ids. Of times a query sees how long a span
lasts, which a delay leaves alone, and in its window when a span starts; ids it does not see. Main
fact: `accepts_delayed`, a query whose window is moved along with a trace gives the same verdict.
-/

namespace TraceSearch

namespace Instant

/-- The instant a duration later, for instants outside leap seconds. -/
def later (t : Instant) (d : Duration) : Instant := ofUnixNanos (t.unixNanos + d.nanoseconds)

theorem regular_later (t : Instant) (d : Duration) : (t.later d).Regular := regular_ofUnixNanos _

theorem unixNanos_later (t : Instant) (d : Duration) :
    (t.later d).unixNanos = t.unixNanos + d.nanoseconds :=
  unixNanos_ofUnixNanos _

theorem later_le_later {a b : Instant} (ha : a.Regular) (hb : b.Regular) (d : Duration) :
    a.later d ≤ b.later d ↔ a ≤ b := by
  rw [le_iff_unixNanos_le ha hb, le_iff_unixNanos_le (a.regular_later d) (b.regular_later d),
    unixNanos_later, unixNanos_later, Int.add_le_add_iff_right]

theorem eq_later {a b : Instant} {d : Duration} (hb : b.Regular)
    (h : b.unixNanos = a.unixNanos + d.nanoseconds) : b = a.later d := by
  rw [later, ← h]
  obtain ⟨seconds, nanos⟩ := b
  simp only [Regular] at hb
  simp only [unixNanos, ofUnixNanos, Instant.mk.injEq]
  omega

end Instant

/-- A span and what becomes of it under a delay. Its ids, its kind, its events and the message of
its status may be others. -/
structure PlacedSpan.Delayed (delay : Duration) (s s' : PlacedSpan) : Prop where
  resource : s'.resource = s.resource
  name : s'.span.name = s.span.name
  attributes : s'.span.attributes = s.span.attributes
  code : s'.span.status.code = s.span.status.code
  start : s'.span.startNanos = s.span.startNanos + delay.nanoseconds
  stop : (s'.span.stop.toNat : Int) = s.span.stop.toNat + delay.nanoseconds
  early : s.span.startNanos ≤ Duration.greatest64
  delayed_early : s'.span.startNanos ≤ Duration.greatest64

namespace PlacedSpan.Delayed

variable {delay : Duration} {s s' : PlacedSpan} (h : s.Delayed delay s')
include h

theorem service?_eq : s'.service? = s.service? := by
  rw [service?, h.attributes, h.resource, service?]

theorem attribute?_eq (key : String) : s'.attribute? key = s.attribute? key := by
  rw [attribute?, h.attributes, h.resource, attribute?]

theorem isError_eq : s'.span.isError = s.span.isError := by rw [Span.isError, h.code, Span.isError]

theorem duration_eq : s'.span.duration = s.span.duration := by
  have hstart := h.start
  have hstop := h.stop
  simp only [Span.startNanos] at hstart
  rw [Span.duration, Span.duration, hstart, hstop, Int.add_sub_add_right]

theorem startTime_eq : s'.span.startTime = s.span.startTime.later delay := by
  refine Instant.eq_later s'.span.regular_startTime ?_
  rw [Span.unixNanos_startTime, Span.unixNanos_startTime, Span.comparedStart_of_le h.early,
    Span.comparedStart_of_le h.delayed_early, h.start]

theorem carriesTag_eq (key : String) (value : AttributeValue) :
    Trace.carriesTag s' key value = Trace.carriesTag s key value := by
  rw [Trace.carriesTag, h.isError_eq, h.attribute?_eq, Trace.carriesTag]

theorem within_eq {least greatest : Option Instant} (hleast : ∀ m ∈ least, m.Regular)
    (hgreatest : ∀ m ∈ greatest, m.Regular) :
    Trace.within (least.map (·.later delay)) (greatest.map (·.later delay)) s'.span.startTime =
      Trace.within least greatest s.span.startTime := by
  have hstart := s.span.regular_startTime
  rw [Bool.eq_iff_iff, Trace.within_iff, Trace.within_iff, h.startTime_eq]
  simp only [Option.mem_map, forall_exists_index, and_imp, forall_apply_eq_imp_iff₂]
  refine and_congr (forall₂_congr fun m hm => ?_) (forall₂_congr fun m hm => ?_)
  · exact Instant.later_le_later (hleast m hm) hstart delay
  · exact Instant.later_le_later hstart (hgreatest m hm) delay

end PlacedSpan.Delayed

theorem any_eq_any_of_forall₂ {α β : Type} {R : α → β → Prop} {p : α → Bool} {q : β → Bool}
    {xs : List α} {ys : List β} (h : List.Forall₂ R xs ys) (hpq : ∀ x y, R x y → q y = p x) :
    ys.any q = xs.any p := by
  induction h with
  | nil => rfl
  | cons hxy _ ih => rw [List.any_cons, List.any_cons, hpq _ _ hxy, ih]

namespace Trace

/-- A trace and what becomes of it when each of its spans is delayed. -/
def Delayed (delay : Duration) (t t' : Trace) : Prop :=
  List.Forall₂ (PlacedSpan.Delayed delay) t.spans t'.spans

variable {delay : Duration} {t t' : Trace} (h : t.Delayed delay t')
include h

theorem matchesService_delayed (service : String) :
    t'.matchesService service = t.matchesService service := by
  rw [matchesService, any_eq_any_of_forall₂ h fun s s' hs => by rw [hs.service?_eq], matchesService]

theorem matchesOperation_delayed (operation : String) :
    t'.matchesOperation operation = t.matchesOperation operation := by
  rw [matchesOperation, any_eq_any_of_forall₂ h fun s s' hs => by rw [hs.name], matchesOperation]

theorem matchesDurationMin_delayed (least : Duration) :
    t'.matchesDurationMin least = t.matchesDurationMin least := by
  rw [matchesDurationMin, any_eq_any_of_forall₂ h fun s s' hs => by rw [hs.duration_eq],
    matchesDurationMin]

theorem matchesDurationMax_delayed (greatest : Duration) :
    t'.matchesDurationMax greatest = t.matchesDurationMax greatest := by
  rw [matchesDurationMax, any_eq_any_of_forall₂ h fun s s' hs => by rw [hs.duration_eq],
    matchesDurationMax]

theorem matchesAttributes_delayed (required : Attributes) :
    t'.matchesAttributes required = t.matchesAttributes required := by
  have hentry (key : String) (value : AttributeValue) :
      (t'.spans.any fun s => carriesTag s key value) =
        t.spans.any fun s => carriesTag s key value :=
    any_eq_any_of_forall₂ h fun s s' hs => hs.carriesTag_eq key value
  simp only [matchesAttributes, hentry]

theorem matchesTimeRange_delayed {least greatest : Option Instant}
    (hleast : ∀ m ∈ least, m.Regular) (hgreatest : ∀ m ∈ greatest, m.Regular) :
    t'.matchesTimeRange (least.map (·.later delay)) (greatest.map (·.later delay)) =
      t.matchesTimeRange least greatest := by
  rw [matchesTimeRange, any_eq_any_of_forall₂ h fun s s' hs => hs.within_eq hleast hgreatest,
    Option.isNone_map, Option.isNone_map, matchesTimeRange]

end Trace

namespace Query

/-- A query with its window moved. -/
def delayed (q : Query) (delay : Duration) : Query :=
  { q with
    startMin := q.startMin.map (·.later delay)
    startMax := q.startMax.map (·.later delay) }

theorem delayed_of_no_window {q : Query} (hleast : q.startMin = none)
    (hgreatest : q.startMax = none) (delay : Duration) : q.delayed delay = q := by
  obtain ⟨service, operation, attributes, startMin, startMax, durationMin, durationMax, limit⟩ := q
  cases hleast
  cases hgreatest
  rfl

/-- A query gives a delayed trace the verdict that it gives the trace, if its window is delayed too.
The rest of the query is about what a delay does not change. -/
theorem accepts_delayed {q : Query} (hleast : ∀ m ∈ q.startMin, m.Regular)
    (hgreatest : ∀ m ∈ q.startMax, m.Regular) {delay : Duration} {t t' : Trace}
    (h : t.Delayed delay t') : (q.delayed delay).accepts t' = q.accepts t := by
  have htime := Trace.matchesTimeRange_delayed h hleast hgreatest
  rw [Bool.eq_iff_iff, accepts_iff, accepts_iff]
  simp only [delayed, htime, Trace.matchesService_delayed h, Trace.matchesOperation_delayed h,
    Trace.matchesDurationMin_delayed h, Trace.matchesDurationMax_delayed h,
    Trace.matchesAttributes_delayed h]

end Query

end TraceSearch
