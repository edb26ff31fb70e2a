import Mathlib.Data.Option.Basic
import TraceSearch.Proofs.Query.Dimensions

/-!
# The window of start times

The start of a span is an unsigned 64-bit timestamp, but it is compared as an instant, and there a
timestamp beyond 63 bits counts as the greatest of 63 bits. Bounds reach further on both sides. Main
facts: `matchesTimeRange_iff`, the window is exact about starts so read, and therefore exact about
all timestamps as long as the bounds stay below the greatest; `late_start_within` shows a start that
is taken for an earlier one.
-/

namespace TraceSearch

/-- An instant that is not in a leap second. -/
def Instant.Regular (t : Instant) : Prop := t.nanos < 1000000000

theorem Instant.le_iff_unixNanos_le {a b : Instant} (ha : a.Regular) (hb : b.Regular) :
    a ≤ b ↔ a.unixNanos ≤ b.unixNanos := by
  simp only [Regular, le_def, unixNanos] at *
  omega

theorem Instant.regular_ofUnixNanos (n : Int) : (ofUnixNanos n).Regular := by
  simp only [Regular, ofUnixNanos]
  omega

namespace Span

/-- The start of a span in nanoseconds after the epoch. -/
def startNanos (s : Span) : Int := s.start.toNat

/-- The start of a span as it is compared. -/
def comparedStart (s : Span) : Int := min s.startNanos Duration.greatest64

theorem regular_startTime (s : Span) : s.startTime.Regular := Instant.regular_ofUnixNanos _

theorem unixNanos_startTime (s : Span) : s.startTime.unixNanos = s.comparedStart :=
  Instant.unixNanos_ofUnixNanos _

theorem comparedStart_of_le {s : Span} (h : s.startNanos ≤ Duration.greatest64) :
    s.comparedStart = s.startNanos := by
  simp only [comparedStart]
  omega

/-- A bound from below that 63 bits hold does not tell late starts apart. -/
theorem le_comparedStart_iff {s : Span} {n : Int} (h : n ≤ Duration.greatest64) :
    n ≤ s.comparedStart ↔ n ≤ s.startNanos := by
  simp only [comparedStart]
  omega

theorem comparedStart_le_iff {s : Span} {n : Int} (h : n < Duration.greatest64) :
    s.comparedStart ≤ n ↔ s.startNanos ≤ n := by
  simp only [comparedStart]
  omega

end Span

namespace Trace

/-- There are no bounds, or the start of one span lies between them, as `start` reads it. -/
def StartsBetween (t : Trace) (start : Span → Int) (least greatest : Option Instant) : Prop :=
  (least = none ∧ greatest = none) ∨
    ∃ s ∈ t.spans, (∀ m ∈ least, m.unixNanos ≤ start s.span) ∧
      ∀ m ∈ greatest, start s.span ≤ m.unixNanos

theorem startsBetween_congr {t : Trace} {start start' : Span → Int}
    {least greatest : Option Instant}
    (hleast : ∀ s ∈ t.spans, ∀ m ∈ least,
      m.unixNanos ≤ start s.span ↔ m.unixNanos ≤ start' s.span)
    (hgreatest : ∀ s ∈ t.spans, ∀ m ∈ greatest,
      start s.span ≤ m.unixNanos ↔ start' s.span ≤ m.unixNanos) :
    t.StartsBetween start least greatest ↔ t.StartsBetween start' least greatest := by
  refine or_congr_right (exists_congr fun s => and_congr_right fun hs => and_congr ?_ ?_)
  · exact forall₂_congr (hleast s hs)
  · exact forall₂_congr (hgreatest s hs)

theorem matchesTimeRange_compared (t : Trace) {least greatest : Option Instant}
    (hleast : ∀ m ∈ least, m.Regular) (hgreatest : ∀ m ∈ greatest, m.Regular) :
    t.matchesTimeRange least greatest = true ↔
      t.StartsBetween Span.comparedStart least greatest := by
  have hspan (s : PlacedSpan) : within least greatest s.span.startTime = true ↔
      (∀ m ∈ least, m.unixNanos ≤ s.span.comparedStart) ∧
        ∀ m ∈ greatest, s.span.comparedStart ≤ m.unixNanos := by
    rw [within_iff, ← s.span.unixNanos_startTime]
    refine and_congr (forall₂_congr fun m hm => ?_) (forall₂_congr fun m hm => ?_)
    · exact Instant.le_iff_unixNanos_le (hleast m hm) s.span.regular_startTime
    · exact Instant.le_iff_unixNanos_le s.span.regular_startTime (hgreatest m hm)
  rw [matchesTimeRange, Bool.or_eq_true, Bool.and_eq_true, Option.isNone_iff_eq_none,
    Option.isNone_iff_eq_none, List.any_eq_true]
  simp only [hspan, StartsBetween]

/-- The window holds of a trace if there are no bounds, or if the start of some span, a timestamp
beyond 63 bits counting as the greatest of 63 bits, lies between them. It is exact about every
timestamp when no start is so late, or when the bounds leave the greatest instant of 63 bits out. -/
theorem matchesTimeRange_iff (t : Trace) {least greatest : Option Instant}
    (hleast : ∀ m ∈ least, m.Regular) (hgreatest : ∀ m ∈ greatest, m.Regular) :
    (t.matchesTimeRange least greatest = true ↔
      t.StartsBetween (fun s => min s.start.toNat 9223372036854775807) least greatest) ∧
    ((∀ s ∈ t.spans, s.span.start.toNat ≤ 9223372036854775807) →
      (t.matchesTimeRange least greatest = true ↔
        t.StartsBetween (fun s => s.start.toNat) least greatest)) ∧
    ((∀ m ∈ least, m.unixNanos ≤ 9223372036854775807) →
      (∀ m ∈ greatest, m.unixNanos < 9223372036854775807) →
      (t.matchesTimeRange least greatest = true ↔
        t.StartsBetween (fun s => s.start.toNat) least greatest)) := by
  have hcompared := t.matchesTimeRange_compared hleast hgreatest
  refine ⟨hcompared, fun hstarts => ?_, fun hlow hhigh => ?_⟩
  · have hstart (s : PlacedSpan) (hs : s ∈ t.spans) : s.span.comparedStart = s.span.startNanos :=
      Span.comparedStart_of_le (Int.ofNat_le.2 (hstarts s hs))
    rw [hcompared]
    exact startsBetween_congr (fun s hs m _ => by rw [hstart s hs]; rfl)
      fun s hs m _ => by rw [hstart s hs]; rfl
  · rw [hcompared]
    exact startsBetween_congr (fun s _ m hm => Span.le_comparedStart_iff (hlow m hm))
      fun s _ m hm => Span.comparedStart_le_iff (hhigh m hm)

/-- A trace whose only span starts one nanosecond after the greatest instant of 63 bits. -/
def late : Trace :=
  ⟨[⟨default, [⟨default, [{ (default : Span) with start := 9223372036854775808 }]⟩]⟩]⟩

theorem matchesTimeRange_iff_late :
    (∀ m ∈ some (Instant.ofUnixNanos 1704110400000000000), m.Regular) ∧
      (∀ m ∈ (none : Option Instant), m.Regular) ∧
      late.StartsBetween (fun s => s.start.toNat)
        (some (Instant.ofUnixNanos 1704110400000000000)) none ∧
      late.matchesTimeRange (some (Instant.ofUnixNanos 1704110400000000000)) none = true := by
  have hleast : ∀ m ∈ some (Instant.ofUnixNanos 1704110400000000000), m.Regular := by
    rintro m ⟨⟩
    exact Instant.regular_ofUnixNanos _
  have hgreatest : ∀ m ∈ (none : Option Instant), m.Regular := by rintro m ⟨⟩
  have hbetween : late.StartsBetween (fun s => s.start.toNat)
      (some (Instant.ofUnixNanos 1704110400000000000)) none := by
    refine .inr ⟨_, List.mem_singleton.2 rfl, ?_, by rintro m ⟨⟩⟩
    rintro m ⟨⟩
    decide
  obtain ⟨-, -, hexact⟩ := late.matchesTimeRange_iff hleast hgreatest
  refine ⟨hleast, hgreatest, hbetween, (hexact ?_ (by rintro m ⟨⟩)).2 hbetween⟩
  rintro m ⟨⟩
  decide

/-- A window that ends with the greatest instant of 63 bits lets a later start in, and one that
begins after it keeps that start out. -/
theorem late_start_within :
    (late.matchesTimeRange none (some (Instant.ofUnixNanos 9223372036854775807)) = true ∧
      ¬late.StartsBetween (fun s => s.start.toNat) none
        (some (Instant.ofUnixNanos 9223372036854775807))) ∧
    late.matchesTimeRange (some (Instant.ofUnixNanos 9223372036854775808)) none = false ∧
      late.StartsBetween (fun s => s.start.toNat)
        (some (Instant.ofUnixNanos 9223372036854775808)) none := by
  refine ⟨⟨by decide, ?_⟩, by decide, .inr ⟨_, List.mem_singleton.2 rfl, ?_, by rintro m ⟨⟩⟩⟩
  · rintro (⟨-, hnone⟩ | ⟨s, hs, -, hend⟩)
    · cases hnone
    · cases List.mem_singleton.1 hs
      exact absurd (hend _ rfl) (by decide)
  · rintro m ⟨⟩
    decide

end Trace

end TraceSearch
