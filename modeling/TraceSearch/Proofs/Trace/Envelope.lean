import Mathlib.Algebra.Order.Group.Int
import Mathlib.Order.Bounds.Basic
import TraceSearch.Proofs.Trace.Arrangement

/-!
# The time a trace takes

The earliest start and the latest end of spans are folded over unsigned 64-bit timestamps from the
far end of their range, which stands for no span at all. Main facts: `isLeast_earliestStart` and
`isGreatest_latestStop`, the folds find a start and an end of the spans, and `duration_envelope`, a
trace lasts from one to the other as far as 63 bits reach, however its spans are arranged.
-/

namespace TraceSearch

/-- A minimum is folded from an initial value, which is one of the values it is taken of. -/
theorem isLeast_foldl_min {α β : Type} [LinearOrder β] (f : α → β) (xs : List α) (init : β) :
    IsLeast (insert init {n | ∃ x ∈ xs, f x = n})
      (xs.foldl (fun least x => min least (f x)) init) := by
  induction xs generalizing init with
  | nil => simp [IsLeast, lowerBounds]
  | cons x xs ih =>
    obtain ⟨hmem, hlower⟩ := ih (min init (f x))
    have hfirst := hlower (Set.mem_insert _ _)
    rw [List.foldl_cons]
    refine ⟨?_, ?_⟩
    · rcases hmem with hmin | ⟨y, hy, heq⟩
      · rw [hmin]
        rcases min_choice init (f x) with hinit | hx
        · exact .inl hinit
        · exact .inr ⟨x, List.mem_cons_self, hx.symm⟩
      · exact .inr ⟨y, List.mem_cons_of_mem x hy, heq⟩
    · rintro n (rfl | ⟨y, hy, rfl⟩)
      · exact hfirst.trans (min_le_left n (f x))
      rcases List.mem_cons.1 hy with rfl | hy
      · exact hfirst.trans (min_le_right init (f y))
      · exact hlower (.inr ⟨y, hy, rfl⟩)

/-- A maximum is a minimum of the opposite order. -/
theorem isGreatest_foldl_max {α β : Type} [LinearOrder β] (f : α → β) (xs : List α) (init : β) :
    IsGreatest (insert init {n | ∃ x ∈ xs, f x = n})
      (xs.foldl (fun greatest x => max greatest (f x)) init) :=
  @isLeast_foldl_min α βᵒᵈ _ f xs init

namespace Trace

/-- The span stands in the trace, under whatever attributes. -/
def Contains (t : Trace) (span : Span) : Prop := ∃ shared, t.Holds shared span

theorem contains_of_mem {t : Trace} {s : PlacedSpan} (hs : s ∈ t.spans) : t.Contains s.span :=
  ⟨_, mem_spans_iff.1 hs⟩

theorem exists_mem_of_contains {t : Trace} {span : Span} (h : t.Contains span) :
    ∃ s ∈ t.spans, s.span = span := by
  obtain ⟨shared, hspan⟩ := h
  exact ⟨⟨⟨shared⟩, span⟩, mem_spans_iff.2 hspan, rfl⟩

/-- The times of the spans in a trace, in nanoseconds after the epoch, as unbounded integers. -/
def times (t : Trace) (time : Span → UInt64) : Set ℤ :=
  {n | ∃ span, t.Contains span ∧ ((time span).toNat : ℤ) = n}

theorem mem_times {t : Trace} {s : PlacedSpan} (hs : s ∈ t.spans) (time : Span → UInt64) :
    ((time s.span).toNat : ℤ) ∈ t.times time :=
  ⟨_, contains_of_mem hs, rfl⟩

theorem forall_mem_times_iff {t : Trace} {time : Span → UInt64} {p : ℤ → Prop} :
    (∀ n ∈ t.times time, p n) ↔ ∀ s ∈ t.spans, p (time s.span).toNat := by
  constructor
  · intro h s hs
    exact h _ (mem_times hs time)
  · rintro h n ⟨span, hspan, rfl⟩
    obtain ⟨s, hs, rfl⟩ := exists_mem_of_contains hspan
    exact h s hs

theorem spans_ne_nil_iff {t : Trace} : t.spans ≠ [] ↔ ∃ span, t.Contains span := by
  constructor
  · intro h
    obtain ⟨s, hs⟩ := List.exists_mem_of_ne_nil t.spans h
    exact ⟨s.span, contains_of_mem hs⟩
  · rintro ⟨span, hspan⟩
    obtain ⟨s, hs, -⟩ := exists_mem_of_contains hspan
    exact List.ne_nil_of_mem hs

section Folds

variable {t : Trace} (h : t.spans ≠ [])
include h

theorem isLeast_earliestStart : IsLeast (t.times Span.start) (earliestStart t.spans) := by
  obtain ⟨hmem, hlower⟩ :=
    isLeast_foldl_min (fun s : PlacedSpan => s.span.start.toNat) t.spans 18446744073709551615
  refine ⟨?_, forall_mem_times_iff.2 fun s hs => Int.ofNat_le.2 (hlower (.inr ⟨s, hs, rfl⟩))⟩
  obtain ⟨s, hs, heq⟩ : ∃ s ∈ t.spans, s.span.start.toNat = earliestStart t.spans := by
    rcases hmem with hinit | hfound
    · -- every start is at most the initial value, so a fold that stays there has met it
      obtain ⟨s, hs⟩ := List.exists_mem_of_ne_nil t.spans h
      have hle := hlower (.inr ⟨s, hs, rfl⟩)
      have hlt := s.span.start.toNat_lt
      exact ⟨s, hs, by rw [earliestStart]; omega⟩
    · exact hfound
  exact heq ▸ mem_times hs Span.start

theorem isGreatest_latestStop : IsGreatest (t.times Span.stop) (latestStop t.spans) := by
  obtain ⟨hmem, hupper⟩ := isGreatest_foldl_max (fun s : PlacedSpan => s.span.stop.toNat) t.spans 0
  refine ⟨?_, forall_mem_times_iff.2 fun s hs => Int.ofNat_le.2 (hupper (.inr ⟨s, hs, rfl⟩))⟩
  obtain ⟨s, hs, heq⟩ : ∃ s ∈ t.spans, s.span.stop.toNat = latestStop t.spans := by
    rcases hmem with hinit | hfound
    · obtain ⟨s, hs⟩ := List.exists_mem_of_ne_nil t.spans h
      have hle := hupper (.inr ⟨s, hs, rfl⟩)
      exact ⟨s, hs, by rw [latestStop]; omega⟩
    · exact hfound
  exact heq ▸ mem_times hs Span.stop

end Folds

/-- The time from an instant to another, none if that comes before it, within 63 bits. -/
def lasting (earliest latest : ℤ) : Duration := ⟨min (2 ^ 63 - 1) (max 0 (latest - earliest))⟩

theorem duration_of_no_spans {t : Trace} (h : t.spans = []) : t.duration = Duration.zero := by
  rw [duration, h]
  rfl

/-- No span ends after the greatest timestamp, so a trace that starts there takes no time. -/
theorem duration_eq {t : Trace} {earliest latest : ℤ}
    (hearliest : IsLeast (t.times Span.start) earliest)
    (hlatest : IsGreatest (t.times Span.stop) latest) :
    t.duration = lasting earliest latest := by
  obtain ⟨span, hspan, hstopped⟩ := hlatest.1
  have hspans := spans_ne_nil_iff.2 ⟨span, hspan⟩
  have hstart := (isLeast_earliestStart hspans).unique hearliest
  have hstop := (isGreatest_latestStop hspans).unique hlatest
  have hlt := span.stop.toNat_lt
  simp only [duration, lasting, Duration.zero, Duration.greatest64]
  split
  · congr 1
    omega
  · congr 1
    omega

theorem exists_bounds {t : Trace} (h : t.spans ≠ []) : ∃ earliest latest,
    IsLeast (t.times Span.start) earliest ∧ IsGreatest (t.times Span.stop) latest ∧
      t.duration = lasting earliest latest :=
  ⟨_, _, isLeast_earliestStart h, isGreatest_latestStop h,
    duration_eq (isLeast_earliestStart h) (isGreatest_latestStop h)⟩

section Same

variable {t t' : Trace} (h : ∀ span, t.Contains span ↔ t'.Contains span)
include h

theorem times_congr (time : Span → UInt64) : t.times time = t'.times time := by
  simp only [times, h]

/-- Traces that hold the same spans take the same time. -/
theorem duration_congr : t.duration = t'.duration := by
  have hspans : t.spans ≠ [] ↔ t'.spans ≠ [] := by
    rw [spans_ne_nil_iff, spans_ne_nil_iff]
    exact exists_congr h
  by_cases hnil : t.spans = []
  · rw [duration_of_no_spans hnil, duration_of_no_spans (not_ne_iff.1 fun h' => hspans.2 h' hnil)]
  · obtain ⟨earliest, latest, hearliest, hlatest, hduration⟩ := exists_bounds hnil
    rw [times_congr h] at hearliest hlatest
    rw [hduration, duration_eq hearliest hlatest]

end Same

/-- Spans keep their attributes when they are rearranged, which is more than the time asks for. -/
theorem duration_rearranged {groups groups' : List ResourceSpans} (h : Rearranged groups groups') :
    (⟨groups⟩ : Trace).duration = (⟨groups'⟩ : Trace).duration :=
  duration_congr fun span => exists_congr fun shared => holds_iff_of_rearranged h shared span

theorem span_duration_le {t : Trace} {span : Span} (h : t.Contains span) :
    span.duration ≤ t.duration := by
  obtain ⟨earliest, latest, hearliest, hlatest, hduration⟩ :=
    exists_bounds (spans_ne_nil_iff.2 ⟨span, h⟩)
  have hstart : earliest ≤ span.start.toNat := hearliest.2 ⟨span, h, rfl⟩
  have hstop : span.stop.toNat ≤ latest := hlatest.2 ⟨span, h, rfl⟩
  rw [hduration]
  show max (-2 ^ 63) (min (2 ^ 63 - 1) _) ≤ min (2 ^ 63 - 1) (max 0 (latest - earliest))
  omega

/-- A trace lasts from the earliest start of its spans to the latest end, no time if that comes
first and at most as long as 63 bits count, and not at all without spans. The order, the groups and
the number in which its spans occur do not matter, nor do the attributes of their resources, and
none of them lasts longer, each from its start to its end within 64 bits. -/
theorem duration_envelope (t : Trace) :
    ((∀ span, ¬t.Contains span) → t.duration = Duration.zero) ∧
    ((∃ span, t.Contains span) → ∃ earliest latest, IsLeast (t.times Span.start) earliest ∧
      IsGreatest (t.times Span.stop) latest ∧
      t.duration = ⟨min (2 ^ 63 - 1) (max 0 (latest - earliest))⟩) ∧
    (∀ groups, Rearranged t.resources groups → (⟨groups⟩ : Trace).duration = t.duration) ∧
    (∀ t' : Trace, (∀ span, t.Contains span ↔ t'.Contains span) → t'.duration = t.duration) ∧
    ∀ span, t.Contains span →
      span.duration = ⟨max (-2 ^ 63) (min (2 ^ 63 - 1) (span.stop.toNat - span.start.toNat))⟩ ∧
      span.duration ≤ t.duration := by
  refine ⟨fun hnone => ?_, fun hsome => exists_bounds (spans_ne_nil_iff.2 hsome),
    fun _ h => (duration_rearranged h).symm, fun _ h => (duration_congr h).symm,
    fun _ h => ⟨rfl, span_duration_le h⟩⟩
  refine duration_of_no_spans (not_ne_iff.1 fun hspans => ?_)
  obtain ⟨span, hspan⟩ := spans_ne_nil_iff.1 hspans
  exact hnone span hspan

def timedSpan (start stop : UInt64) : Span := { (default : Span) with start, stop }

/-- A span that ends before it starts, and one of the greatest timestamp in another group. -/
def spread : Trace :=
  ⟨[⟨default, [⟨default, [timedSpan 5 3]⟩]⟩, ⟨default, [⟨default, []⟩,
    ⟨default, [timedSpan 18446744073709551615 18446744073709551615]⟩]⟩]⟩

/-- The same spans in one group, whatever resource they are of. -/
def gathered (shared : Attributes) : Trace :=
  ⟨[⟨⟨shared⟩, [⟨default, [timedSpan 18446744073709551615 18446744073709551615,
    timedSpan 5 3]⟩]⟩]⟩

theorem rearranged_spread : Rearranged spread.resources (gathered default).resources := by
  refine .trans (.merged rfl) (.regrouped ?_)
  refine .trans (.reordered (List.reverse_perm _).symm) ?_
  refine .trans .merged ?_
  exact .merged

theorem duration_envelope_spread :
    (∃ span, spread.Contains span) ∧
    (∃ earliest latest, IsLeast (spread.times Span.start) earliest ∧
      IsGreatest (spread.times Span.stop) latest ∧
      spread.duration = ⟨min (2 ^ 63 - 1) (max 0 (latest - earliest))⟩) ∧
    (gathered default).duration = spread.duration ∧
    (gathered ⟨[("cloud.region", .string "eu")]⟩).duration = spread.duration ∧
    (timedSpan 5 3).duration = ⟨-2⟩ ∧ (timedSpan 5 3).duration ≤ spread.duration ∧
    (⟨[]⟩ : Trace).duration = Duration.zero := by
  obtain ⟨-, hbounds, hrearranged, hcongr, hspans⟩ := duration_envelope spread
  obtain ⟨hnone, -⟩ := duration_envelope ⟨[]⟩
  have hskewed : spread.Contains (timedSpan 5 3) :=
    ⟨_, _, List.mem_cons_self, rfl, _, List.mem_cons_self, List.mem_cons_self⟩
  have hsame (span : Span) : spread.Contains span ↔
      (gathered ⟨[("cloud.region", .string "eu")]⟩).Contains span := by
    simp [Contains, Holds, spread, gathered, or_comm, exists_or]
  have hempty (span : Span) : ¬(⟨[]⟩ : Trace).Contains span := by simp [Contains, Holds]
  obtain ⟨hlength, hle⟩ := hspans _ hskewed
  exact ⟨⟨_, hskewed⟩, hbounds ⟨_, hskewed⟩, hrearranged _ rearranged_spread, hcongr _ hsame,
    hlength, hle, hnone hempty⟩

end Trace

end TraceSearch
