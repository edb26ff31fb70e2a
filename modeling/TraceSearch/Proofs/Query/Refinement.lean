import Mathlib.Data.List.Basic
import TraceSearch.Proofs.Query.Dimensions

/-!
# Narrower queries

One query refines another when every dimension that the wider one constrains is constrained at least
as tightly. An empty name, a zero duration, an absent bound and an empty set of attributes are no
constraint, so they are the widest whatever their place in the order. Main fact:
`accepts_of_refines`, a trace that the narrower query accepts is accepted by the wider one, also
with further spans.
-/

namespace TraceSearch

/-- A dimension asks for some span unless it is unconstrained: it stays satisfied with more spans
and with a weaker test. -/
theorem any_span_of_imp {spans spans' : List PlacedSpan} (hspans : spans ⊆ spans')
    {free free' : Bool} {p p' : PlacedSpan → Bool} (hfree : free = true → free' = true)
    (hp : ∀ s, p s = true → free' = true ∨ p' s = true) (h : (free || spans.any p) = true) :
    (free' || spans'.any p') = true := by
  rw [Bool.or_eq_true, List.any_eq_true] at h ⊢
  rcases h with h | ⟨s, hs, h⟩
  · exact .inl (hfree h)
  · exact (hp s h).imp_right fun h => ⟨s, hspans hs, h⟩

namespace Query

/-- Every constraint of the wider query is met by one of the narrower that is at least as tight. -/
structure Refines (narrow wide : Query) : Prop where
  service : wide.service = "" ∨ wide.service = narrow.service
  operation : wide.operation = "" ∨ wide.operation = narrow.operation
  durationMin : wide.durationMin = Duration.zero ∨
    narrow.durationMin ≠ Duration.zero ∧ wide.durationMin ≤ narrow.durationMin
  durationMax : wide.durationMax = Duration.zero ∨
    narrow.durationMax ≠ Duration.zero ∧ narrow.durationMax ≤ wide.durationMax
  startMin : ∀ m ∈ wide.startMin, ∃ m' ∈ narrow.startMin, m ≤ m'
  startMax : ∀ m ∈ wide.startMax, ∃ m' ∈ narrow.startMax, m' ≤ m
  attributes : wide.attributes.entries ⊆ narrow.attributes.entries

theorem Refines.refl (q : Query) : q.Refines q where
  service := .inr rfl
  operation := .inr rfl
  durationMin := Decidable.or_iff_not_imp_left.2 fun h => ⟨h, Int.le_refl _⟩
  durationMax := Decidable.or_iff_not_imp_left.2 fun h => ⟨h, Int.le_refl _⟩
  startMin := fun m hm => ⟨m, hm, (Instant.le_total m m).elim id id⟩
  startMax := fun m hm => ⟨m, hm, (Instant.le_total m m).elim id id⟩
  attributes := List.Subset.refl _

section Dimensions

variable {narrow wide : Query} (hq : narrow.Refines wide) {t t' : Trace} (ht : t.spans ⊆ t'.spans)
include hq ht

theorem Refines.matchesService (h : t.matchesService narrow.service = true) :
    t'.matchesService wide.service = true := by
  rcases hq.service with hfree | heq
  · rw [hfree, Trace.matchesService_empty]
  · rw [heq]
    exact any_span_of_imp ht id (fun _ hs => .inr hs) h

theorem Refines.matchesOperation (h : t.matchesOperation narrow.operation = true) :
    t'.matchesOperation wide.operation = true := by
  rcases hq.operation with hfree | heq
  · rw [hfree, Trace.matchesOperation_empty]
  · rw [heq]
    exact any_span_of_imp ht id (fun _ hs => .inr hs) h

theorem Refines.matchesDurationMin (h : t.matchesDurationMin narrow.durationMin = true) :
    t'.matchesDurationMin wide.durationMin = true := by
  rcases hq.durationMin with hfree | ⟨hbound, hle⟩
  · rw [hfree, Trace.matchesDurationMin_zero]
  · refine any_span_of_imp ht (fun hzero => absurd (of_decide_eq_true hzero) hbound) ?_ h
    intro s hs
    exact .inr (decide_eq_true (Int.le_trans hle (of_decide_eq_true hs)))

theorem Refines.matchesDurationMax (h : t.matchesDurationMax narrow.durationMax = true) :
    t'.matchesDurationMax wide.durationMax = true := by
  rcases hq.durationMax with hfree | ⟨hbound, hle⟩
  · rw [hfree, Trace.matchesDurationMax_zero]
  · refine any_span_of_imp ht (fun hzero => absurd (of_decide_eq_true hzero) hbound) ?_ h
    intro s hs
    exact .inr (decide_eq_true (Int.le_trans (of_decide_eq_true hs) hle))

/-- Both bounds are asked of the same span. -/
theorem Refines.matchesTimeRange
    (h : t.matchesTimeRange narrow.startMin narrow.startMax = true) :
    t'.matchesTimeRange wide.startMin wide.startMax = true := by
  have hmin := hq.startMin
  have hmax := hq.startMax
  refine any_span_of_imp ht ?_ ?_ h
  · intro hfree
    rw [Bool.and_eq_true, Option.isNone_iff_eq_none, Option.isNone_iff_eq_none] at hfree ⊢
    rw [hfree.1] at hmin
    rw [hfree.2] at hmax
    constructor
    · exact Option.eq_none_iff_forall_not_mem.2 fun m hm => by simpa using hmin m hm
    · exact Option.eq_none_iff_forall_not_mem.2 fun m hm => by simpa using hmax m hm
  · intro s hs
    rw [Trace.within_iff] at hs
    refine .inr (Trace.within_iff.2 ⟨fun m hm => ?_, fun m hm => ?_⟩)
    · obtain ⟨m', hm', hle⟩ := hmin m hm
      exact Instant.le_trans hle (hs.1 m' hm')
    · obtain ⟨m', hm', hle⟩ := hmax m hm
      exact Instant.le_trans (hs.2 m' hm') hle

theorem Refines.matchesAttributes (h : t.matchesAttributes narrow.attributes = true) :
    t'.matchesAttributes wide.attributes = true := by
  rw [Trace.matchesAttributes, List.all_eq_true] at h ⊢
  intro entry hentry
  have hspan := h entry (hq.attributes hentry)
  rw [List.any_eq_true] at hspan ⊢
  obtain ⟨s, hs, hcarries⟩ := hspan
  exact ⟨s, ht hs, hcarries⟩

/-- A narrower query accepts fewer traces, and a trace with more spans is accepted by more queries.
-/
theorem accepts_of_refines (h : narrow.accepts t = true) : wide.accepts t' = true := by
  rw [accepts_iff] at h ⊢
  obtain ⟨hservice, hoperation, hleast, hgreatest, htime, hattributes⟩ := h
  exact ⟨hq.matchesService ht hservice, hq.matchesOperation ht hoperation,
    hq.matchesDurationMin ht hleast, hq.matchesDurationMax ht hgreatest,
    hq.matchesTimeRange ht htime, hq.matchesAttributes ht hattributes⟩

end Dimensions

end Query

end TraceSearch
