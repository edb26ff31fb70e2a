import TraceSearch.Query.Predicate

/-!
# The dimensions of a query

A query is checked through the list of its constrained dimensions. Main fact: a dimension that is
left out of the list would have held anyway, so a query accepts a trace exactly if the trace
satisfies all six dimensions.
-/

namespace TraceSearch

namespace Trace

variable (t : Trace)

@[simp] theorem matchesService_empty : t.matchesService "" = true := by simp [matchesService]

@[simp] theorem matchesOperation_empty : t.matchesOperation "" = true := by simp [matchesOperation]

@[simp] theorem matchesDurationMin_zero : t.matchesDurationMin Duration.zero = true := by
  simp [matchesDurationMin]

@[simp] theorem matchesDurationMax_zero : t.matchesDurationMax Duration.zero = true := by
  simp [matchesDurationMax]

theorem matchesTimeRange_none {least greatest : Option Instant}
    (h : (least.isNone && greatest.isNone) = true) : t.matchesTimeRange least greatest = true := by
  rw [matchesTimeRange, h, Bool.true_or]

theorem within_iff {least greatest : Option Instant} {time : Instant} :
    within least greatest time = true ↔ (∀ m ∈ least, m ≤ time) ∧ ∀ m ∈ greatest, time ≤ m := by
  simp [within, Option.all_eq_true]

theorem matchesAttributes_empty {attributes : Attributes} (h : attributes.isEmpty = true) :
    t.matchesAttributes attributes = true := by
  have hentries : attributes.entries = [] := List.isEmpty_iff.1 h
  rw [matchesAttributes, hentries, List.all_nil]

end Trace

namespace Query

/-- A dimension may be left out where it holds of the trace. -/
theorem all_unless {unconstrained : Prop} [Decidable unconstrained] {p : Predicate} {t : Trace}
    (h : unconstrained → p.holds t = true) :
    (if unconstrained then [] else [p]).all (Predicate.holds t) = p.holds t := by
  by_cases hu : unconstrained
  · rw [if_pos hu, List.all_nil, h hu]
  · rw [if_neg hu, List.all_cons, List.all_nil, Bool.and_true]

theorem accepts_iff (q : Query) (t : Trace) :
    q.accepts t = true ↔
      t.matchesService q.service = true ∧ t.matchesOperation q.operation = true ∧
        t.matchesDurationMin q.durationMin = true ∧ t.matchesDurationMax q.durationMax = true ∧
        t.matchesTimeRange q.startMin q.startMax = true ∧
        t.matchesAttributes q.attributes = true := by
  have hservice : q.service = "" → (Predicate.service q.service).holds t = true :=
    fun h => h ▸ t.matchesService_empty
  have hoperation : q.operation = "" → (Predicate.operation q.operation).holds t = true :=
    fun h => h ▸ t.matchesOperation_empty
  have hleast : q.durationMin = Duration.zero →
      (Predicate.durationMin q.durationMin).holds t = true := fun h => h ▸ t.matchesDurationMin_zero
  have hgreatest : q.durationMax = Duration.zero →
      (Predicate.durationMax q.durationMax).holds t = true := fun h => h ▸ t.matchesDurationMax_zero
  have htime : (q.startMin.isNone && q.startMax.isNone) = true →
      (Predicate.timeRange q.startMin q.startMax).holds t = true := t.matchesTimeRange_none
  have hattributes : q.attributes.isEmpty = true →
      (Predicate.attributes q.attributes).holds t = true := t.matchesAttributes_empty
  rw [accepts, predicates, List.all_append, List.all_append, List.all_append, List.all_append,
    List.all_append, all_unless hservice, all_unless hoperation, all_unless hleast,
    all_unless hgreatest, all_unless htime, all_unless hattributes]
  simp only [Predicate.holds, Bool.and_eq_true, and_assoc]

/-- The list of constrained dimensions gives the verdict of all six, whatever the query: the bounds
may be negative or cross, and the trace may have no spans. -/
theorem accepts_eq_conjunction (q : Query) (t : Trace) :
    q.accepts t =
      (t.matchesService q.service && t.matchesOperation q.operation &&
        t.matchesDurationMin q.durationMin && t.matchesDurationMax q.durationMax &&
        t.matchesTimeRange q.startMin q.startMax && t.matchesAttributes q.attributes) := by
  rw [Bool.eq_iff_iff, accepts_iff]
  simp only [Bool.and_eq_true, and_assoc]

end Query

end TraceSearch
