import Mathlib.Control.Monad.Basic
import TraceSearch.Proofs.Intent.Mapping
import TraceSearch.Query.Predicate

/-!
# The constraints of an intent reach its query

A query has no place for a constraint that is absent: it holds an empty name or a zero duration
instead, so what an intent states has to be told from these. Main facts:
`dimensions_of_validated`, the query of a validated intent constrains the dimensions of which the
intent states a part, except that a duration literal of value zero is no bound, and
`zero_bound_is_no_constraint`.
-/

namespace TraceSearch

namespace Intent

/-- The dimensions of which an intent states a part, in the order in which a query checks them. -/
def dimensions (i : Intent) : List String :=
  (if i.service.isSome then ["service"] else []) ++
    (if i.operation.isSome then ["operation"] else []) ++
    (if i.minDuration.isSome then ["min_duration"] else []) ++
    (if i.maxDuration.isSome then ["max_duration"] else []) ++
    (if i.startTime.isSome || i.endTime.isSome then ["time_range"] else []) ++
    (if !i.tags.entries.isEmpty then ["attributes"] else [])

theorem dimensions_eq_nil_iff {i : Intent} : i.dimensions = [] ↔ i.isEmpty = true := by
  simp [dimensions, isEmpty, and_assoc]

/-- A duration literal, unless its value is zero. -/
def boundPart (literal : Option String) : Option String :=
  if duration? literal = some Duration.zero then none else literal

/-- An intent without the duration literals whose value is zero. -/
def withoutZeroBounds (i : Intent) : Intent :=
  { i with minDuration := boundPart i.minDuration, maxDuration := boundPart i.maxDuration }

section Parts

variable {part : Part}

theorem duration?_of_boundPart {literal : Option String} (h : boundPart literal = none) :
    (duration? literal).getD Duration.zero = Duration.zero := by
  unfold boundPart at h
  split at h
  · rename_i hzero
    rw [hzero]
    rfl
  · rw [h]
    rfl

theorem boundPart_eq_none_iff {literal : Option String}
    (h : checkDuration part literal = .ok (duration? literal)) :
    boundPart literal = none ↔ (duration? literal).getD Duration.zero = Duration.zero := by
  refine ⟨duration?_of_boundPart, fun hzero => ?_⟩
  cases hd : duration? literal with
  | some d =>
    rw [hd, Option.getD_some] at hzero
    rw [boundPart, if_pos (by rw [hd, hzero])]
  | none =>
    -- a literal that is present has passed the check with the duration it denotes
    cases literal with
    | none => rfl
    | some text =>
      obtain ⟨d, hparsed⟩ := duration?_of_checkDuration h
      rw [hd] at hparsed
      contradiction

theorem getD_text_eq_empty_iff {text : Option String} (h : checkText part text = .ok ()) :
    text.getD "" = "" ↔ text = none := by
  constructor
  · exact eq_none_of_getD_eq_empty (ne_empty_of_checkText h)
  · intro hnone
    rw [hnone]
    rfl

end Parts

/-- A dimension that is left out where it is unconstrained is named where it is not. -/
theorem map_name_unless {unconstrained : Prop} [Decidable unconstrained] {stated : Bool}
    (h : unconstrained ↔ stated = false) (p : Predicate) :
    (if unconstrained then [] else [p]).map Predicate.name = if stated then [p.name] else [] := by
  cases stated with
  | false =>
    have hu : unconstrained := h.2 rfl
    simp [hu]
  | true =>
    have hu : ¬unconstrained := fun hu => Bool.noConfusion (h.1 hu)
    simp [hu]

theorem names_query {i : Intent} (h : Validated i) :
    i.query.predicates.map Predicate.name = i.withoutZeroBounds.dimensions := by
  have hservice : i.query.service = "" ↔ i.service.isSome = false := by
    rw [Option.isSome_eq_false_iff, Option.isNone_iff_eq_none]
    exact getD_text_eq_empty_iff h.service
  have hoperation : i.query.operation = "" ↔ i.operation.isSome = false := by
    rw [Option.isSome_eq_false_iff, Option.isNone_iff_eq_none]
    exact getD_text_eq_empty_iff h.operation
  have hmin : i.query.durationMin = Duration.zero ↔ (boundPart i.minDuration).isSome = false := by
    rw [Option.isSome_eq_false_iff, Option.isNone_iff_eq_none]
    exact (boundPart_eq_none_iff h.minDuration).symm
  have hmax : i.query.durationMax = Duration.zero ↔ (boundPart i.maxDuration).isSome = false := by
    rw [Option.isSome_eq_false_iff, Option.isNone_iff_eq_none]
    exact (boundPart_eq_none_iff h.maxDuration).symm
  have htime : (i.query.startMin.isNone && i.query.startMax.isNone) = true ↔
      (i.startTime.isSome || i.endTime.isSome) = false := by
    rw [Bool.and_eq_true, Option.isNone_iff_eq_none, Option.isNone_iff_eq_none,
      Bool.or_eq_false_iff, Option.isSome_eq_false_iff, Option.isSome_eq_false_iff,
      Option.isNone_iff_eq_none, Option.isNone_iff_eq_none]
    exact and_congr (time?_eq_none_iff h.startTime) (time?_eq_none_iff h.endTime)
  have hattributes : i.query.attributes.isEmpty = true ↔ (!i.tags.entries.isEmpty) = false := by
    have hentries := Attributes.entries_ofStrings i.tags.nodup_keys
    rw [Attributes.isEmpty, query, hentries, List.isEmpty_map, Bool.not_eq_false']
  unfold Query.predicates dimensions
  simp only [List.map_append, map_name_unless hservice, map_name_unless hoperation,
    map_name_unless hmin, map_name_unless hmax, map_name_unless htime, map_name_unless hattributes]
  rfl

theorem query_eq_unconstrained {i : Intent} (h : i.withoutZeroBounds.isEmpty = true) :
    i.query = Query.unconstrained := by
  have hempty := (isEmpty_iff _).1 h
  simp only [withoutZeroBounds, empty, Intent.mk.injEq] at hempty
  obtain ⟨hservice, hoperation, hmin, hmax, hstart, hend, htags⟩ := hempty
  rw [query, hservice, hoperation, duration?_of_boundPart hmin, duration?_of_boundPart hmax, hstart,
    hend, htags]
  rfl

/-- No constraint of a validated intent is dropped but a duration bound of zero: the query
constrains exactly the dimensions that the intent states without its duration literals of value
zero, and it is the unconstrained query if nothing else is stated. -/
theorem dimensions_of_validated {i : Intent} (h : i.validate = .ok ()) :
    ∃ q, Query.ofIntent i = .ok q ∧
      q.predicates.map Predicate.name = i.withoutZeroBounds.dimensions ∧
      (q = Query.unconstrained ↔ i.withoutZeroBounds.isEmpty = true) := by
  have hvalidated := validated h
  have hnames := names_query hvalidated
  refine ⟨i.query, ofIntent_of_validated hvalidated, hnames, ?_, query_eq_unconstrained⟩
  intro hquery
  rw [hquery] at hnames
  exact dimensions_eq_nil_iff.1 hnames.symm

/-- An intent with a lower bound of less than a nanosecond, an upper bound and a tag. -/
def barelyBounded : Intent :=
  { empty with
    minDuration := some "0.4ns"
    maxDuration := some "1m30s"
    endTime := some "2024-01-01T12:00:00Z"
    tags := ⟨[("http.method", "GET")], List.pairwise_singleton _ _⟩ }

theorem dimensions_of_validated_barelyBounded :
    barelyBounded.validate = .ok () ∧
      ∃ q, Query.ofIntent barelyBounded = .ok q ∧
        q.predicates.map Predicate.name = ["max_duration", "time_range", "attributes"] ∧
        q ≠ Query.unconstrained := by
  have hvalid : barelyBounded.validate = .ok () := by decide +kernel
  have hdimensions : barelyBounded.withoutZeroBounds.dimensions =
      ["max_duration", "time_range", "attributes"] := by decide +kernel
  have hstated : barelyBounded.withoutZeroBounds.isEmpty = false := by decide +kernel
  obtain ⟨q, hq, hnames, hdefault⟩ := dimensions_of_validated hvalid
  refine ⟨hvalid, q, hq, hnames.trans hdimensions, fun h => ?_⟩
  rw [hdefault.1 h] at hstated
  contradiction

/-- An intent that asks for traces with a span that takes no time. -/
def instantaneous : Intent := { empty with maxDuration := some "0s" }

/-- The bound passes validation and is stated, and the query is the one without constraints. -/
theorem zero_bound_is_no_constraint :
    instantaneous.validate = .ok () ∧ instantaneous.maxDuration.isSome = true ∧
      instantaneous.isEmpty = false ∧
      ∃ q, Query.ofIntent instantaneous = .ok q ∧ "max_duration" ∉ q.predicates.map Predicate.name ∧
        q = Query.unconstrained := by
  have hvalid : instantaneous.validate = .ok () := by decide +kernel
  have hzero : instantaneous.withoutZeroBounds.isEmpty = true := by decide +kernel
  have hquery := query_eq_unconstrained hzero
  refine ⟨hvalid, rfl, rfl, instantaneous.query, ofIntent_of_validated (validated hvalid), ?_,
    hquery⟩
  rw [hquery]
  exact List.not_mem_nil

end Intent

end TraceSearch
