import Mathlib.Algebra.Order.Ring.Nat
import TraceSearch.Corpus.Lookup

/-!
# Positions of spans

A position counts the spans of a trace from its first resource to its last, across scopes and
whether or not groups are empty. Main facts: `getElem?_spans_iff`, the span at a position is the one
that as many spans stand before, and `span_eq_ok_iff`, which looks it up in a corpus.
-/

namespace TraceSearch

/-- An element of a list stands after as many others as its index says. -/
theorem getElem?_iff_append {α : Type} {xs : List α} {index : ℕ} {x : α} :
    xs[index]? = some x ↔ ∃ front back, xs = front ++ x :: back ∧ front.length = index := by
  constructor
  · intro h
    obtain ⟨hlt, rfl⟩ := List.getElem?_eq_some_iff.1 h
    refine ⟨xs.take index, xs.drop (index + 1), ?_, ?_⟩
    · rw [List.getElem_cons_drop, List.take_append_drop]
    · rw [List.length_take, Nat.min_eq_left (Nat.le_of_lt hlt)]
  · rintro ⟨front, back, rfl, rfl⟩
    rw [List.getElem?_append_right (Nat.le_refl _), Nat.sub_self, List.getElem?_cons_zero]

/-- An element of a flattened list stands after all elements of the lists before its own. -/
theorem getElem?_flatMap_iff {α β : Type} {f : α → List β} {xs : List α} {index : ℕ} {y : β} :
    (xs.flatMap f)[index]? = some y ↔
      ∃ front x back i, xs = front ++ x :: back ∧ (f x)[i]? = some y ∧
        (front.map fun x => (f x).length).sum + i = index := by
  constructor
  · intro h
    -- an index past the first list counts on in the others
    induction xs generalizing index with
    | nil => cases h
    | cons x xs ih =>
      rw [List.flatMap_cons, List.getElem?_append] at h
      by_cases hlt : index < (f x).length
      · rw [if_pos hlt] at h
        exact ⟨[], x, xs, index, rfl, h, Nat.zero_add index⟩
      · rw [if_neg hlt] at h
        obtain ⟨front, z, back, i, rfl, hi, hsum⟩ := ih h
        refine ⟨x :: front, z, back, i, rfl, hi, ?_⟩
        rw [List.map_cons, List.sum_cons]
        omega
  · rintro ⟨front, x, back, i, rfl, hi, rfl⟩
    have hlt : i < (f x).length := (List.getElem?_eq_some_iff.1 hi).1
    rw [List.flatMap_append, List.flatMap_cons, ← List.length_flatMap,
      List.getElem?_append_right (Nat.le_add_right _ _), Nat.add_sub_cancel_left,
      List.getElem?_append_left hlt, hi]

namespace Trace

/-- The span stands in the trace under its resource, after so many others: those of the resources
before its own, those of the scopes before its own, and those before it in its scope. -/
inductive StandsAfter : Trace → ℕ → PlacedSpan → Prop where
  | intro {groups laterGroups : List ResourceSpans} {resource : Resource}
      {scopes laterScopes : List ScopeSpans} {scope : Scope} {spans laterSpans : List Span}
      {span : Span} :
      StandsAfter
        ⟨groups ++ ⟨resource, scopes ++ ⟨scope, spans ++ span :: laterSpans⟩ :: laterScopes⟩ ::
          laterGroups⟩
        ((groups.map ResourceSpans.spanCount).sum +
          ((scopes.map fun scope => scope.spans.length).sum + spans.length))
        ⟨resource, span⟩

theorem getElem?_placed_iff {group : ResourceSpans} {index : ℕ} {s : PlacedSpan} :
    group.placed[index]? = some s ↔
      ∃ scopes scope laterScopes spans laterSpans,
        group = ⟨s.resource, scopes ++ ⟨scope, spans ++ s.span :: laterSpans⟩ :: laterScopes⟩ ∧
          (scopes.map fun scope => scope.spans.length).sum + spans.length = index := by
  obtain ⟨resource, allScopes⟩ := group
  obtain ⟨owner, span⟩ := s
  simp only [ResourceSpans.placed, getElem?_flatMap_iff, List.length_map, List.getElem?_map,
    Option.map_eq_some_iff, PlacedSpan.mk.injEq, ResourceSpans.mk.injEq]
  constructor
  · rintro ⟨scopes, ⟨scope, allSpans⟩, laterScopes, i, rfl, ⟨held, hheld, rfl, rfl⟩, hsum⟩
    obtain ⟨spans, laterSpans, rfl, rfl⟩ := getElem?_iff_append.1 hheld
    exact ⟨scopes, scope, laterScopes, spans, laterSpans, ⟨rfl, rfl⟩, hsum⟩
  · rintro ⟨scopes, scope, laterScopes, spans, laterSpans, ⟨rfl, rfl⟩, hsum⟩
    have hheld : (spans ++ span :: laterSpans)[spans.length]? = some span :=
      getElem?_iff_append.2 ⟨spans, laterSpans, rfl, rfl⟩
    exact ⟨scopes, _, laterScopes, spans.length, rfl, ⟨span, hheld, rfl, rfl⟩, hsum⟩

/-- A position names the span that as many others stand before. -/
theorem getElem?_spans_iff {t : Trace} {index : ℕ} {s : PlacedSpan} :
    t.spans[index]? = some s ↔ t.StandsAfter index s := by
  simp only [spans, getElem?_flatMap_iff, ResourceSpans.length_placed, getElem?_placed_iff]
  constructor
  · obtain ⟨groups⟩ := t
    rintro ⟨front, group, back, i, rfl, ⟨scopes, scope, laterScopes, spans, laterSpans, rfl, rfl⟩,
      rfl⟩
    exact .intro
  · rintro ⟨⟩
    exact ⟨_, _, _, _, rfl, ⟨_, _, _, _, _, rfl, rfl⟩, rfl⟩

end Trace

namespace Corpus

theorem span_eq_ok_iff {corpus : List Trace} {traceIndex index : ℕ} {s : PlacedSpan} :
    span corpus traceIndex index = .ok s ↔
      ∃ t, corpus[traceIndex]? = some t ∧ t.StandsAfter index s := by
  unfold span trace
  cases corpus[traceIndex]? with
  | none => simp
  | some t =>
    simp only [Option.some.injEq, exists_eq_left', ← Trace.getElem?_spans_iff]
    cases t.spans[index]? <;> simp

end Corpus

end TraceSearch
