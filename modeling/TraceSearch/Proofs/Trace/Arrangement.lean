import Mathlib.Data.List.Perm.Basic
import TraceSearch.Trace.View

/-!
# How the spans of a trace are arranged

A span stands in a trace under the attributes of its resource, in some group of some scope. Spans
may be put in another order, be repeated, and be moved between the scopes of a resource and between
groups of equal attributes. Main fact: `holds_iff_of_rearranged`, none of this changes which spans a
trace holds under which attributes.
-/

namespace TraceSearch

namespace Trace

/-- The span stands in the trace under the attributes of its resource, wherever it is grouped. -/
def Holds (t : Trace) (attributes : Attributes) (span : Span) : Prop :=
  ∃ group ∈ t.resources, group.resource.attributes = attributes ∧
    ∃ scope ∈ group.scopes, span ∈ scope.spans

theorem mem_spans_iff {t : Trace} {s : PlacedSpan} :
    s ∈ t.spans ↔ t.Holds s.resource.attributes s.span := by
  obtain ⟨⟨attributes⟩, span⟩ := s
  simp only [spans, ResourceSpans.placed, Holds, List.mem_flatMap, List.mem_map]
  constructor
  · rintro ⟨⟨resource, scopes⟩, hgroup, scope, hscope, held, hheld, heq⟩
    cases heq
    exact ⟨_, hgroup, rfl, scope, hscope, hheld⟩
  · rintro ⟨⟨⟨_⟩, scopes⟩, hgroup, rfl, scope, hscope, hspan⟩
    exact ⟨_, hgroup, scope, hscope, span, hspan, rfl⟩

theorem exists_span_iff {t : Trace} {p : Attributes → Span → Prop} :
    (∃ s ∈ t.spans, p s.resource.attributes s.span) ↔
      ∃ shared span, t.Holds shared span ∧ p shared span := by
  constructor
  · rintro ⟨s, hs, h⟩
    exact ⟨_, _, mem_spans_iff.1 hs, h⟩
  · rintro ⟨shared, span, hspan, h⟩
    exact ⟨⟨⟨shared⟩, span⟩, mem_spans_iff.2 hspan, h⟩

/-- Every span of the one trace also stands in the other, under the same attributes. -/
def Within (t t' : Trace) : Prop := ∀ attributes span, t.Holds attributes span →
  t'.Holds attributes span

theorem Within.spans_subset {t t' : Trace} (h : t.Within t') : t.spans ⊆ t'.spans := by
  intro s hs
  rw [mem_spans_iff] at hs ⊢
  exact h _ _ hs

end Trace

/-- Groups of scopes that hold the same spans in another arrangement: the groups in another order,
the spans of a group in another order and number, two groups in one, or without an empty group. -/
inductive Regrouped : List ScopeSpans → List ScopeSpans → Prop where
  | reordered {scopes scopes' : List ScopeSpans} (perm : scopes.Perm scopes') :
      Regrouped scopes scopes'
  | repeated {scope : Scope} {spans spans' : List Span} {rest : List ScopeSpans}
      (same : ∀ span, span ∈ spans ↔ span ∈ spans') :
      Regrouped (⟨scope, spans⟩ :: rest) (⟨scope, spans'⟩ :: rest)
  | merged {scope other : Scope} {spans more : List Span} {rest : List ScopeSpans} :
      Regrouped (⟨scope, spans⟩ :: ⟨other, more⟩ :: rest) (⟨scope, spans ++ more⟩ :: rest)
  | emptied {scope : Scope} {rest : List ScopeSpans} : Regrouped (⟨scope, []⟩ :: rest) rest
  | symm {scopes scopes' : List ScopeSpans} : Regrouped scopes scopes' → Regrouped scopes' scopes
  | trans {scopes scopes' scopes'' : List ScopeSpans} :
      Regrouped scopes scopes' → Regrouped scopes' scopes'' → Regrouped scopes scopes''

theorem exists_scope_iff_of_regrouped {scopes scopes' : List ScopeSpans}
    (h : Regrouped scopes scopes') (span : Span) :
    (∃ scope ∈ scopes, span ∈ scope.spans) ↔ ∃ scope ∈ scopes', span ∈ scope.spans := by
  induction h with
  | reordered perm => simp only [perm.mem_iff]
  | repeated same => simp only [List.exists_mem_cons_iff, same]
  | merged => simp only [List.exists_mem_cons_iff, List.mem_append, or_assoc]
  | emptied => simp only [List.exists_mem_cons_iff, List.not_mem_nil, false_or]
  | symm _ ih => exact ih.symm
  | trans _ _ ih ih' => exact ih.trans ih'

/-- Resource groups that hold the same spans in another arrangement: the groups in another order,
one of them regrouped by scope, two groups of equal attributes in one, or without an empty group. -/
inductive Rearranged : List ResourceSpans → List ResourceSpans → Prop where
  | reordered {groups groups' : List ResourceSpans} (perm : groups.Perm groups') :
      Rearranged groups groups'
  | regrouped {resource : Resource} {scopes scopes' : List ScopeSpans} {rest : List ResourceSpans}
      (inside : Regrouped scopes scopes') :
      Rearranged (⟨resource, scopes⟩ :: rest) (⟨resource, scopes'⟩ :: rest)
  | merged {resource other : Resource} {scopes more : List ScopeSpans} {rest : List ResourceSpans}
      (equal : resource.attributes = other.attributes) :
      Rearranged (⟨resource, scopes⟩ :: ⟨other, more⟩ :: rest) (⟨resource, scopes ++ more⟩ :: rest)
  | emptied {resource : Resource} {rest : List ResourceSpans} :
      Rearranged (⟨resource, []⟩ :: rest) rest
  | symm {groups groups' : List ResourceSpans} : Rearranged groups groups' →
      Rearranged groups' groups
  | trans {groups groups' groups'' : List ResourceSpans} :
      Rearranged groups groups' → Rearranged groups' groups'' → Rearranged groups groups''

theorem holds_iff_of_rearranged {groups groups' : List ResourceSpans}
    (h : Rearranged groups groups') (attributes : Attributes) (span : Span) :
    Trace.Holds ⟨groups⟩ attributes span ↔ Trace.Holds ⟨groups'⟩ attributes span := by
  simp only [Trace.Holds]
  induction h with
  | reordered perm => simp only [perm.mem_iff]
  | regrouped inside =>
    simp only [List.exists_mem_cons_iff, exists_scope_iff_of_regrouped inside span]
  | merged equal =>
    simp only [List.exists_mem_cons_iff, equal, List.mem_append, or_and_right, exists_or,
      and_or_left, or_assoc]
  | emptied =>
    simp only [List.exists_mem_cons_iff, List.not_mem_nil, false_and, exists_false, and_false,
      false_or]
  | symm _ ih => exact ih.symm
  | trans _ _ ih ih' => exact ih.trans ih'

theorem Rearranged.within {groups groups' : List ResourceSpans} (h : Rearranged groups groups') :
    Trace.Within ⟨groups⟩ ⟨groups'⟩ := fun attributes span =>
  (holds_iff_of_rearranged h attributes span).1

end TraceSearch
