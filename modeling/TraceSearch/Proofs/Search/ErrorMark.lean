import TraceSearch.Query.Predicate
import TraceSearch.Search.Report

/-!
# Marked errors

A search for the tag `error = true` finds a span by its status or by the attribute `error`, its own
or else its resource's. The report of the search marks a span by its status or by an attribute of
its own. Main facts: `error_tag_marked_or_inherited`, the two differ by the spans that inherit the
attribute and by no others, and `inherited_error_unmarked`, a trace that is found without a mark.
-/

namespace TraceSearch

namespace PlacedSpan

/-- The line of a span in the report ends with the mark. -/
def Marked (s : PlacedSpan) : Prop := ∃ front, Report.spanLine s = front ++ " error=true\n"

/-- A span has `error = true` from its resource, and no attribute `error` that would hide it. -/
def InheritsError (s : PlacedSpan) : Prop :=
  s.span.attributes.get? Trace.errorKey = none ∧
    ∃ v ∈ s.resource.attributes.get? Trace.errorKey, v.text = "true"

variable {s : PlacedSpan} {v : AttributeValue}

theorem failed_iff :
    s.span.failed = true ↔
      s.span.isError = true ∨ ∃ v ∈ s.span.attributes.get? Trace.errorKey, v.text = "true" := by
  unfold Span.failed
  rw [Bool.or_eq_true, Option.any_eq_true]
  simp only [beq_iff_eq]
  rfl

/-- No text ends with both marks. -/
theorem append_false_ne (a b : String) : a ++ " error=false\n" ≠ b ++ " error=true\n" := by
  intro h
  -- they differ in the third character from the end
  have hreversed := congrArg (fun text => text.toList.reverse.take 3) h
  simp at hreversed

theorem spanLine_eq (s : PlacedSpan) :
    ∃ front, Report.spanLine s =
      front ++ if s.span.failed then " error=true\n" else " error=false\n" := by
  refine ⟨"trace=" ++ s.span.traceId ++ " span=" ++ s.span.name ++ " service=" ++
    s.service?.getD "", ?_⟩
  unfold Report.spanLine
  rw [String.append_assoc, String.append_assoc]
  cases s.span.failed <;> rfl

theorem marked_iff_failed : s.Marked ↔ s.span.failed = true := by
  obtain ⟨front, hline⟩ := spanLine_eq s
  rw [Marked, hline]
  cases s.span.failed with
  | true => exact ⟨fun _ => rfl, fun _ => ⟨front, rfl⟩⟩
  | false => exact ⟨fun ⟨_, h⟩ => absurd h (append_false_ne _ _), nofun⟩

/-- A span carries the tag if the report marks it, and otherwise only by its resource. -/
theorem carriesTag_error_iff (h : v.text = "true") :
    Trace.carriesTag s Trace.errorKey v = true ↔ s.Marked ∨ s.InheritsError := by
  rw [marked_iff_failed, failed_iff, Trace.carriesTag, h, InheritsError, attribute?]
  -- an attribute of the span hides that of its resource, whatever it reads
  cases s.span.attributes.get? Trace.errorKey with
  | none => simp [Option.any_eq_true]
  | some own => simp

end PlacedSpan

/-- The report shows every trace by the lines of its spans, under its number. -/
theorem Report.text_split (before after : List Trace) (t : Trace) :
    ∃ front back, Report.text (before ++ t :: after) =
      front ++ "\nTrace #" ++ Decimal.integer (before.length + 1) ++ "\n" ++
        String.join (t.spans.map Report.spanLine) ++ back := by
  refine ⟨"Traces returned: " ++ Decimal.integer (before ++ t :: after).length ++ "\n" ++
    String.join (before.mapIdx traceBlock),
    String.join (after.mapIdx fun i => traceBlock (i + 1 + before.length)), ?_⟩
  have hblock : traceBlock before.length t = "\nTrace #" ++ (Decimal.integer (before.length + 1) ++
      ("\n" ++ String.join (t.spans.map spanLine))) := by
    unfold traceBlock
    simp only [String.append_assoc]
  unfold text
  rw [List.mapIdx_append, String.join_append, List.mapIdx_cons, String.join_cons, Nat.zero_add,
    hblock]
  simp only [String.append_assoc]

namespace Trace

variable {t : Trace} {v : AttributeValue}

theorem matchesAttributes_single (key : String) :
    t.matchesAttributes (Attributes.ofList [(key, v)]) = true ↔
      ∃ s ∈ t.spans, carriesTag s key v = true := by
  have hentries : (Attributes.ofList [(key, v)]).entries = [(key, v)] := rfl
  rw [matchesAttributes, hentries, List.all_cons, List.all_nil, Bool.and_true, List.any_eq_true]

/-- A trace is found by the tag `error = true` if the report marks a span of it, or if a span of it
inherits the attribute from its resource, which the report passes over. Where no span inherits it,
the search finds just the traces with a marked span. The mark is that of failed spans, and it stands
in the line of the span, wherever the trace stands in the report. -/
theorem error_tag_marked_or_inherited (t : Trace) (h : v.text = "true") :
    (t.matchesAttributes (Attributes.ofList [(errorKey, v)]) = true ↔
      (∃ s ∈ t.spans, s.Marked) ∨ ∃ s ∈ t.spans, s.InheritsError) ∧
    ((∀ s ∈ t.spans, ¬s.InheritsError) →
      (t.matchesAttributes (Attributes.ofList [(errorKey, v)]) = true ↔
        ∃ s ∈ t.spans, s.Marked)) ∧
    (∀ s ∈ t.spans, s.Marked ↔ s.span.failed = true) ∧
    ∀ before after, ∃ front back, Report.text (before ++ t :: after) =
      front ++ "\nTrace #" ++ Decimal.integer (before.length + 1) ++ "\n" ++
        String.join (t.spans.map Report.spanLine) ++ back := by
  have hfound : t.matchesAttributes (Attributes.ofList [(errorKey, v)]) = true ↔
      (∃ s ∈ t.spans, s.Marked) ∨ ∃ s ∈ t.spans, s.InheritsError := by
    rw [matchesAttributes_single]
    simp only [PlacedSpan.carriesTag_error_iff h, and_or_left, exists_or]
  refine ⟨hfound, ?_, fun s _ => s.marked_iff_failed, fun before after =>
    Report.text_split before after t⟩
  intro hnone
  have hnot : ¬∃ s ∈ t.spans, s.InheritsError := fun ⟨s, hs, hinherits⟩ => hnone s hs hinherits
  rw [hfound, or_iff_left hnot]

/-- A span that fails by an attribute of its own, although that of its resource reads otherwise. -/
def declaredError : Trace :=
  ⟨[⟨⟨.ofStrings [("error", "false")]⟩,
    [⟨default, [{ (default : Span) with attributes := .ofList [("error", .bool true)] }]⟩]⟩]⟩

theorem error_tag_marked_or_inherited_declaredError :
    (AttributeValue.string "true").text = "true" ∧
    (∀ s ∈ declaredError.spans, ¬s.InheritsError) ∧
    (declaredError.matchesAttributes (.ofList [(errorKey, .string "true")]) = true ↔
      ∃ s ∈ declaredError.spans, s.Marked) ∧
    ∃ s ∈ declaredError.spans, s.Marked := by
  have htext : (AttributeValue.string "true").text = "true" := by decide
  have hown : ∀ s ∈ declaredError.spans, (s.span.attributes.get? errorKey).isSome = true := by
    decide
  have hnone : ∀ s ∈ declaredError.spans, ¬s.InheritsError := by
    intro s hs hinherits
    have hsome := hown s hs
    rw [hinherits.1] at hsome
    contradiction
  obtain ⟨-, hexact, -, -⟩ := error_tag_marked_or_inherited declaredError htext
  exact ⟨htext, hnone, hexact hnone, (hexact hnone).1 (by decide)⟩

/-- A resource with an error, and a span that says nothing of it. -/
def failedResource : Trace :=
  ⟨[⟨⟨.ofStrings [("error", "true")]⟩, [⟨default, [{ (default : Span) with name := "x" }]⟩]⟩]⟩

/-- A trace whose only span is found by the tag and shown without the mark. -/
theorem inherited_error_unmarked :
    failedResource.matchesAttributes (.ofStrings [("error", "true")]) = true ∧
      Report.text [failedResource] =
        "Traces returned: 1\n\nTrace #1\ntrace= span=x service= error=false\n" ∧
      ¬∃ s ∈ failedResource.spans, s.Marked := by
  refine ⟨by decide, by decide, ?_⟩
  rintro ⟨s, hs, hmarked⟩
  have hsound : ∀ s ∈ failedResource.spans, s.span.failed = false := by decide
  have hfailed := PlacedSpan.marked_iff_failed.1 hmarked
  rw [hsound s hs] at hfailed
  contradiction

end Trace

end TraceSearch
