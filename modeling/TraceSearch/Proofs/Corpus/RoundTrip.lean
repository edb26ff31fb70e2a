import TraceSearch.Corpus.File
import TraceSearch.Proofs.Json.Double
import TraceSearch.Proofs.Otlp.Trace

/-!
# Written corpora load back

A corpus is loaded from what it was written as, as long as the text stays within the brackets a
document may open, and refused as malformed if it does not. The doubles of the corpus must be finite
and read as they were written. Main facts: `parse_write`, and `parse_write_of_nesting_le` for a
corpus within the limit.
-/

namespace TraceSearch.Corpus

open Json (nestingLimit)
open Decimal (isFinite)

/-- The document a corpus is written as. -/
def written (traces : List Trace) : Json := .array (traces.map Otlp.encodeTrace)

theorem write_eq_pretty (traces : List Trace) : write traces = Json.pretty (written traces) := rfl

/-- Documents on lines of their own are read as far as they may open brackets. -/
theorem readDocuments_pretty {documents : List Json} (h : ∀ d ∈ documents, d.Rereads) :
    readDocuments (Json.pretty (.array documents)) =
      if (Json.array documents).nesting ≤ nestingLimit then .ok (documents.map Json.sorted)
      else .error .malformed := by
  have hread : ∃ body,
      Json.spread 0 '[' ']' (documents.map (Json.prettyText 1)) ++ [] = '[' :: body ∧
        Json.readEnclosed ']' (Json.readValue true (nestingLimit - 1)) body =
          if ∀ d ∈ documents, d.nesting ≤ nestingLimit - 1 then .ok (documents.map Json.sorted, [])
          else .error .malformed :=
    Json.readEnclosed_enclose .lines rfl (by decide) Json.endsNumber_bracket
      (Json.readValue_append (fun _ hc => Json.isBlank_of_mem_newLine hc) true _)
      (fun d hd rest hrest => Json.readValue_prettyText true _ 1 (h d hd) hrest)
      (fun d hd => Json.head_prettyText (h d hd) 1) []
  obtain ⟨body, hbody, hread⟩ := hread
  have htext : (Json.pretty (.array documents)).toList = '[' :: body := by
    rw [Json.pretty, String.toList_ofList, Json.prettyText, Json.prettyItems_eq_map, ← hbody,
      List.append_nil]
  have hlimit : (Json.array documents).nesting ≤ nestingLimit ↔
      ∀ d ∈ documents, d.nesting ≤ nestingLimit - 1 := by
    rw [← Json.itemsNesting_le_iff, Json.nesting, nestingLimit]
    omega
  unfold readDocuments
  rw [htext, Json.skipBlank_cons rfl]
  simp only [Json.readSequence, hread, hlimit]
  split <;> rfl

theorem decodeFrom_sorted {traces : List Trace}
    (h : ∀ t ∈ traces, ∀ x ∈ t.doubles, isFinite x = true) (index : Nat) :
    decodeFrom index ((traces.map Otlp.encodeTrace).map Json.sorted) = .ok traces := by
  induction traces generalizing index with
  | nil => rfl
  | cons t rest ih =>
    obtain ⟨ht, hrest⟩ := List.forall_mem_cons.1 h
    rw [List.map_cons, List.map_cons, decodeFrom, Otlp.decodeTrace_encodeTrace ht]
    simp only [ih hrest, Except.map]

section Writing

variable {traces : List Trace} (hreread : ∀ t ∈ traces, RereadDoubles t.doubles)
  (hfinite : ∀ t ∈ traces, ∀ x ∈ t.doubles, isFinite x = true)

include hreread hfinite

/-- A corpus is loaded from what it was written as, unless it nests too deep. -/
theorem parse_write : parse (write traces) =
    if (written traces).nesting ≤ nestingLimit then .ok traces
    else .error (.notAnArray .malformed) := by
  have hdocuments : ∀ d ∈ traces.map Otlp.encodeTrace, d.Rereads :=
    List.forall_mem_map.2 fun t ht => Otlp.rereads_encodeTrace (hreread t ht)
  unfold parse
  rw [write_eq_pretty, written, readDocuments_pretty hdocuments]
  by_cases hlimit : (Json.array (traces.map Otlp.encodeTrace)).nesting ≤ nestingLimit
  · rw [if_pos hlimit, if_pos hlimit]
    exact decodeFrom_sorted hfinite 0
  · rw [if_neg hlimit, if_neg hlimit]

/-- A corpus with finite doubles, each of which is read as it was written, is loaded from what it
was written as if that stays within the brackets a document may open. -/
theorem parse_write_of_nesting_le (hnesting : (written traces).nesting ≤ nestingLimit) :
    parse (write traces) = .ok traces := by
  rw [parse_write hreread hfinite, if_pos hnesting]

end Writing

theorem rereadDoubles_of_short {xs : List Float} (h : ∀ x ∈ xs, Json.Short x) : RereadDoubles xs :=
  fun x hx hfinite => Json.rereads_of_short hfinite (h x hx)

/-- A charge that was refused, with attributes of every nested form and a repeated key. -/
def refusedCharge : Trace :=
  ⟨[⟨⟨⟨[("service.name", .string "payments"), ("service.name", .string "billing \"2\"")]⟩⟩,
    [⟨⟨"", "1.2"⟩,
      [{ traceId := "4bf92f", spanId := "00f067", parentSpanId := "", name := "charge",
         kind := .client, start := 1, stop := 18446744073709551615,
         attributes := ⟨[("ratio", .double (-0.25)), ("ok", .bool false),
           ("codes", .array [.int (-9223372036854775808), .keyValues [("k", .array [])]])]⟩,
         events := [⟨7, "retry", ⟨[("wait", .double 1.5)]⟩⟩],
         status := ⟨"refused", .error⟩ }]⟩]⟩]⟩

theorem parse_write_refusedCharge :
    (∀ t ∈ [refusedCharge], RereadDoubles t.doubles) ∧
      (∀ t ∈ [refusedCharge], ∀ x ∈ t.doubles, isFinite x = true) ∧
      (written [refusedCharge]).nesting ≤ nestingLimit ∧
      parse (write [refusedCharge]) = .ok [refusedCharge] := by
  have hshort : ∀ x ∈ refusedCharge.doubles, Json.Short x := by decide +kernel
  have hreread : ∀ t ∈ [refusedCharge], RereadDoubles t.doubles := by
    simpa using rereadDoubles_of_short hshort
  have hfinite : ∀ t ∈ [refusedCharge], ∀ x ∈ t.doubles, isFinite x = true := by decide
  have hnesting : (written [refusedCharge]).nesting ≤ nestingLimit := by decide
  exact ⟨hreread, hfinite, hnesting, parse_write_of_nesting_le hreread hfinite hnesting⟩

end TraceSearch.Corpus
