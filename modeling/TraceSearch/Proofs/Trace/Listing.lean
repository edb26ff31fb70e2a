import TraceSearch.Explanation.Context
import TraceSearch.Proofs.Text.Lines
import TraceSearch.Proofs.Trace.Position
import TraceSearch.Search.Report

/-!
# Spans in listings

The context of a trace has a header line for every span, and a report of found traces has a line for
every span under the heading of its trace. As long as no text in them breaks a line, they list the
spans in the order of their positions. Main facts: `lists_traceContext` and `linesAbout_text`, the
lines that a reader finds, and `positions_agree`, by which a lookup, a count and both listings
number the spans of a trace alike.
-/

namespace TraceSearch

open Text (SingleLine singleLine_append singleLine_integer startsWith linesFrom Lined Lists)

/-- None of the texts by which a span is listed breaks a line. -/
structure PlacedSpan.OnOneLine (s : PlacedSpan) : Prop where
  name : SingleLine s.span.name
  traceId : SingleLine s.span.traceId
  message : SingleLine s.span.status.message
  service : ∀ service ∈ s.service?, SingleLine service
  resourceService : ∀ service ∈ s.resource.service?, SingleLine service
  attributes : ∀ entry ∈ s.span.attributes.entries, SingleLine entry.1 ∧ SingleLine entry.2.text

def Trace.OnOneLine (t : Trace) : Prop := ∀ s ∈ t.spans, s.OnOneLine

theorem singleLine_getD {service : Option String} (h : ∀ name ∈ service, SingleLine name) :
    SingleLine (service.getD "") := by
  cases service with
  | none => decide
  | some name => exact h name rfl

@[simp] theorem SpanKind.singleLine_name (k : SpanKind) : SingleLine k.name := by cases k <;> decide

namespace Explanation

/-- The header of a span without the line feeds around it. -/
def headerLine (s : PlacedSpan) : String :=
  "[Span] Name: " ++ s.span.name ++ " | Service: " ++ s.resource.service?.getD "" ++ " | Kind: " ++
    s.span.kind.name

def durationLine (s : Span) : String :=
  "  Duration: " ++ Decimal.integer s.duration.milliseconds ++ "ms"

def tagLine (key value : String) : String := "  Tag: " ++ key ++ " = " ++ value

def statusLine (s : Span) : String := "  Status: ERROR (" ++ s.status.message ++ ")"

section Block

variable {s : PlacedSpan} (h : s.OnOneLine)
include h

theorem singleLine_headerLine : SingleLine (headerLine s) := by
  unfold headerLine
  simp only [singleLine_append]
  exact ⟨⟨⟨⟨⟨by decide, h.name⟩, by decide⟩, singleLine_getD h.resourceService⟩, by decide⟩,
    s.span.kind.singleLine_name⟩

theorem singleLine_statusLine : SingleLine (statusLine s.span) := by
  unfold statusLine
  simp only [singleLine_append]
  exact ⟨⟨by decide, h.message⟩, by decide⟩

theorem lists_tags :
    Lists "[Span] " (attributeLines .trace (fun key value => tagLine key value ++ "\n")
      s.span.attributes) [] := by
  have hline : ∀ entry ∈ s.span.attributes.entries.filter fun e => Interest.trace.covers e.1,
      Lists "[Span] " (tagLine entry.1 entry.2.text ++ "\n") [] := by
    intro entry hentry
    obtain ⟨hkey, hvalue⟩ := h.attributes entry (List.mem_filter.1 hentry).1
    apply Lists.other
    · unfold tagLine
      simp only [singleLine_append]
      exact ⟨⟨⟨by decide, hkey⟩, by decide⟩, hvalue⟩
    · unfold tagLine
      simp [startsWith, List.isPrefixOf]
  have hlines := Lists.join hline
  rwa [List.flatMap_eq_nil_iff.2 fun _ _ => rfl] at hlines

/-- The block of a span has one header among lines that are indented. -/
theorem lists_spanBlock :
    Lists "[Span] " (spanBlock (s.resource.service?.getD "") s.span) [headerLine s] := by
  have hblock : spanBlock (s.resource.service?.getD "") s.span =
      "" ++ "\n" ++ (headerLine s ++ "\n") ++ (durationLine s.span ++ "\n") ++
        attributeLines .trace (fun key value => tagLine key value ++ "\n") s.span.attributes ++
        (if s.span.isError then statusLine s.span ++ "\n" else "") := by
    rw [← String.toList_inj]
    unfold spanBlock spanHeader headerLine durationLine tagLine statusLine
    split <;> simp
  have hempty : Lists "[Span] " ("" ++ "\n") [] := .other (by decide) (by decide)
  have hheader : Lists "[Span] " (headerLine s ++ "\n") [headerLine s] := by
    refine .line (singleLine_headerLine h) ?_
    unfold headerLine
    simp [startsWith, List.isPrefixOf]
  have hduration : Lists "[Span] " (durationLine s.span ++ "\n") [] := by
    refine .other ?_ ?_
    · unfold durationLine
      simp only [singleLine_append]
      exact ⟨⟨by decide, singleLine_integer _⟩, by decide⟩
    · unfold durationLine
      simp [startsWith, List.isPrefixOf]
  have hstatus : Lists "[Span] " (if s.span.isError then statusLine s.span ++ "\n" else "") [] := by
    split
    · refine .other (singleLine_statusLine h) ?_
      unfold statusLine
      simp [startsWith, List.isPrefixOf]
    · exact .nil
  rw [hblock]
  exact (((hempty.append hheader).append hduration).append (lists_tags h)).append hstatus

end Block

theorem placed_eq_map (r : ResourceSpans) :
    r.placed = (r.scopes.flatMap ScopeSpans.spans).map fun span => ⟨r.resource, span⟩ := by
  rw [ResourceSpans.placed, List.map_flatMap]

theorem lists_resourceBlocks {r : ResourceSpans} (h : ∀ s ∈ r.placed, s.OnOneLine) :
    Lists "[Span] " (resourceBlocks r) (r.placed.map headerLine) := by
  rw [placed_eq_map, List.forall_mem_map] at h
  have hblock : ∀ span ∈ r.scopes.flatMap ScopeSpans.spans,
      Lists "[Span] " (spanBlock (r.resource.service?.getD "") span)
        [headerLine ⟨r.resource, span⟩] :=
    fun span hspan => lists_spanBlock (s := ⟨r.resource, span⟩) (h span hspan)
  have hblocks := Lists.join hblock
  rw [← List.map_eq_flatMap] at hblocks
  unfold resourceBlocks
  rw [placed_eq_map, List.map_map]
  exact hblocks

/-- The headers of a context show the spans of its trace in the order of their positions. -/
theorem lists_traceContext {t : Trace} (h : t.OnOneLine) :
    Lists "[Span] " (traceContext t) (t.spans.map headerLine) := by
  have hopening : Lists "[Span] " ("Trace Analysis Context:" ++ "\n") [] :=
    .other (by decide) (by decide)
  have hblocks : Lists "[Span] " (String.join (t.resources.map resourceBlocks))
      (t.resources.flatMap fun r => r.placed.map headerLine) := by
    refine .join fun r hr => lists_resourceBlocks fun s hs => h s ?_
    exact List.mem_flatMap.2 ⟨r, hr, hs⟩
  rw [Trace.spans, List.map_flatMap]
  exact hopening.append hblocks

end Explanation

namespace Report

/-- The line of a span without the line feed at its end. -/
def lineOf (s : PlacedSpan) : String :=
  "trace=" ++ s.span.traceId ++ " span=" ++ s.span.name ++ " service=" ++ s.service?.getD "" ++
    " error=" ++ (if s.span.failed then "true" else "false")

def heading (position : ℕ) : String := "Trace #" ++ Decimal.integer (position + 1)

def countLine (count : ℕ) : String := "Traces returned: " ++ Decimal.integer count

/-- The lines about the trace of a position as they are found in a report: what follows the heading
of the trace up to an empty line. -/
def linesAbout (position : ℕ) (report : String) : List String :=
  (((Text.lines report).dropWhile (· != heading position)).drop 1).takeWhile (· != "")

/-- The lines of the spans of a trace as they are found in a report. -/
def spanLines (position : ℕ) (report : String) : List String :=
  (linesAbout position report).filter (startsWith "trace=")

theorem singleLine_lineOf {s : PlacedSpan} (h : s.OnOneLine) : SingleLine (lineOf s) := by
  unfold lineOf
  simp only [singleLine_append]
  refine ⟨⟨⟨⟨⟨⟨⟨by decide, h.traceId⟩, by decide⟩, h.name⟩, by decide⟩,
    singleLine_getD h.service⟩, by decide⟩, ?_⟩
  split <;> decide

theorem startsWith_lineOf (s : PlacedSpan) : startsWith "trace=" (lineOf s) = true := by
  unfold lineOf
  simp [startsWith, List.isPrefixOf]

theorem heading_inj {position other : ℕ} (h : heading position = heading other) :
    position = other := by
  have hnumber : Decimal.integer (position + 1) = Decimal.integer (other + 1) := by
    have htext := congrArg String.toList h
    unfold heading at htext
    rw [String.toList_append, String.toList_append] at htext
    exact String.toList_inj.1 (List.append_cancel_left htext)
  have hsucc := Decimal.integer_inj hnumber
  omega

theorem empty_ne_heading (position : ℕ) : "" ≠ heading position := by
  intro h
  have htext := congrArg String.toList h
  unfold heading at htext
  simp at htext

theorem lineOf_ne_heading (s : PlacedSpan) (position : ℕ) : lineOf s ≠ heading position := by
  intro h
  have htext := congrArg String.toList h
  unfold lineOf heading at htext
  simp at htext

theorem countLine_ne_heading (count position : ℕ) : countLine count ≠ heading position := by
  intro h
  have htext := congrArg String.toList h
  unfold countLine heading at htext
  simp at htext

/-- The lines of a trace, from the empty line above its heading. -/
def blockLines (block : Trace × ℕ) : List String :=
  "" :: heading block.2 :: block.1.spans.map lineOf

theorem lined_traceBlock {t : Trace} (h : t.OnOneLine) (position : ℕ) :
    Lined (traceBlock position t) (blockLines (t, position)) := by
  have hempty : Lined ("" ++ "\n") [""] := .line (by decide)
  have hheading : Lined (heading position ++ "\n") [heading position] :=
    .line (singleLine_append.2 ⟨by decide, singleLine_integer _⟩)
  have hspans : Lined (String.join (t.spans.map spanLine)) (t.spans.flatMap fun s => [lineOf s]) :=
    .join fun s hs => .line (singleLine_lineOf (h s hs))
  rw [← List.map_eq_flatMap] at hspans
  have hblock : traceBlock position t =
      "" ++ "\n" ++ (heading position ++ "\n") ++ String.join (t.spans.map spanLine) := by
    rw [← String.toList_inj]
    unfold traceBlock heading
    simp
  rw [hblock]
  exact (hempty.append hheading).append hspans

theorem lined_text {found : List Trace} (h : ∀ t ∈ found, t.OnOneLine) :
    Lined (text found) (countLine found.length :: found.zipIdx.flatMap blockLines) := by
  have hcount : Lined (countLine found.length ++ "\n") [countLine found.length] :=
    .line (singleLine_append.2 ⟨by decide, singleLine_integer _⟩)
  have hblocks : Lined (String.join (found.zipIdx.map fun block => traceBlock block.2 block.1))
      (found.zipIdx.flatMap blockLines) := by
    refine .join fun block hblock => lined_traceBlock (h _ ?_) block.2
    exact List.fst_mem_of_mem_zipIdx hblock
  unfold text
  rw [List.mapIdx_eq_zipIdx_map]
  exact hcount.append hblocks

theorem ne_heading_of_mem_blockLines {t : Trace} {position other : ℕ} (hne : position ≠ other)
    {l : String} (hl : l ∈ blockLines (t, other)) : l ≠ heading position := by
  rcases List.mem_cons.1 hl with rfl | hl
  · exact empty_ne_heading position
  rcases List.mem_cons.1 hl with rfl | hl
  · exact fun h => hne (heading_inj h).symm
  · obtain ⟨s, -, rfl⟩ := List.mem_map.1 hl
    exact lineOf_ne_heading s position

/-- The lines under the heading of a trace show its spans in the order of their positions. -/
theorem linesAbout_text {found : List Trace} (h : ∀ t ∈ found, t.OnOneLine) {position : ℕ}
    {t : Trace} (ht : found[position]? = some t) :
    linesAbout position (text found) = t.spans.map lineOf := by
  obtain ⟨before, after, rfl, rfl⟩ := getElem?_iff_append.1 ht
  have hlines : Text.lines (text (before ++ t :: after)) =
      (countLine (before ++ t :: after).length :: before.zipIdx.flatMap blockLines ++ [""]) ++
        heading before.length :: (t.spans.map lineOf ++
          ((after.zipIdx (before.length + 1)).flatMap blockLines ++ [""])) := by
    rw [(lined_text h).lines_eq, List.zipIdx_append, List.zipIdx_cons, Nat.zero_add]
    simp [blockLines]
  -- no line above is the heading, and the first line below that is empty opens the next block
  have hbefore : ∀ l ∈ countLine (before ++ t :: after).length ::
      before.zipIdx.flatMap blockLines ++ [""], (l != heading before.length) = true := by
    intro l hl
    rw [bne_iff_ne]
    rcases List.mem_append.1 hl with hl | hl
    · rcases List.mem_cons.1 hl with rfl | hl
      · exact countLine_ne_heading _ _
      · obtain ⟨block, hblock, hl⟩ := List.mem_flatMap.1 hl
        have hlt := List.snd_lt_of_mem_zipIdx hblock
        exact ne_heading_of_mem_blockLines (by omega) hl
    · rw [List.mem_singleton.1 hl]
      exact empty_ne_heading _
  have hspans : ∀ l ∈ t.spans.map lineOf, (l != "") = true := by
    intro l hl
    obtain ⟨s, -, rfl⟩ := List.mem_map.1 hl
    exact bne_iff_ne.2 (Text.ne_empty_of_startsWith (startsWith_lineOf s) (by decide))
  have hafter : ((after.zipIdx (before.length + 1)).flatMap blockLines ++ [""]).takeWhile
      (· != "") = [] := by
    cases after with
    | nil => rfl
    | cons next after => rfl
  rw [linesAbout, hlines, List.dropWhile_append_of_pos hbefore,
    List.dropWhile_cons_of_neg (by simp), List.drop_one, List.tail_cons,
    List.takeWhile_append_of_pos hspans, hafter, List.append_nil]

theorem spanLines_text {found : List Trace} (h : ∀ t ∈ found, t.OnOneLine) {position : ℕ}
    {t : Trace} (ht : found[position]? = some t) :
    spanLines position (text found) = t.spans.map lineOf := by
  rw [spanLines, linesAbout_text h ht, List.filter_eq_self, List.forall_mem_map]
  exact fun s _ => startsWith_lineOf s

end Report

/-- Lines that list the spans of a trace are as many as are counted, and the line of a position is
that of the span which is found there. -/
theorem listed_of_found {corpus : List Trace} {traceIndex index : ℕ} {t : Trace}
    (ht : corpus[traceIndex]? = some t) {lines : List String} {line : PlacedSpan → String}
    (hlines : lines = t.spans.map line) :
    lines.length = t.spanCount ∧
      ∀ s, Corpus.span corpus traceIndex index = .ok s → lines[index]? = some (line s) := by
  subst hlines
  refine ⟨by rw [List.length_map, t.length_spans], fun s hs => ?_⟩
  obtain ⟨u, hu, hstands⟩ := Corpus.span_eq_ok_iff.1 hs
  cases ht.symm.trans hu
  rw [List.getElem?_map, Trace.getElem?_spans_iff.2 hstands, Option.map_some]

/-- A position is found exactly if it is one of a trace of the corpus and less than the count of its
spans, and then it names the span that as many others stand before, with its resource; any other is
refused with its bound. If no text breaks a line, the context of the trace and every report that it
is found in have a line for each span, and that of the position shows the span it names. -/
theorem positions_agree (corpus : List Trace) (traceIndex index : ℕ) :
    ((∃ s, Corpus.span corpus traceIndex index = .ok s) ↔
      ∃ h : traceIndex < corpus.length, index < corpus[traceIndex].spanCount) ∧
    (∀ s, Corpus.span corpus traceIndex index = .ok s ↔
      ∃ t, corpus[traceIndex]? = some t ∧ t.StandsAfter index s) ∧
    (corpus.length ≤ traceIndex →
      Corpus.span corpus traceIndex index =
        .error (.traceOutOfRange traceIndex corpus.length)) ∧
    ∀ t, corpus[traceIndex]? = some t →
      (t.spanCount ≤ index →
        Corpus.span corpus traceIndex index =
          .error (.spanOutOfRange traceIndex index t.spanCount)) ∧
      (t.OnOneLine →
        (linesFrom "[Span] " (Explanation.traceContext t)).length = t.spanCount ∧
        ∀ s, Corpus.span corpus traceIndex index = .ok s →
          (linesFrom "[Span] " (Explanation.traceContext t))[index]? =
            some ("[Span] Name: " ++ s.span.name ++ " | Service: " ++
              s.resource.service?.getD "" ++ " | Kind: " ++ s.span.kind.name)) ∧
      ∀ found position, found[position]? = some t → (∀ u ∈ found, u.OnOneLine) →
        (Report.spanLines position (Report.text found)).length = t.spanCount ∧
        ∀ s, Corpus.span corpus traceIndex index = .ok s →
          (Report.spanLines position (Report.text found))[index]? =
            some ("trace=" ++ s.span.traceId ++ " span=" ++ s.span.name ++ " service=" ++
              s.service?.getD "" ++ " error=" ++ (if s.span.failed then "true" else "false")) := by
  refine ⟨?_, fun s => Corpus.span_eq_ok_iff, fun hle => ?_, fun t ht => ⟨fun hle => ?_, ?_, ?_⟩⟩
  · simp only [Corpus.span_eq_ok_iff, ← Trace.getElem?_spans_iff, List.getElem?_eq_some_iff,
      ← Trace.length_spans]
    constructor
    · rintro ⟨s, t, ⟨htrace, rfl⟩, hspan, -⟩
      exact ⟨htrace, hspan⟩
    · rintro ⟨htrace, hspan⟩
      exact ⟨_, _, ⟨htrace, rfl⟩, hspan, rfl⟩
  · rw [Corpus.span, Corpus.trace_of_length_le hle]
  · exact Corpus.span_of_length_le (Corpus.trace_eq_ok_iff.2 ht) hle
  · intro hline
    have hlists := Explanation.lists_traceContext hline
    exact listed_of_found ht (hlists.linesFrom_eq (by decide))
  · intro found position hfound hline
    exact listed_of_found ht (Report.spanLines_text hline hfound)

def namedSpan (name : String) : Span := { (default : Span) with name }

def namedResource (service : String) : Resource :=
  ⟨Attributes.ofStrings [("service.name", service)]⟩

/-- A trace with three spans among groups that hold none. -/
def scattered : Trace :=
  ⟨[⟨default, []⟩,
    ⟨namedResource "frontend", [⟨default, []⟩, ⟨default, [namedSpan "GET /search"]⟩]⟩,
    ⟨namedResource "postgres", [⟨default, [namedSpan "SELECT", namedSpan "COMMIT"]⟩]⟩]⟩

theorem onOneLine_named {name service : String} (hname : SingleLine name)
    (hservice : SingleLine service) :
    (⟨namedResource service, namedSpan name⟩ : PlacedSpan).OnOneLine := by
  have hresource : (namedResource service).service? = some service := rfl
  have hspan : (⟨namedResource service, namedSpan name⟩ : PlacedSpan).service? = some service := rfl
  have hempty : SingleLine "" := by decide
  refine ⟨hname, hempty, hempty, ?_, ?_, nofun⟩
  · rw [hspan]
    rintro _ ⟨⟩
    exact hservice
  · rw [hresource]
    rintro _ ⟨⟩
    exact hservice

theorem positions_agree_scattered :
    (∀ t ∈ [default, scattered], t.OnOneLine) ∧
    Corpus.span [default, scattered] 1 2 = .ok ⟨namedResource "postgres", namedSpan "COMMIT"⟩ ∧
    (linesFrom "[Span] " (Explanation.traceContext scattered))[2]? =
      some "[Span] Name: COMMIT | Service: postgres | Kind: Unspecified" ∧
    (Report.spanLines 1 (Report.text [default, scattered]))[2]? =
      some "trace= span=COMMIT service=postgres error=false" := by
  have hscattered : scattered.OnOneLine := by
    have hspans : scattered.spans =
        [⟨namedResource "frontend", namedSpan "GET /search"⟩,
          ⟨namedResource "postgres", namedSpan "SELECT"⟩,
          ⟨namedResource "postgres", namedSpan "COMMIT"⟩] := rfl
    rw [Trace.OnOneLine, hspans]
    simp only [List.forall_mem_cons]
    exact ⟨onOneLine_named (by decide) (by decide), onOneLine_named (by decide) (by decide),
      onOneLine_named (by decide) (by decide), nofun⟩
  have hfound : ∀ t ∈ [default, scattered], t.OnOneLine := by
    simp only [List.forall_mem_cons]
    exact ⟨nofun, hscattered, nofun⟩
  obtain ⟨-, hspan, -, hlisted⟩ := positions_agree [default, scattered] 1 2
  have hstands : scattered.StandsAfter 2 ⟨namedResource "postgres", namedSpan "COMMIT"⟩ :=
    Trace.getElem?_spans_iff.1 rfl
  have hlookup := (hspan _).2 ⟨scattered, rfl, hstands⟩
  obtain ⟨-, hcontext, hreport⟩ := hlisted scattered rfl
  refine ⟨hfound, hlookup, ?_, ?_⟩
  · rw [(hcontext hscattered).2 _ hlookup]
    rfl
  · rw [(hreport _ 1 rfl hfound).2 _ hlookup]
    rfl

end TraceSearch
