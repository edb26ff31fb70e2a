import TraceSearch.Corpus.File
import TraceSearch.Proofs.Json.Reading

/-!
# Loading is all or nothing

A corpus is loaded in two stages: the whole text must be one array, whatever its elements are, and
then every element must be a trace. Main fact: `parse_all_or_nothing`, which of the three outcomes a
text has, and that an element is decoded as it would be alone.
-/

namespace TraceSearch.Corpus

open Json (Spelled Padded Enclosed Blanks nestingLimit)

/-- An element of an array: its text, and the value that it spells. -/
structure Element where
  text : List Char
  value : Json

def Element.Is (text : List Char) (e : Element) : Prop :=
  e.text = text ∧ Spelled true (nestingLimit - 1) text e.value

/-- The whole text is one array with these elements. It opens no more brackets at once than a
document may, and its strings and numbers are ones that can be kept. -/
def ArrayOf (text : String) (elements : List Element) : Prop :=
  Padded (Enclosed '[' ']' Element.Is) text.toList elements

def Element.alone (e : Element) : String := String.ofList ('[' :: (e.text ++ [']']))

section Documents

variable {text : String} {documents : List Json}

theorem readDocuments_eq_ok_iff :
    readDocuments text = .ok documents ↔
      Padded (Enclosed '[' ']' (Spelled true (nestingLimit - 1))) text.toList documents := by
  obtain ⟨htakes, htakesOnly⟩ := Json.follows_readValue true (nestingLimit - 1)
  unfold readDocuments
  constructor
  · intro h
    split at h
    · rename_i body hskip
      obtain ⟨gap, hgap, htext⟩ := Json.blanks_of_skipBlank hskip
      obtain ⟨rest, hread, hrest⟩ := Json.complete_eq_ok_iff.1 h
      obtain ⟨array, harray, hdocuments⟩ :=
        htakesOnly.enclosed_of_readEnclosed Json.closes_bracket hread '['
      rw [htext, harray]
      exact .around hgap hdocuments hrest
    · contradiction
  · intro h
    generalize text.toList = s at h
    obtain @⟨gap, array, gap', _, hgap, h, hgap'⟩ := h
    obtain ⟨body, hbody, hread⟩ :=
      h.readEnclosed_eq_ok htakes Json.closes_bracket (fun _ _ h => h.head) gap'
    rw [hbody, Json.skipBlank_append hgap, Json.skipBlank_cons rfl]
    exact Json.complete_eq_ok_iff.2 ⟨gap', hread, hgap'⟩

theorem readDocuments_iff_arrayOf :
    readDocuments text = .ok documents ↔
      ∃ elements, ArrayOf text elements ∧ elements.map Element.value = documents := by
  rw [readDocuments_eq_ok_iff]
  unfold ArrayOf
  generalize text.toList = s
  constructor
  · rintro @⟨gap, array, gap', _, hgap, h, hgap'⟩
    obtain ⟨elements, helements, hvalues⟩ :
        ∃ elements, Enclosed '[' ']' Element.Is array elements ∧
          List.Forall₂ (fun j e => j = e.value) documents elements :=
      h.exists_related fun t _ j _ hj => ⟨⟨t, j⟩, ⟨rfl, hj⟩, rfl⟩
    have heq := List.forall₂_map_right_iff.2 hvalues
    rw [List.forall₂_eq_eq_eq] at heq
    exact ⟨elements, .around hgap helements hgap', heq.symm⟩
  · rintro ⟨elements, @⟨gap, array, gap', _, hgap, h, hgap'⟩, rfl⟩
    exact .around hgap (h.map fun t _ e _ he => he.2) hgap'

/-- An element is an array by itself. -/
theorem readDocuments_alone {elements : List Element} (h : ArrayOf text elements) {e : Element}
    (he : e ∈ elements) : readDocuments e.alone = .ok [e.value] := by
  unfold ArrayOf at h
  generalize text.toList = s at h
  obtain ⟨-, h, -⟩ := h
  obtain ⟨t, rfl, hvalue⟩ := h.exists_of_mem e he
  rw [readDocuments_eq_ok_iff, Element.alone, String.toList_ofList]
  exact .alone (.single hvalue)

end Documents

section Decoding

variable {index : ℕ} {documents : List Json}

theorem decodeFrom_eq_ok_iff {traces : List Trace} :
    decodeFrom index documents = .ok traces ↔
      List.Forall₂ (fun d t => Otlp.decodeTrace d = .ok t) documents traces := by
  induction documents generalizing index traces with
  | nil => simp [decodeFrom, eq_comm]
  | cons d documents ih =>
    rw [decodeFrom, List.forall₂_cons_left_iff]
    cases hd : Otlp.decodeTrace d with
    | error m => simp
    | ok t =>
      dsimp only
      simp only [Json.map_eq_ok_iff, ih]
      constructor
      · rintro ⟨rest, hrest, rfl⟩
        exact ⟨t, rest, rfl, hrest, rfl⟩
      · rintro ⟨t', rest, ht, hrest, rfl⟩
        cases ht
        exact ⟨rest, hrest, rfl⟩

/-- Decoding stops at the first document that is no trace. -/
theorem decodeFrom_eq_error_iff {e : LoadError} :
    decodeFrom index documents = .error e ↔
      ∃ before d after m, documents = before ++ d :: after ∧
        (∀ b ∈ before, ∃ t, Otlp.decodeTrace b = .ok t) ∧ Otlp.decodeTrace d = .error m ∧
        e = .trace (index + before.length) m := by
  induction documents generalizing index with
  | nil => simp [decodeFrom]
  | cons d documents ih =>
    rw [decodeFrom]
    cases hd : Otlp.decodeTrace d with
    | error m =>
      constructor
      · rintro h
        cases h
        exact ⟨[], d, documents, m, rfl, List.forall_mem_nil _, hd, rfl⟩
      · rintro ⟨before, d', after, m', hsplit, hbefore, hd', rfl⟩
        cases before with
        | nil =>
          cases hsplit
          cases hd.symm.trans hd'
          rfl
        | cons b before =>
          cases hsplit
          obtain ⟨t, ht⟩ := hbefore d List.mem_cons_self
          cases hd.symm.trans ht
    | ok t =>
      have hmap : (decodeFrom (index + 1) documents).map (t :: ·) = .error e ↔
          decodeFrom (index + 1) documents = .error e := by
        cases decodeFrom (index + 1) documents <;> simp [Except.map]
      dsimp only
      rw [hmap, ih]
      constructor
      · rintro ⟨before, d', after, m, rfl, hbefore, hd', rfl⟩
        refine ⟨d :: before, d', after, m, rfl, List.forall_mem_cons.2 ⟨⟨t, hd⟩, hbefore⟩, hd', ?_⟩
        rw [List.length_cons]
        congr 1
        omega
      · rintro ⟨before, d', after, m, hsplit, hbefore, hd', rfl⟩
        cases before with
        | nil =>
          cases hsplit
          cases hd.symm.trans hd'
        | cons b before =>
          cases hsplit
          refine ⟨before, d', after, m, rfl, (List.forall_mem_cons.1 hbefore).2, hd', ?_⟩
          rw [List.length_cons]
          congr 1
          omega

end Decoding

section Outcomes

variable {text : String} {elements : List Element}

theorem parse_of_arrayOf (h : ArrayOf text elements) :
    parse text = decodeFrom 0 (elements.map Element.value) := by
  rw [parse, readDocuments_iff_arrayOf.2 ⟨elements, h, rfl⟩]

theorem parse_of_not_arrayOf (h : ¬∃ elements, ArrayOf text elements) :
    ∃ cause, parse text = .error (.notAnArray cause) := by
  unfold parse
  cases hread : readDocuments text with
  | error cause => exact ⟨cause, rfl⟩
  | ok documents =>
    obtain ⟨elements, helements, -⟩ := readDocuments_iff_arrayOf.1 hread
    exact absurd ⟨elements, helements⟩ h

theorem arrayOf_of_parse (h : ∀ cause, parse text ≠ .error (.notAnArray cause)) :
    ∃ elements, ArrayOf text elements := by
  by_contra hnone
  obtain ⟨cause, hcause⟩ := parse_of_not_arrayOf hnone
  exact h cause hcause

theorem parse_eq_trace_error_iff {index : ℕ} {m : Json.Mismatch} :
    parse text = .error (.trace index m) ↔
      ∃ before e after, ArrayOf text (before ++ e :: after) ∧ before.length = index ∧
        (∀ b ∈ before, ∃ t, Otlp.decodeTrace b.value = .ok t) ∧
        Otlp.decodeTrace e.value = .error m := by
  constructor
  · intro h
    have hparsed (cause : Json.Error) : parse text ≠ .error (.notAnArray cause) := by simp [h]
    obtain ⟨elements, helements⟩ := arrayOf_of_parse hparsed
    rw [parse_of_arrayOf helements] at h
    obtain ⟨before, d, after, m', hsplit, hbefore, hd, herror⟩ := decodeFrom_eq_error_iff.1 h
    obtain ⟨front, back, rfl, rfl, hback⟩ := List.map_eq_append_iff.1 hsplit
    obtain ⟨e, rest, rfl, rfl, -⟩ := List.map_eq_cons_iff.1 hback
    cases herror
    exact ⟨front, e, rest, helements, by simp,
      fun b hb => hbefore b.value (List.mem_map_of_mem hb), hd⟩
  · rintro ⟨before, e, after, helements, rfl, hbefore, he⟩
    rw [parse_of_arrayOf helements, decodeFrom_eq_error_iff]
    exact ⟨before.map Element.value, e.value, after.map Element.value, m, by simp,
      List.forall_mem_map.2 hbefore, he, by simp⟩

theorem parse_eq_ok_iff_forall₂ {traces : List Trace} :
    parse text = .ok traces ↔
      ∃ elements, ArrayOf text elements ∧
        List.Forall₂ (fun e t => Otlp.decodeTrace e.value = .ok t) elements traces := by
  constructor
  · intro h
    have hparsed (cause : Json.Error) : parse text ≠ .error (.notAnArray cause) := by simp [h]
    obtain ⟨elements, helements⟩ := arrayOf_of_parse hparsed
    rw [parse_of_arrayOf helements, decodeFrom_eq_ok_iff, List.forall₂_map_left_iff] at h
    exact ⟨elements, helements, h⟩
  · rintro ⟨elements, helements, h⟩
    rwa [parse_of_arrayOf helements, decodeFrom_eq_ok_iff, List.forall₂_map_left_iff]

end Outcomes

/-- A text that is not one array is refused as such, whatever its elements would be. Of an array,
the first element that is no trace is named with what is wrong with it, and if there is none the
traces are those of the elements, one each. The elements have no say in each other: in an array of
its own an element has the same outcome. -/
theorem parse_all_or_nothing (text : String) :
    ((∃ cause, parse text = .error (.notAnArray cause)) ↔ ¬∃ elements, ArrayOf text elements) ∧
    (∀ index m, parse text = .error (.trace index m) ↔
      ∃ before e after, ArrayOf text (before ++ e :: after) ∧ before.length = index ∧
        (∀ b ∈ before, ∃ t, Otlp.decodeTrace b.value = .ok t) ∧
        Otlp.decodeTrace e.value = .error m) ∧
    (∀ traces, parse text = .ok traces ↔
      ∃ elements, ArrayOf text elements ∧
        List.Forall₂ (fun e t => Otlp.decodeTrace e.value = .ok t) elements traces) ∧
    ∀ elements, ArrayOf text elements → ∀ e ∈ elements,
      (∀ t, Otlp.decodeTrace e.value = .ok t → parse e.alone = .ok [t]) ∧
      ∀ m, Otlp.decodeTrace e.value = .error m → parse e.alone = .error (.trace 0 m) := by
  refine ⟨⟨?_, parse_of_not_arrayOf⟩, fun index m => parse_eq_trace_error_iff,
    fun traces => parse_eq_ok_iff_forall₂, fun elements helements e he => ?_⟩
  · rintro ⟨cause, hparse⟩ ⟨elements, helements⟩
    rw [parse_of_arrayOf helements, decodeFrom_eq_error_iff] at hparse
    obtain ⟨_, _, _, _, _, _, _, herror⟩ := hparse
    cases herror
  · have halone := readDocuments_alone helements he
    constructor
    · intro t ht
      simp only [parse, halone, decodeFrom, ht, Except.map]
    · intro m hm
      simp only [parse, halone, decodeFrom, hm]

def nothing : Element := ⟨['\x7b', '\x7d'], .object []⟩

def five : Element := ⟨['5'], .int 5⟩

theorem is_nothing : nothing.Is nothing.text :=
  ⟨rfl, .object rfl (.none Json.blanks_nil)⟩

theorem is_five : five.Is five.text := by
  have hrun : Json.DigitRun ['5'] := ⟨List.cons_ne_nil _ _, List.forall_mem_singleton.2 rfl⟩
  have hl : Json.NumberLiteral.WellFormed ⟨false, ['5'], none, none⟩ :=
    ⟨hrun, by simp, by simp, by simp⟩
  have hn : Json.NumberLiteral.toNumber? ⟨false, ['5'], none, none⟩ = some (.integer 5) := rfl
  exact ⟨rfl, .number (.held (.parts hl .absent) hn)⟩

theorem arrayOf_second : ArrayOf "[\x7b\x7d,5]" [nothing, five] := by
  have harray : Enclosed '[' ']' Element.Is ['[', '\x7b', '\x7d', ',', '5', ']'] [nothing, five] :=
    .some (.cons (.alone is_nothing) (.last (.alone is_five)))
  exact .alone harray

theorem parse_all_or_nothing_second :
    parse "[\x7b\x7d,5]" = .error (.trace 1 (.wrongType (.integer 5) (.record "Trace"))) ∧
      parse "[\x7b\x7d]" = .ok [⟨[]⟩] := by
  obtain ⟨-, htrace, -, halone⟩ := parse_all_or_nothing "[\x7b\x7d,5]"
  have hdecode : Otlp.decodeTrace nothing.value = .ok ⟨[]⟩ := rfl
  refine ⟨(htrace _ _).2 ⟨[nothing], five, [], arrayOf_second, rfl, ?_, rfl⟩, ?_⟩
  · exact List.forall_mem_singleton.2 ⟨_, hdecode⟩
  · exact (halone _ arrayOf_second nothing List.mem_cons_self).1 _ hdecode

section Beyond

variable (depth : ℕ)

theorem readMember_beyond :
    Json.readMember true (Json.readValue true depth)
        ['"', 'x', '"', ':', '1', 'e', '9', '9', '9', '\x7d', ']'] = .error .malformed := by
  have hkey : Json.readKey true ['"', 'x', '"', ':', '1', 'e', '9', '9', '9', '\x7d', ']'] =
      .ok ("x", [':', '1', 'e', '9', '9', '9', '\x7d', ']']) := rfl
  have hcolon : Json.readColon [':', '1', 'e', '9', '9', '9', '\x7d', ']'] =
      .ok ['1', 'e', '9', '9', '9', '\x7d', ']'] := rfl
  have hvalue : Json.readValue true depth ['1', 'e', '9', '9', '9', '\x7d', ']'] =
      .error .malformed := Json.readValue_beyond depth (Json.endsNumber_brace [']'])
  simp only [Json.readMember, hkey, hcolon, hvalue]

theorem readValue_object_beyond :
    Json.readValue true (depth + 1)
        ['\x7b', '"', 'x', '"', ':', '1', 'e', '9', '9', '9', '\x7d', ']'] =
      .error .malformed := by
  have hmembers :=
    Json.readEnclosed_of_error '\x7d' rfl (by decide) (readMember_beyond depth)
  rw [Json.readValue, Json.readWith, Json.skipBlank_cons rfl]
  simp only [Json.readObject, hmembers, Except.map]

theorem enclosed_beyond {value : List Char → Json → Prop}
    (hvalue : value ['1', 'e', '9', '9', '9'] (.number (.integer 0))) :
    Enclosed '\x7b' '\x7d' (Json.MemberText false value)
      ['\x7b', '"', 'x', '"', ':', '1', 'e', '9', '9', '9', '\x7d']
      [("x", .number (.integer 0))] := by
  have hkey : Json.StringText false ['"', 'x', '"'] "x" :=
    .quoted (.plain (by decide) (by decide) (by decide) .nil)
  have hmember : Json.MemberText false value ['"', 'x', '"', ':', '1', 'e', '9', '9', '9']
      ("x", .number (.integer 0)) :=
    .parts hkey Json.blanks_nil Json.blanks_nil hvalue
  exact .single hmember

/-- An array by the grammar of documents, within the limit of brackets, that is refused as none: a
number in it is too large to be kept. -/
theorem parse_beyond :
    (∃ documents, Padded (Enclosed '[' ']' (Spelled false (nestingLimit - 1)))
      "[\x7b\"x\":1e999\x7d]".toList documents) ∧
    parse "[\x7b\"x\":1e999\x7d]" = .error (.notAnArray .malformed) := by
  have htext : "[\x7b\"x\":1e999\x7d]".toList =
      ['[', '\x7b', '"', 'x', '"', ':', '1', 'e', '9', '9', '9', '\x7d', ']'] := rfl
  rw [parse, readDocuments, htext]
  constructor
  · have hvalue : Spelled false (nestingLimit - 2) ['1', 'e', '9', '9', '9']
        (.number (.integer 0)) := .number (.skipped rfl Json.spelled_beyond Json.toNumber?_beyond)
    have hobject : Spelled false (nestingLimit - 1)
        ['\x7b', '"', 'x', '"', ':', '1', 'e', '9', '9', '9', '\x7d'] _ :=
      .object rfl (enclosed_beyond hvalue)
    exact ⟨_, .alone (.single hobject)⟩
  · have harray := Json.readEnclosed_of_error ']' rfl (by decide)
      (readValue_object_beyond (nestingLimit - 2))
    have hread : Json.readSequence (Json.readValue true (nestingLimit - 1))
        ['\x7b', '"', 'x', '"', ':', '1', 'e', '9', '9', '9', '\x7d', ']'] =
      .error .malformed := harray
    rw [Json.skipBlank_cons rfl]
    simp only [hread, Json.complete]

end Beyond

end TraceSearch.Corpus
