import TraceSearch.Proofs.Json.Fields
import TraceSearch.Proofs.Text.Order
import TraceSearch.Server.Respond

/-!
# Well-formed requests

A request asks for a search by its body and for an explanation by its path. Main facts:
`asksSearch_written`, `asksTrace_written` and `asksSpan_written`, a text that fits into a body and
positions of 64 bits can be asked for by the document and the path they are written as.
-/

namespace TraceSearch

namespace Text

theorem segments_append {s t first : List Char} {others : List (List Char)} (hs : '/' ∉ s)
    (ht : segments t = first :: others) : segments (s ++ t) = (s ++ first) :: others := by
  induction s with
  | nil => exact ht
  | cons c s ih =>
    obtain ⟨hc, hs⟩ := not_or.1 (mt List.mem_cons.2 hs)
    rw [List.cons_append, segments, if_neg (Ne.symm hc), ih hs, List.cons_append]

/-- Names without a slash, each after a slash, are the segments after the empty one. -/
theorem segments_flatMap {names : List (List Char)} (h : ∀ name ∈ names, '/' ∉ name) :
    segments (names.flatMap ('/' :: ·)) = [] :: names := by
  induction names with
  | nil => rfl
  | cons name names ih =>
    obtain ⟨hname, hnames⟩ := List.forall_mem_cons.1 h
    rw [List.flatMap_cons, List.cons_append, segments, if_pos rfl,
      segments_append hname (ih hnames), List.append_nil]

theorem ofUtf8?_utf8 (s : String) : ofUtf8? (utf8 s) = some s := by
  rw [ofUtf8?, String.fromUTF8?, dif_pos (show (utf8 s).IsValidUTF8 from s.isValidUTF8)]
  rfl

theorem utf8ByteSize_ofList_le (s : List Char) : (String.ofList s).utf8ByteSize ≤ 4 * s.length := by
  rw [String.utf8ByteSize_ofList]
  induction s with
  | nil => exact Nat.zero_le _
  | cons c s ih =>
    have hc := c.utf8Size_le_four
    rw [String.utf8Len_cons, List.length_cons]
    omega

theorem length_le_utf8ByteSize_ofList (s : List Char) :
    s.length ≤ (String.ofList s).utf8ByteSize := by
  rw [String.utf8ByteSize_ofList]
  induction s with
  | nil => exact Nat.zero_le _
  | cons c s ih =>
    have hc := c.utf8Size_pos
    rw [String.utf8Len_cons, List.length_cons]
    omega

end Text

theorem Decimal.integer_natCast (n : ℕ) : integer n = String.ofList (digits n) := by
  have hn : ¬(n : ℤ) < 0 := by omega
  rw [integer, integerText, if_neg hn, Int.natAbs_natCast]

/-- A path is a URI of its own. -/
theorem Uri.read_path {path : List Char} (hroot : path.head? = some '/')
    (hsize : path.length ≤ 16000) (hplain : ∀ c ∈ path, isPathChar c = true) :
    Uri.read (String.ofList path) = .ok ⟨none, "", String.ofList path, none⟩ := by
  obtain ⟨rest, rfl⟩ := List.head?_eq_some_iff.1 hroot
  have hbytes := Text.utf8ByteSize_ofList_le ('/' :: rest)
  have hlong : ¬65534 < (String.ofList ('/' :: rest)).utf8ByteSize := by omega
  have hne : String.ofList ('/' :: rest) ≠ "" := by
    intro h
    have hchars := congrArg String.toList h
    rw [String.toList_ofList] at hchars
    cases hchars
  have htarget : readTarget ('/' :: rest) = .ok (String.ofList ('/' :: rest), none) := by
    rw [readTarget, List.takeWhile_eq_self_iff.2 hplain, List.dropWhile_eq_nil_iff.2 hplain]
  rw [read, if_neg hlong, if_neg hne, String.toList_ofList, readChars, htarget]
  rfl

namespace Server

section Paths

theorem percentDecoded_of_not_mem {s : List Char} (h : '%' ∉ s) :
    percentDecoded s = Text.bytes (String.ofList s) := by
  rw [Text.bytes_eq, String.toList_ofList]
  induction s with
  | nil => rfl
  | cons c s ih =>
    obtain ⟨hc, hs⟩ := not_or.1 (mt List.mem_cons.2 h)
    rw [percentDecoded, ih hs, List.flatMap_cons]
    rintro a b rest rfl -
    exact hc rfl

/-- Digits name the position that they are, unless it has more than 64 bits. -/
theorem positionOf_digits (n : ℕ) :
    positionOf (Decimal.digits n) = if n < 2 ^ 64 then some n else none := by
  have hplain : '%' ∉ Decimal.digits n := fun h =>
    absurd (Decimal.isDigit_of_mem_digits h) (by decide)
  have htext : Text.ofUtf8? ⟨(percentDecoded (Decimal.digits n)).toArray⟩ =
      some (String.ofList (Decimal.digits n)) := by
    rw [percentDecoded_of_not_mem hplain, Text.bytes, Array.toArray_toList]
    exact Text.ofUtf8?_utf8 (String.ofList (Decimal.digits n))
  have hread (m : ℤ) :
      Decimal.Range.unsigned64.read (String.ofList (Decimal.digits n)) = .ok m ↔
        n < 2 ^ 64 ∧ m = n := by
    rw [Decimal.Range.read, String.toList_ofList, Decimal.readChars_digits,
      Decimal.readDigits_digits_iff, Decimal.Range.unsigned64_contains_iff]
    simp only [Bool.false_eq_true, if_false]
    omega
  rw [positionOf, htext]
  dsimp only
  by_cases hn : n < 2 ^ 64
  · rw [(hread n).2 ⟨hn, rfl⟩, if_pos hn]
    rfl
  · rw [if_neg hn]
    split
    · rename_i m hm
      exact absurd ((hread m).1 hm).1 hn
    · rfl

/-- The path that asks for the explanation of a trace. -/
def tracePath (index : ℕ) : String := "/traces/" ++ Decimal.integer index ++ "/explain"

/-- The path that asks for the explanation of a span. -/
def spanPath (traceIndex index : ℕ) : String :=
  "/traces/" ++ Decimal.integer traceIndex ++ "/spans/" ++ Decimal.integer index ++ "/explain"

theorem isPathChar_of_isAlphanum {c : Char} (h : c.isAlphanum = true) :
    Uri.isPathChar c = true := by
  have hbounds : 65 ≤ c.toNat ∧ c.toNat ≤ 90 ∨ 97 ≤ c.toNat ∧ c.toNat ≤ 122 ∨
      48 ≤ c.toNat ∧ c.toNat ≤ 57 := by
    simpa [Char.isAlphanum, Char.isAlpha, Char.isUpper, Char.isLower, Char.isDigit,
      UInt32.le_iff_toNat_le, or_assoc] using h
  unfold Uri.isPathChar
  simp only [Bool.or_eq_true, Bool.and_eq_true, decide_eq_true_eq, beq_iff_eq]
  omega

/-- A short name of letters and digits. -/
structure IsName (name : List Char) : Prop where
  short : name.length ≤ 20
  plain : ∀ c ∈ name, c.isAlphanum = true

theorem isName_digits {n : ℕ} (h : n < 10 ^ 20) : IsName (Decimal.digits n) where
  short := (Nat.length_toDigits_le_iff (by decide) (by decide)).2 h
  plain c hc := by rw [Char.isAlphanum, Decimal.isDigit_of_mem_digits hc, Bool.or_true]

theorem isName_traces : IsName "traces".toList := ⟨by decide, List.all_eq_true.1 (by decide)⟩

theorem isName_spans : IsName "spans".toList := ⟨by decide, List.all_eq_true.1 (by decide)⟩

theorem isName_explain : IsName "explain".toList := ⟨by decide, List.all_eq_true.1 (by decide)⟩

theorem length_path_le {names : List (List Char)} (h : ∀ name ∈ names, IsName name) :
    (names.flatMap ('/' :: ·)).length ≤ 21 * names.length := by
  induction names with
  | nil => exact Nat.zero_le _
  | cons name names ih =>
    obtain ⟨hname, hnames⟩ := List.forall_mem_cons.1 h
    have hshort := hname.short
    have hrest := ih hnames
    rw [List.flatMap_cons, List.length_append, List.length_cons, List.length_cons]
    omega

theorem ofTarget_names {names : List (List Char)} (hne : names ≠ []) (hfew : names.length ≤ 5)
    (h : ∀ name ∈ names, IsName name) :
    Route.ofTarget (String.ofList (names.flatMap ('/' :: ·))) = Route.ofSegments ([] :: names) := by
  have hroot : (names.flatMap ('/' :: ·)).head? = some '/' := by
    cases names with
    | nil => contradiction
    | cons name names => rfl
  have hsize : (names.flatMap ('/' :: ·)).length ≤ 16000 := by
    have hlength := length_path_le h
    omega
  have hplain : ∀ c ∈ names.flatMap ('/' :: ·), Uri.isPathChar c = true := by
    intro c hc
    obtain ⟨name, hname, hc⟩ := List.mem_flatMap.1 hc
    rcases List.mem_cons.1 hc with rfl | hc
    · rfl
    · exact isPathChar_of_isAlphanum ((h name hname).plain c hc)
  have hslash : ∀ name ∈ names, '/' ∉ name := fun name hname hc =>
    absurd ((h name hname).plain '/' hc) (by decide)
  rw [Route.ofTarget, Uri.read_path hroot hsize hplain]
  dsimp only
  rw [String.toList_ofList, Text.segments_flatMap hslash]

theorem ofTarget_tracePath {index : ℕ} (h : index < 10 ^ 20) :
    Route.ofTarget (tracePath index) = some (.explainTrace (Decimal.digits index)) := by
  have hpath : tracePath index = String.ofList
      (["traces".toList, Decimal.digits index, "explain".toList].flatMap ('/' :: ·)) := by
    rw [← String.toList_inj]
    simp [tracePath, Decimal.integer_natCast, String.toList_append]
  have hnames : ∀ name ∈ ["traces".toList, Decimal.digits index, "explain".toList],
      IsName name := by
    simp only [List.forall_mem_cons, List.not_mem_nil, false_imp_iff, implies_true, and_true]
    exact ⟨isName_traces, isName_digits h, isName_explain⟩
  rw [hpath, ofTarget_names (List.cons_ne_nil _ _) (by simp) hnames]
  rfl

theorem ofTarget_spanPath {traceIndex index : ℕ} (htrace : traceIndex < 10 ^ 20)
    (h : index < 10 ^ 20) :
    Route.ofTarget (spanPath traceIndex index) =
      some (.explainSpan (Decimal.digits traceIndex) (Decimal.digits index)) := by
  have hpath : spanPath traceIndex index = String.ofList
      (["traces".toList, Decimal.digits traceIndex, "spans".toList, Decimal.digits index,
        "explain".toList].flatMap ('/' :: ·)) := by
    rw [← String.toList_inj]
    simp [spanPath, Decimal.integer_natCast, String.toList_append]
  have hnames : ∀ name ∈ ["traces".toList, Decimal.digits traceIndex, "spans".toList,
      Decimal.digits index, "explain".toList], IsName name := by
    simp only [List.forall_mem_cons, List.not_mem_nil, false_imp_iff, implies_true, and_true]
    exact ⟨isName_traces, isName_digits htrace, isName_spans, isName_digits h, isName_explain⟩
  rw [hpath, ofTarget_names (List.cons_ne_nil _ _) (by simp) hnames]
  rfl

end Paths

section Bodies

/-- The document that asks for a text. -/
def searchDocument (text : String) : Json := .object [("query", .string text)]

/-- A search as it is written, without blanks or on lines. -/
def searchBodies (text : String) : List String :=
  [(searchDocument text).compact, (searchDocument text).pretty]

open Json (Layout Given)

def givenText (text : String) : Given (Option String) :=
  .of "query" [] Json.readString (Json.stringText text) text fun _ text => some text

theorem readSearchText_layout (l : Layout) (text : String) :
    readSearchText (String.ofList
        (l.enclose 0 '\x7b' '\x7d' [l.member "query" (Json.stringText text)])) = .ok text := by
  have hread : (givenText text).Read l [queryField] := by
    refine Given.read_of rfl fun rest => ?_
    rw [Json.readString, Json.skipBlank_append l.isBlank_colon]
    exact Json.readString_stringText text rest
  have hrecord := Json.readRecord_given (List.forall_mem_singleton.2 hread)
    (List.nodup_singleton _) (List.cons_ne_nil _ _) "SearchRequest" none 0 []
  have htext : [l.member "query" (Json.stringText text)] =
      [givenText text].map (Given.text l) := rfl
  rw [List.append_nil] at hrecord
  rw [readSearchText, String.toList_ofList, htext, hrecord]
  rfl

theorem exists_layout {text body : String} (h : body ∈ searchBodies text) :
    ∃ l : Layout, body = String.ofList
      (l.enclose 0 '\x7b' '\x7d' [l.member "query" (Json.stringText text)]) := by
  rcases List.mem_pair.1 h with rfl | rfl
  · refine ⟨.tight, ?_⟩
    rw [Json.compact, searchDocument, Layout.compactText_object 0]
    rfl
  · refine ⟨.lines, ?_⟩
    rw [Json.pretty, searchDocument, Layout.prettyText_object]
    rfl

theorem readSearchText_written {text body : String} (h : body ∈ searchBodies text) :
    readSearchText body = .ok text := by
  obtain ⟨l, rfl⟩ := exists_layout h
  exact readSearchText_layout l text

/-- A body has more bytes than the text it asks for has characters. -/
theorem length_lt_utf8ByteSize {text body : String} (h : body ∈ searchBodies text) :
    text.length < body.utf8ByteSize := by
  obtain ⟨l, rfl⟩ := exists_layout h
  have hescaped := Json.length_le_length_escaped text.toList
  rw [String.length_toList] at hescaped
  refine Nat.lt_of_lt_of_le ?_ (Text.length_le_utf8ByteSize_ofList _)
  simp only [Layout.enclose, Layout.member, Json.stringText, List.isEmpty_cons, Bool.false_eq_true,
    if_false, List.intercalate_singleton, List.length_append, List.length_cons]
  omega

end Bodies

/-- A request to search for a text. -/
structure AsksSearch (r : Request) (text : String) : Prop where
  method : r.method = .post
  route : Route.ofTarget r.target = some .search
  mediaType : announcesJson r.contentType = true
  size : r.body.utf8ByteSize ≤ bodyLimit
  body : readSearchText r.body = .ok text

/-- A request to explain the trace at a position. -/
structure AsksTrace (r : Request) (index : ℕ) : Prop where
  method : r.method = .get
  route : ∃ name, Route.ofTarget r.target = some (.explainTrace name) ∧ positionOf name = some index

/-- A request to explain the span at a position of the trace at a position. -/
structure AsksSpan (r : Request) (traceIndex index : ℕ) : Prop where
  method : r.method = .get
  route : ∃ traceName name, Route.ofTarget r.target = some (.explainSpan traceName name) ∧
    positionOf traceName = some traceIndex ∧ positionOf name = some index

theorem ofTarget_search : Route.ofTarget "/search" = some .search := by decide +kernel

theorem announcesJson_json : announcesJson (some "application/json") = true := by decide +kernel

theorem asksSearch_written {text body : String} (hbody : body ∈ searchBodies text)
    (hsize : body.utf8ByteSize ≤ bodyLimit) :
    AsksSearch ⟨.post, "/search", some "application/json", body⟩ text where
  method := rfl
  route := ofTarget_search
  mediaType := announcesJson_json
  size := hsize
  body := readSearchText_written hbody

theorem asksTrace_written {index : ℕ} (h : index < 2 ^ 64) :
    AsksTrace ⟨.get, tracePath index, none, ""⟩ index where
  method := rfl
  route := ⟨_, ofTarget_tracePath (Nat.lt_trans h (by decide)), by rw [positionOf_digits, if_pos h]⟩

theorem asksSpan_written {traceIndex index : ℕ} (htrace : traceIndex < 2 ^ 64)
    (h : index < 2 ^ 64) :
    AsksSpan ⟨.get, spanPath traceIndex index, none, ""⟩ traceIndex index where
  method := rfl
  route := ⟨_, _,
    ofTarget_spanPath (Nat.lt_trans htrace (by decide)) (Nat.lt_trans h (by decide)),
    by rw [positionOf_digits, if_pos htrace], by rw [positionOf_digits, if_pos h]⟩

end Server

end TraceSearch
