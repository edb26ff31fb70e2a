import TraceSearch.Otlp.Reader
import TraceSearch.Proofs.Decimal.Whole
import TraceSearch.Proofs.Json.Fields
import TraceSearch.Proofs.Json.Numeral
import TraceSearch.Proofs.Search.Outcome

/-!
# Numeric tags

A tag may be stated by a number. It is then compared by the text that a document would hold, while
an attribute is compared by plain text, and the attribute may hold the nearest double instead of the
number. Main facts: `numeric_tag_found`, the two texts are one for integers that both sides hold
and for doubles with a fraction, so that a search for the tag finds the attribute, and
`numeric_tag_not_found`, they are not one for every numeral.
-/

namespace TraceSearch

open Json (Layout Number Given readNumber)

namespace Intent

/-- The intent with one tag and nothing else. -/
def tagged (key text : String) : Intent :=
  { empty with tags := ⟨[(key, text)], List.pairwise_singleton _ _⟩ }

/-- A document with one tag, whose value is spelled by a numeral. -/
def tagDocument (l : Layout) (key : String) (numeral : List Char) : String :=
  String.ofList (l.enclose 0 '\x7b' '\x7d'
    [l.member "tags" (l.enclose 1 '\x7b' '\x7d' [l.member key numeral])])

section Reading

variable {numeral : List Char} {n : Number} (h : readNumber true numeral = .ok (n, [])) (l : Layout)
  (key : String)

include h

theorem readTags_numeral (rest : List Char) :
    readTags (l.colon ++ (l.enclose 1 '\x7b' '\x7d' [l.member key numeral] ++ rest)) =
      .ok ((tagged key (String.ofList n.text)).tags, rest) := by
  obtain ⟨body, hbody, hread⟩ := Json.readObject_numeral h l key 1 tagNesting rest
  have hstated : statedTags [(key, .number n)] = .ok (tagged key (String.ofList n.text)).tags :=
    statedTags_eq_ok_iff.2 rfl
  rw [readTags, Json.skipBlank_append l.isBlank_colon, hbody, Json.skipBlank_cons rfl]
  simp only [hread, hstated, Except.map]

/-- A tag takes the text that its number has in a document. -/
theorem read_tagDocument :
    read (tagDocument l key numeral) = .ok (tagged key (String.ofList n.text)) := by
  let g : Given Intent := .of "tags" [] readTags
    (l.enclose 1 '\x7b' '\x7d' [l.member key numeral]) (tagged key (String.ofList n.text)).tags
    fun i tags => { i with tags }
  have hg : g.Read l fields := Given.read_of rfl (readTags_numeral h l key)
  have hgiven : ∀ g' ∈ [g], Given.Read l fields g' := by simpa using hg
  have hread := Json.readRecord_given hgiven (List.nodup_singleton _) (List.cons_ne_nil _ _)
    "SearchIR" empty 0 []
  rw [List.append_nil] at hread
  rw [read, tagDocument, String.toList_ofList]
  show Json.complete (Json.readRecord "SearchIR" fields empty
    (l.enclose 0 '\x7b' '\x7d' ([g].map (Given.text l)))) = _
  rw [hread]
  rfl

end Reading

section Searching

variable {key text : String}

theorem validate_tagged (hkey : key ≠ "") (htext : text ≠ "") :
    (tagged key text).validate = .ok () := by
  have htags : checkTags (tagged key text).tags.entries = .ok () :=
    (if_neg (not_or.2 ⟨hkey, htext⟩)).trans rfl
  exact htags

theorem satisfiedBy_tagged {t : Trace} :
    (tagged key text).SatisfiedBy t ↔
      ∃ shared span, t.Holds shared span ∧ span.Tagged shared key text := by
  simp [satisfiedBy_iff, tagged, empty, duration?]

/-- A search for one tag without a limit. -/
theorem search_tagged {m : Type → Type} [Monad m] [LawfulMonad m] {s : Service m} {query : String}
    (hkey : key ≠ "") (htext : text ≠ "")
    (hextract : s.assistant.extract query = pure (.ok (tagged key text)))
    (hlimit : s.maxResults = 0) :
    s.search Schedule.never query =
      pure (.ok (s.corpus.filter fun t => decide ((tagged key text).SatisfiedBy t))) := by
  have hfound : s.found (tagged key text) =
      s.corpus.filter fun t => decide ((tagged key text).SatisfiedBy t) := by
    rw [Service.found, hlimit, bound, if_pos rfl, firstOf_top]
  rw [Service.search_eq_map, hextract, map_pure,
    Service.outcome_never (validate_tagged hkey htext), hfound]

end Searching

end Intent

namespace Json.Number

/-- The double that is nearest to a number. -/
def toFloat : Number → Float
  | .integer n => Decimal.floatOfInt n
  | .real x => x

/-- Numbers with one text, in a document and as a double in plain notation: integers that a double
holds, and doubles that have a fraction and are not tiny. -/
def Plain : Number → Prop
  | .integer n => n.natAbs ≤ 2 ^ 53
  | .real x => (∀ n : ℕ, Decimal.size x ≠ n) ∧ 1 / 10 ^ 5 ≤ Decimal.size x

theorem text_eq_plainText {n : Number} (hn : n.Stable) (h : n.Plain) :
    n.text = Decimal.plainText n.toFloat := by
  cases n with
  | integer n => exact (Decimal.plainText_floatOfInt h).symm
  | real x => exact Decimal.documentText_eq_plainText hn h.1 h.2

end Json.Number

namespace Otlp

/-- A document of one attribute value, of a form whose content is spelled by a numeral. -/
def valueDocument (l : Layout) (form : String) (numeral : List Char) : String :=
  String.ofList (l.enclose 0 '\x7b' '\x7d' [l.member form numeral])

/-- The attribute value that a document is read as. -/
def ReadAs (document : String) (v : AttributeValue) : Prop :=
  ∃ j, Json.read document = .ok j ∧ decodeValue j = .ok v

section Value

variable {numeral : List Char} {n : Number} (h : readNumber true numeral = .ok (n, [])) (l : Layout)

include h

theorem readAs_of_decodeVariant {form : String} {v : AttributeValue}
    (hv : decodeVariant form (.number n) = .ok v) : ReadAs (valueDocument l form numeral) v :=
  ⟨_, Json.read_numeral h l form, by rw [decodeValue, hv]⟩

theorem readAs_double : ReadAs (valueDocument l "doubleValue" numeral) (.double n.toFloat) := by
  refine readAs_of_decodeVariant h l ?_
  cases n <;> simp [decodeVariant, Json.decodeFloat, Except.map, Number.toFloat]

end Value

theorem readAs_int {numeral : List Char} {k : ℤ}
    (h : readNumber true numeral = .ok (.integer k, [])) (l : Layout)
    (hk : Decimal.Range.signed64.contains k = true) :
    ReadAs (valueDocument l "intValue" numeral) (.int (Int64.ofInt k)) := by
  refine readAs_of_decodeVariant h l ?_
  simp [decodeVariant, decodeInt, Json.decodeInteger, hk, Except.map]

theorem text_int {k : ℤ} (hk : Decimal.Range.signed64.contains k = true) :
    (AttributeValue.int (Int64.ofInt k)).text = String.ofList (Number.integer k).text := by
  have hrange := Decimal.Range.signed64_contains_iff.1 hk
  have hvalue : (Int64.ofInt k).toInt = k := Int64.toInt_ofInt_of_le (by omega) (by omega)
  show String.ofList (Decimal.integerText (Int64.ofInt k).toInt) = _
  rw [hvalue]
  rfl

end Otlp

namespace Intent

/-- A tag that is stated by a number finds the attribute that holds it. The tag takes the text that
an attribute of the same integer has, and an attribute of the nearest double if the number is plain;
and a search for the tag alone, without a limit, returns every trace with a span that carries a
value of that text. -/
theorem numeric_tag_found (l l' : Layout) (key : String) {numeral : List Char} {n : Number}
    (h : readNumber true numeral = .ok (n, [])) :
    ∃ text, read (tagDocument l key numeral) = .ok (tagged key text) ∧
      (∀ k, n = .integer k → Decimal.Range.signed64.contains k = true →
        ∃ v, Otlp.ReadAs (Otlp.valueDocument l' "intValue" numeral) v ∧ v.text = text) ∧
      (∃ v, Otlp.ReadAs (Otlp.valueDocument l' "doubleValue" numeral) v ∧
        (n.Plain → v.text = text)) ∧
      (key ≠ "" → ∀ {m : Type → Type} [Monad m] [LawfulMonad m] (s : Service m) (query : String),
        s.assistant.extract query = pure (.ok (tagged key text)) → s.maxResults = 0 →
        ∃ traces, s.search Schedule.never query = pure (.ok traces) ∧
          ∀ t ∈ s.corpus, ∀ p ∈ t.spans, ∀ v ∈ p.attribute? key, v.text = text → t ∈ traces) := by
  have hstable := Json.stable_of_readNumber h
  refine ⟨String.ofList n.text, read_tagDocument h l key, ?_, ?_, ?_⟩
  · rintro k rfl hk
    exact ⟨_, Otlp.readAs_int h l' hk, Otlp.text_int hk⟩
  · refine ⟨_, Otlp.readAs_double h l', fun hplain => ?_⟩
    exact congrArg String.ofList (Number.text_eq_plainText hstable hplain).symm
  · intro hkey m _ _ s query hextract hlimit
    have htext : String.ofList n.text ≠ "" := fun hempty =>
      n.text_ne_nil (String.ofList_eq_empty_iff.1 hempty)
    refine ⟨_, search_tagged hkey htext hextract hlimit, fun t ht p hp v hv hvalue => ?_⟩
    have hheld := Trace.mem_spans_iff.1 hp
    have hcarried := PlacedSpan.attribute?_eq_some_iff.1 hv
    exact List.mem_filter.2 ⟨ht, decide_eq_true
      (satisfiedBy_tagged.2 ⟨_, _, hheld, Or.inl ⟨v, hcarried, hvalue⟩⟩)⟩

theorem plain_quarter : (Number.real 0.25).Plain := by
  have hmantissa : (Decimal.Binary.ofMagnitude (Decimal.magnitude 0.25)).mantissa = 2 ^ 52 := by
    decide +kernel
  have hexponent : (Decimal.Binary.ofMagnitude (Decimal.magnitude 0.25)).exponent = -54 := by
    decide +kernel
  refine ⟨fun n hn => ?_, Decimal.le_size_iff.2 ?_⟩
  · have hsize := Decimal.size_eq_natCast_iff.1 hn
    dsimp only at hsize
    rw [hmantissa, hexponent] at hsize
    change 2 ^ 52 * 2 ^ 0 = n * 2 ^ 54 at hsize
    omega
  · dsimp only
    rw [hmantissa, hexponent]
    decide +kernel

/-- A trace with one span that carries a value under a key. -/
def carrying (key : String) (v : AttributeValue) : Trace :=
  ⟨[⟨default, [⟨default, [{ (default : Span) with attributes := ⟨[(key, v)]⟩ }]⟩]⟩]⟩

/-- A search of a corpus with an assistant that always states the same intent. -/
def stating (i : Intent) (corpus : List Trace) : Service Id where
  corpus := corpus
  assistant := ⟨fun _ => .ok i, fun _ => .error .emptyResponse, fun _ => .error .emptyResponse⟩
  maxResults := 0

theorem numeric_tag_found_quarter :
    ∃ text v, readNumber true "25E-2".toList = .ok (.real 0.25, []) ∧
      read "\x7b\"tags\":\x7b\"ratio\":25E-2\x7d\x7d" = .ok (tagged "ratio" text) ∧
      Otlp.ReadAs "\x7b\"doubleValue\":25E-2\x7d" v ∧ v.text = text ∧
      ∃ traces,
        (stating (tagged "ratio" text) [carrying "ratio" v]).search Schedule.never "a quarter" =
          .ok traces ∧ carrying "ratio" v ∈ traces := by
  have hliteral : Json.readNumberLiteral "25E-2".toList =
      .ok (⟨false, ['2', '5'], none, some (true, ['2'])⟩, []) := rfl
  have hnumber : readNumber true "25E-2".toList = .ok (.real 0.25, []) :=
    Json.readNumber_of_real hliteral rfl (by decide +kernel)
  obtain ⟨text, hread, -, ⟨v, hv, htext⟩, hsearch⟩ :=
    numeric_tag_found .tight .tight "ratio" hnumber
  have htext := htext plain_quarter
  obtain ⟨traces, hfound, hall⟩ := hsearch (by decide)
    (stating (tagged "ratio" text) [carrying "ratio" v]) "a quarter" rfl rfl
  exact ⟨text, v, hnumber, hread, hv, htext, traces, hfound,
    hall _ List.mem_cons_self _ List.mem_cons_self v rfl htext⟩

/-- Zero under a minus is no integer. -/
theorem readNumber_negativeZero : readNumber true "-0".toList = .ok (.real (-0.0), []) := by
  have hliteral : Json.readNumberLiteral "-0".toList = .ok (⟨true, ['0'], none, none⟩, []) := rfl
  have hzero : Decimal.value ['0'] = 0 := rfl
  have hdouble : Json.NumberLiteral.toFloat? ⟨true, ['0'], none, none⟩ = some (-0.0) := by
    decide +kernel
  refine Json.readNumber_of_toNumber? hliteral ?_
  simp [Json.NumberLiteral.toNumber?, Json.NumberLiteral.isInteger, hzero, hdouble]

/-- A tag keeps the numeral that a document would hold: an integer that no double holds, a point
behind a whole number, an exponent of a tiny one. An integer attribute is not read from negative
zero, and a tag needs a key. -/
theorem numeric_tag_not_found :
    (∃ v, read "\x7b\"tags\":\x7b\"k\":9007199254740993\x7d\x7d" =
        .ok (tagged "k" "9007199254740993") ∧
      Otlp.ReadAs "\x7b\"doubleValue\":9007199254740993\x7d" v ∧ v.text = "9007199254740992") ∧
    (∃ v, read "\x7b\"tags\":\x7b\"k\":1.0\x7d\x7d" = .ok (tagged "k" "1.0") ∧
      Otlp.ReadAs "\x7b\"doubleValue\":1.0\x7d" v ∧ v.text = "1") ∧
    (∃ v, read "\x7b\"tags\":\x7b\"k\":1e-6\x7d\x7d" = .ok (tagged "k" "1e-6") ∧
      Otlp.ReadAs "\x7b\"doubleValue\":1e-6\x7d" v ∧ v.text = "0.000001") ∧
    (∀ v, ¬ Otlp.ReadAs "\x7b\"intValue\":-0\x7d" v) ∧
    (tagged "" "1").validate = .error (.emptyTag "") := by
  refine ⟨?_, ?_, ?_, ?_, ?_⟩
  · have hnumber : readNumber true "9007199254740993".toList =
        .ok (.integer 9007199254740993, []) := rfl
    have hread := read_tagDocument hnumber .tight "k"
    rw [show String.ofList _ = "9007199254740993" by decide +kernel] at hread
    exact ⟨_, hread, Otlp.readAs_double hnumber .tight, by decide +kernel⟩
  · have hliteral : Json.readNumberLiteral "1.0".toList =
        .ok (⟨false, ['1'], some ['0'], none⟩, []) := rfl
    have hdouble : Json.NumberLiteral.toFloat? ⟨false, ['1'], some ['0'], none⟩ = some 1 := by
      decide +kernel
    have hnumber := Json.readNumber_of_real hliteral rfl hdouble
    have hread := read_tagDocument hnumber .tight "k"
    rw [show String.ofList _ = "1.0" by decide +kernel] at hread
    exact ⟨_, hread, Otlp.readAs_double hnumber .tight, by decide +kernel⟩
  · have hliteral : Json.readNumberLiteral "1e-6".toList =
        .ok (⟨false, ['1'], none, some (true, ['6'])⟩, []) := rfl
    have hdouble : Json.NumberLiteral.toFloat? ⟨false, ['1'], none, some (true, ['6'])⟩ =
        some 1e-6 := by decide +kernel
    have hnumber := Json.readNumber_of_real hliteral rfl hdouble
    have hread := read_tagDocument hnumber .tight "k"
    rw [show String.ofList _ = "1e-6" by decide +kernel] at hread
    exact ⟨_, hread, Otlp.readAs_double hnumber .tight, by decide +kernel⟩
  · rintro v ⟨j, hj, hv⟩
    have hread := Json.read_numeral readNumber_negativeZero .tight "intValue"
    cases hj.symm.trans hread
    simp [Otlp.decodeValue, Otlp.decodeVariant, Otlp.decodeInt, Json.decodeInteger,
      Except.map] at hv
  · decide

end Intent

end TraceSearch
