import TraceSearch.Proofs.Json.Document

/-!
# Numerals in a document

A numeral is read as its number wherever a value may stand. Main facts: `readValue_numeral` and
`read_numeral`.
-/

namespace TraceSearch.Json

section Literal

variable {numeral : List Char} {l : NumberLiteral} {n : Number}
  (hliteral : readNumberLiteral numeral = .ok (l, []))

include hliteral

theorem readNumber_of_toNumber? (hn : l.toNumber? = some n) :
    readNumber true numeral = .ok (n, []) := by
  simp only [readNumber, hliteral, hn]

theorem readNumber_of_real (hreal : l.isInteger = false) {x : Float} (hx : l.toFloat? = some x) :
    readNumber true numeral = .ok (.real x, []) := by
  refine readNumber_of_toNumber? hliteral ?_
  simp [NumberLiteral.toNumber?, hreal, hx]

end Literal

/-- A numeral is read as its number wherever a value may stand. -/
theorem readValue_numeral {s rest : List Char} {n : Number} (h : readNumber true s = .ok (n, []))
    (hrest : EndsNumber rest) (depth : ℕ) :
    readValue true depth (s ++ rest) = .ok (.number n, rest) := by
  have hnumber := readNumber_append hrest h
  obtain ⟨inner, hinner⟩ := readValue_eq true depth
  obtain ⟨c, cs, rfl, hc⟩ := startsNumber_of_readNumber h
  rw [List.cons_append] at hnumber ⊢
  rw [hinner, readWith_number true inner hc, hnumber]
  rfl

section Member

variable {s : List Char} {n : Number} (h : readNumber true s = .ok (n, [])) (l : Layout)
  (name : String)

include h

theorem readMember_numeral (depth : ℕ) {rest : List Char} (hrest : EndsNumber rest) :
    readMember true (readValue true depth) (l.member name s ++ rest) =
      .ok ((name, .number n), rest) := by
  have htext : l.member name s ++ rest = stringText name ++ ':' :: (l.colon ++ (s ++ rest)) := by
    simp [Layout.member]
  rw [htext, readMember_cons true depth _ l.isBlank_colon, readValue_numeral h hrest]
  rfl

/-- An object with a number as its one member. -/
theorem readObject_numeral (level depth : ℕ) (rest : List Char) :
    ∃ body, l.enclose level '\x7b' '\x7d' [l.member name s] ++ rest = '\x7b' :: body ∧
      readObject true (readValue true depth) body = .ok ([(name, .number n)], rest) := by
  have hread : ∃ body,
      l.enclose level '\x7b' '\x7d' ([name].map fun key => l.member key s) ++ rest =
          '\x7b' :: body ∧
        readObject true (readValue true depth) body =
          if ∀ key ∈ [name], True then .ok ([name].map fun key => (key, .number n), rest)
          else .error .malformed :=
    readEnclosed_enclose l rfl (by decide) endsNumber_brace
      (readMember_append (l.isBlank_gap (level + 1)) true _)
      (fun key _ _ hrest => (readMember_numeral h l key depth hrest).trans (if_pos trivial).symm)
      (fun _ _ => ⟨_, _, rfl, by decide⟩) rest
  simpa using hread

theorem read_numeral :
    read (String.ofList (l.enclose 0 '\x7b' '\x7d' [l.member name s])) =
      .ok (.object [(name, .number n)]) := by
  obtain ⟨body, hbody, hread⟩ := readObject_numeral h l name 0 (nestingLimit - 1) []
  rw [List.append_nil] at hbody
  rw [read, String.toList_ofList, hbody]
  show complete (readWith true (some (readValue true (nestingLimit - 1))) _) = _
  rw [readWith, skipBlank_cons rfl]
  simp only [hread, Except.map]
  rfl

end Member

end TraceSearch.Json
