import TraceSearch.Proofs.Json.Grammar

/-!
# Literals and their grammar

Strings and numbers are read as they are spelled, and nothing else is read as one. Main facts:
`readStringRest_characters` and `characters_of_readStringRest` for strings, `readNumber_spelled` and
`text_of_readNumber` for numbers.
-/

namespace TraceSearch.Json

open Decimal

section Strings

variable {kept : Bool} {source cs : List Char}

theorem readStringRest_escape (before : List Char) {c e : Char} (he : escaped? c = some e)
    (rest : List Char) :
    readStringRest kept before ('\\' :: c :: rest) = readStringRest kept (e :: before) rest := by
  have hu : c ≠ 'u' := by
    rintro rfl
    cases he
  rw [readStringRest.eq_def]
  split <;> rename_i heq <;> cases heq
  · exact absurd rfl hu
  · exact absurd rfl hu
  · rw [he]
  · rename_i h _
    exact absurd rfl (h c rest rfl)

theorem readStringRest_characters (h : Characters kept source cs) (before rest : List Char) :
    readStringRest kept before (source ++ '"' :: rest) =
      .ok (String.ofList (before.reverse ++ cs), rest) := by
  induction h generalizing before with
  | nil => simp [readStringRest]
  | plain hquote hbackslash hc _ ih =>
    rw [List.cons_append, readStringRest_plain kept before hquote hbackslash hc, ih]
    simp
  | escape he _ ih =>
    rw [List.cons_append, List.cons_append, readStringRest_escape before he, ih]
    simp
  | unit hunit halone _ ih =>
    simp only [List.cons_append, readStringRest, hunit]
    cases kept with
    | false => simp [ih]
    | true => simp [halone rfl, ih]
  | pair hkept hunit hleading hnext htrailing _ ih =>
    subst hkept
    simp [readStringRest, hunit, hleading, hnext, htrailing, ih]

/-- What a reader has taken from a string that goes on. -/
theorem exists_characters_append (piece : List Char) {s rest before : List Char} {e : Char}
    {text : String}
    (hpiece : ∀ source cs, Characters kept source cs → Characters kept (piece ++ source) (e :: cs))
    (h : ∃ source cs, s = source ++ '"' :: rest ∧ Characters kept source cs ∧
      text = String.ofList ((e :: before).reverse ++ cs)) :
    ∃ source cs, piece ++ s = source ++ '"' :: rest ∧ Characters kept source cs ∧
      text = String.ofList (before.reverse ++ cs) := by
  obtain ⟨source, cs, rfl, hsource, rfl⟩ := h
  exact ⟨piece ++ source, e :: cs, by simp, hpiece source cs hsource, by simp⟩

theorem characters_of_readStringRest {before s rest : List Char} {text : String}
    (h : readStringRest kept before s = .ok (text, rest)) :
    ∃ source cs, s = source ++ '"' :: rest ∧ Characters kept source cs ∧
      text = String.ofList (before.reverse ++ cs) := by
  -- one case for each way the reader goes on; the others are errors
  fun_induction readStringRest kept before s
  case case2 =>
    cases h
    exact ⟨[], [], rfl, .nil, by simp⟩
  case case5 a b c d unit hunit hpair e f g i s next hnext htrailing ih =>
    obtain ⟨hkept, hleading⟩ := Bool.and_eq_true_iff.1 hpair
    exact exists_characters_append ['\\', 'u', a, b, c, d, '\\', 'u', e, f, g, i]
      (fun _ _ h => .pair hkept hunit hleading hnext htrailing h) (ih h)
  case case12 a b c d s unit hunit hleading htrailing ih =>
    have halone (hkept : kept = true) : isLeading unit = false ∧ isTrailing unit = false := by
      subst hkept
      simpa using And.intro hleading htrailing
    exact exists_characters_append ['\\', 'u', a, b, c, d]
      (fun _ _ h => .unit hunit halone h) (ih h)
  case case14 c s _ _ e he ih =>
    exact exists_characters_append ['\\', c] (fun _ _ h => .escape he h) (ih h)
  case case18 c s hquote _ _ hescape hlast hc ih =>
    have hbackslash : c ≠ '\\' := by
      rintro rfl
      cases s with
      | nil => exact hlast rfl rfl
      | cons d s => exact hescape d s rfl rfl
    exact exists_characters_append [c] (fun _ _ h => .plain hquote hbackslash hc h) (ih h)
  all_goals cases h

end Strings

section Numbers

variable {kept : Bool} {l : NumberLiteral} {text rest : List Char}

theorem readExponent_text {e : Option (Bool × List Char)} {text : List Char}
    (h : ExponentText e text) (he : ∀ p ∈ e, DigitRun p.2) (hrest : EndsNumber rest) :
    readExponent (text ++ rest) = .ok (e, rest) := by
  cases h with
  | absent => exact readExponent_chars (e := none) he hrest
  | @present mark sign negative ds hmark hsign =>
    have hrun := he _ rfl
    have hread := readDigits_run hrun fun c hc => (hrest c hc).1
    have hsplit : splitSign (sign ++ (ds ++ rest)) = (negative, ds ++ rest) := by
      rcases ds with _ | ⟨d, ds⟩
      · exact absurd rfl hrun.1
      have hd := hrun.2 d List.mem_cons_self
      have hminus : d ≠ '-' := by
        rintro rfl
        cases hd
      have hplus : d ≠ '+' := by
        rintro rfl
        cases hd
      simp only [List.mem_cons, Prod.mk.injEq, List.not_mem_nil, or_false] at hsign
      rcases hsign with ⟨rfl, rfl⟩ | ⟨rfl, rfl⟩ | ⟨rfl, rfl⟩
      · simp [splitSign, hminus, hplus]
      · rfl
      · rfl
    rw [List.cons_append, List.append_assoc, readExponent_cons, if_pos hmark, hsplit]
    simp only [hread, Except.map]

theorem head_exponentText {e : Option (Bool × List Char)} {text : List Char}
    (h : ExponentText e text) (hrest : EndsNumber rest) :
    ∀ c ∈ (text ++ rest).head?, c.isDigit = false ∧ c ≠ '.' := by
  intro c hc
  cases h with
  | absent => exact ⟨(hrest c hc).1, (hrest c hc).2.1⟩
  | present ds hmark hsign =>
    cases hc
    rcases hmark with rfl | rfl <;> decide

theorem splitMinus_run {ds : List Char} (h : DigitRun ds) (negative : Bool) (rest : List Char) :
    splitMinus ((if negative then ['-'] else []) ++ (ds ++ rest)) = (negative, ds ++ rest) := by
  cases negative with
  | true => rfl
  | false =>
    rcases ds with _ | ⟨d, ds⟩
    · exact absurd rfl h.1
    have hminus : d ≠ '-' := by
      rintro rfl
      cases h.2 '-' List.mem_cons_self
    simp [splitMinus, hminus]

theorem readNumberLiteral_spelled (h : l.SpelledBy text) (hrest : EndsNumber rest) :
    readNumberLiteral (text ++ rest) = .ok (l, rest) := by
  obtain @⟨exponent, hl, hexponent⟩ := h
  have hpoint := head_exponentText hexponent hrest
  have hdigit : ∀ c ∈ (NumberLiteral.fractionChars l.fraction ++ (exponent ++ rest)).head?,
      c.isDigit = false := by
    intro c hc
    cases hfraction : l.fraction with
    | none =>
      rw [hfraction] at hc
      exact (hpoint c hc).1
    | some ds =>
      rw [hfraction] at hc
      cases hc
      rfl
  have hwhole := readWhole_run hl.whole hl.leading hdigit
  have hfraction := readFraction_chars hl.fraction hpoint
  have hexponent := readExponent_text hexponent hl.exponent hrest
  unfold readNumberLiteral
  rw [List.append_assoc, List.append_assoc, List.append_assoc, splitMinus_run hl.whole]
  simp only [hwhole, hfraction, hexponent, bind, Except.bind, pure, Except.pure]

theorem readNumber_spelled {n : Number} (h : NumberText kept text n) (hrest : EndsNumber rest) :
    readNumber kept (text ++ rest) = .ok (n, rest) := by
  unfold readNumber
  cases h with
  | held hl hn => simp only [readNumberLiteral_spelled hl hrest, hn]
  | skipped hkept hl hn =>
    subst hkept
    simp [readNumberLiteral_spelled hl hrest, hn]

theorem run_of_readDigits {s ds : List Char} (h : readDigits s = .ok (ds, rest)) :
    s = ds ++ rest ∧ DigitRun ds := by
  have happend := splitDigits_append s
  have hdigits : ∀ c ∈ (splitDigits s).1, c.isDigit = true := fun c hc =>
    List.all_eq_true.1 List.all_takeWhile c hc
  unfold readDigits at h
  generalize splitDigits s = split at h happend hdigits
  obtain ⟨run, after⟩ := split
  cases run with
  | nil => cases after <;> cases h
  | cons d run =>
    cases h
    exact ⟨happend.symm, List.cons_ne_nil _ _, hdigits⟩

theorem chars_of_readFraction {s : List Char} {f : Option (List Char)}
    (h : readFraction s = .ok (f, rest)) :
    s = NumberLiteral.fractionChars f ++ rest ∧ ∀ ds ∈ f, DigitRun ds := by
  unfold readFraction at h
  split at h
  · split at h
    · contradiction
    · rename_i ds after hread
      cases h
      obtain ⟨rfl, hrun⟩ := run_of_readDigits hread
      exact ⟨rfl, fun _ hds => by cases hds; exact hrun⟩
  · cases h
    exact ⟨rfl, fun _ hds => by cases hds⟩

theorem sign_of_splitSign (s : List Char) :
    ∃ sign, s = sign ++ (splitSign s).2 ∧
      (sign, (splitSign s).1) ∈ [([], false), (['+'], false), (['-'], true)] := by
  unfold splitSign
  split
  · exact ⟨['-'], rfl, by simp⟩
  · exact ⟨['+'], rfl, by simp⟩
  · exact ⟨[], rfl, by simp⟩

theorem text_of_readExponent {s : List Char} {e : Option (Bool × List Char)}
    (h : readExponent s = .ok (e, rest)) :
    ∃ text, s = text ++ rest ∧ ExponentText e text ∧ ∀ p ∈ e, DigitRun p.2 := by
  cases s with
  | nil =>
    cases h
    exact ⟨[], rfl, .absent, fun _ hp => by cases hp⟩
  | cons c s =>
    rw [readExponent_cons] at h
    split at h
    · rename_i hmark
      obtain ⟨⟨ds, after⟩, hread, h⟩ := map_eq_ok_iff.1 h
      cases h
      obtain ⟨sign, hs, hsign⟩ := sign_of_splitSign s
      obtain ⟨happend, hrun⟩ := run_of_readDigits hread
      rw [happend] at hs
      refine ⟨c :: (sign ++ ds), by rw [hs]; simp, .present ds hmark hsign, fun p hp => ?_⟩
      cases hp
      exact hrun
    · cases h
      exact ⟨[], rfl, .absent, fun _ hp => by cases hp⟩

theorem append_splitMinus (s : List Char) :
    s = (if (splitMinus s).1 then ['-'] else []) ++ (splitMinus s).2 := by
  unfold splitMinus
  split <;> rfl

theorem spelled_of_readNumberLiteral {s : List Char} (h : readNumberLiteral s = .ok (l, rest)) :
    ∃ text, s = text ++ rest ∧ l.SpelledBy text := by
  have hminus := append_splitMinus s
  unfold readNumberLiteral at h
  dsimp only [bind, Except.bind] at h
  split at h
  · contradiction
  rename_i hwhole
  split at h
  · contradiction
  rename_i hfraction
  split at h
  · contradiction
  rename_i hexponent
  cases h
  obtain ⟨hdigits, hleading⟩ := readWhole_eq_ok_iff.1 hwhole
  obtain ⟨hs, hrun⟩ := run_of_readDigits hdigits
  obtain ⟨hs', hfraction⟩ := chars_of_readFraction hfraction
  obtain ⟨text, hs'', htext, hexponent⟩ := text_of_readExponent hexponent
  rw [hs, hs', hs''] at hminus
  refine ⟨_, hminus.trans ?_, .parts ⟨hrun, hleading, hfraction, hexponent⟩ htext⟩
  simp

theorem text_of_readNumber {s : List Char} {n : Number} (h : readNumber kept s = .ok (n, rest)) :
    ∃ text, s = text ++ rest ∧ NumberText kept text n := by
  unfold readNumber at h
  split at h
  · contradiction
  · rename_i hliteral
    obtain ⟨text, rfl, hl⟩ := spelled_of_readNumberLiteral hliteral
    split at h
    · rename_i hn
      cases h
      exact ⟨text, rfl, .held hl hn⟩
    · rename_i hn
      split at h
      · contradiction
      · rename_i hkept
        cases h
        exact ⟨text, rfl, .skipped (Bool.not_eq_true _ ▸ hkept) hl hn⟩

end Numbers

end TraceSearch.Json
