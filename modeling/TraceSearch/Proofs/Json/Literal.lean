import TraceSearch.Json.Printer
import TraceSearch.Json.Reader

/-!
# Written literals read back

The reader takes the longest number it can, so what follows a number must not go on with it; a
string ends at its closing quote whatever follows. Main facts: `readNumberLiteral_chars`, a number
is read part by part as it is spelled, and `readStringRest_escaped`, a string is read as the
characters that were escaped.
-/

namespace TraceSearch.Json

open Decimal

@[simp] theorem map_eq_ok_iff {ε α β : Type} {x : Except ε α} {f : α → β} {b : β} :
    x.map f = .ok b ↔ ∃ a, x = .ok a ∧ f a = b := by
  cases x with
  | error e => simp [Except.map]
  | ok a => simp [Except.map]

/-- What may follow a number: nothing that goes on with it. -/
def EndsNumber (rest : List Char) : Prop :=
  ∀ c ∈ rest.head?, c.isDigit = false ∧ c ≠ '.' ∧ c ≠ 'e' ∧ c ≠ 'E'

def DigitRun (ds : List Char) : Prop := ds ≠ [] ∧ ∀ c ∈ ds, c.isDigit = true

theorem digitRun_digits (n : Nat) : DigitRun (digits n) :=
  ⟨digits_ne_nil n, fun _ hc => isDigit_of_mem_digits hc⟩

theorem readDigits_run {ds rest : List Char} (h : DigitRun ds)
    (hrest : ∀ c ∈ rest.head?, c.isDigit = false) : readDigits (ds ++ rest) = .ok (ds, rest) := by
  obtain ⟨hne, hdigits⟩ := h
  unfold readDigits
  rw [splitDigits_of_all hdigits rest hrest]
  split
  · rename_i heq
    cases heq
    exact absurd rfl hne
  · rename_i heq
    cases heq
    exact absurd rfl hne
  · rename_i heq
    cases heq
    rfl

namespace NumberLiteral

def fractionChars : Option (List Char) → List Char
  | none => []
  | some ds => '.' :: ds

def exponentChars : Option (Bool × List Char) → List Char
  | none => []
  | some (negative, ds) => 'e' :: (if negative then '-' else '+') :: ds

def chars (l : NumberLiteral) : List Char :=
  (if l.negative then ['-'] else []) ++
    (l.whole ++ (fractionChars l.fraction ++ exponentChars l.exponent))

/-- Every part that is there has digits, and the whole part no leading zeros. -/
structure WellFormed (l : NumberLiteral) : Prop where
  whole : DigitRun l.whole
  leading : ∀ d ds, l.whole ≠ '0' :: d :: ds
  fraction : ∀ ds ∈ l.fraction, DigitRun ds
  exponent : ∀ e ∈ l.exponent, DigitRun e.2

end NumberLiteral

open NumberLiteral

theorem head_exponentChars {e : Option (Bool × List Char)} {rest : List Char}
    (hrest : EndsNumber rest) :
    ∀ c ∈ (exponentChars e ++ rest).head?, c.isDigit = false ∧ c ≠ '.' := by
  intro c hc
  match e, hc with
  | none, hc => exact ⟨(hrest c hc).1, (hrest c hc).2.1⟩
  | some (negative, ds), hc =>
    cases hc
    decide

theorem head_fractionChars {f : Option (List Char)} {e : Option (Bool × List Char)}
    {rest : List Char} (hrest : EndsNumber rest) :
    ∀ c ∈ (fractionChars f ++ (exponentChars e ++ rest)).head?, c.isDigit = false := by
  intro c hc
  match f, hc with
  | none, hc => exact (head_exponentChars hrest c hc).1
  | some ds, hc =>
    cases hc
    decide

theorem readWhole_run {ds rest : List Char} (h : DigitRun ds)
    (hleading : ∀ e es, ds ≠ '0' :: e :: es) (hrest : ∀ c ∈ rest.head?, c.isDigit = false) :
    readWhole (ds ++ rest) = .ok (ds, rest) := by
  unfold readWhole
  rw [readDigits_run h hrest]
  split
  · contradiction
  · rename_i heq
    cases heq
    exact absurd rfl (hleading _ _)
  · rename_i heq
    exact heq.symm

theorem readFraction_chars {f : Option (List Char)} (hf : ∀ ds ∈ f, DigitRun ds)
    {rest : List Char} (hrest : ∀ c ∈ rest.head?, c.isDigit = false ∧ c ≠ '.') :
    readFraction (fractionChars f ++ rest) = .ok (f, rest) := by
  match f with
  | none =>
    show readFraction rest = _
    unfold readFraction
    split
    · exact absurd rfl (hrest '.' rfl).2
    · rfl
  | some ds =>
    have hread := readDigits_run (hf ds rfl) fun c hc => (hrest c hc).1
    show readFraction ('.' :: (ds ++ rest)) = _
    simp only [readFraction, hread]

theorem readExponent_chars {e : Option (Bool × List Char)} (he : ∀ p ∈ e, DigitRun p.2)
    {rest : List Char} (hrest : EndsNumber rest) :
    readExponent (exponentChars e ++ rest) = .ok (e, rest) := by
  match e with
  | none =>
    match rest, hrest with
    | [], _ => rfl
    | c :: rest, hrest =>
      have hc := hrest c rfl
      have hexponent : ¬(c = 'e' ∨ c = 'E') := not_or.2 hc.2.2
      show readExponent (c :: rest) = _
      exact if_neg hexponent
  | some (negative, ds) =>
    have hread := readDigits_run (he _ rfl) fun c hc => (hrest c hc).1
    show readExponent ('e' :: (if negative then '-' else '+') :: (ds ++ rest)) = _
    cases negative with
    | true => simp [readExponent, hread]
    | false => simp [readExponent, hread]

theorem splitMinus_chars (l : NumberLiteral) (hl : l.WellFormed) (rest : List Char) :
    splitMinus (l.chars ++ rest) =
      (l.negative,
        l.whole ++ (fractionChars l.fraction ++ (exponentChars l.exponent ++ rest))) := by
  have hrun := hl.whole
  unfold chars
  cases l.negative with
  | true => simp [splitMinus]
  | false =>
    cases hwhole : l.whole with
    | nil => exact absurd hwhole hrun.1
    | cons d ds =>
      have hd := hrun.2 d (by rw [hwhole]; exact List.mem_cons_self)
      have hminus : d ≠ '-' := by
        rintro rfl
        exact absurd hd (by decide)
      simp only [List.append_assoc, Bool.false_eq_true, if_false, List.nil_append, List.cons_append]
      unfold splitMinus
      split
      · rename_i heq
        cases heq
        exact absurd rfl hminus
      · rfl

/-- A literal is read as a whole. -/
theorem readNumberLiteral_chars {l : NumberLiteral} (hl : l.WellFormed) {rest : List Char}
    (hrest : EndsNumber rest) : readNumberLiteral (l.chars ++ rest) = .ok (l, rest) := by
  have hwhole := readWhole_run hl.whole hl.leading (head_fractionChars (f := l.fraction)
    (e := l.exponent) hrest)
  have hfraction := readFraction_chars hl.fraction (head_exponentChars (e := l.exponent) hrest)
  have hexponent := readExponent_chars hl.exponent hrest
  unfold readNumberLiteral
  rw [splitMinus_chars l hl]
  simp only [hwhole, hfraction, hexponent, bind, Except.bind, pure, Except.pure]

theorem codeUnit?_control : ∀ n < 32,
    (Nat.toDigits 16 n).leftpad 2 '0' = [(n / 16).digitChar, (n % 16).digitChar] ∧
      codeUnit? '0' '0' (n / 16).digitChar (n % 16).digitChar = some n := by
  decide

theorem readStringRest_control (kept : Bool) (before : List Char) {c : Char} (hc : c < ' ')
    (rest : List Char) :
    readStringRest kept before
        (['\\', 'u', '0', '0'] ++ (Nat.toDigits 16 c.toNat).leftpad 2 '0' ++ rest) =
      readStringRest kept (c :: before) rest := by
  have hcode : c.toNat < 32 := hc
  obtain ⟨hdigits, hunit⟩ := codeUnit?_control c.toNat hcode
  have hleading : isLeading c.toNat = false := by
    unfold isLeading
    rw [decide_eq_false (by omega), Bool.false_and]
  have htrailing : isTrailing c.toNat = false := by
    unfold isTrailing
    rw [decide_eq_false (by omega), Bool.false_and]
  rw [hdigits]
  simp [readStringRest, hunit, hleading, htrailing, Char.ofNat_toNat]

theorem readStringRest_plain (kept : Bool) (before : List Char) {c : Char} (hquote : c ≠ '"')
    (hbackslash : c ≠ '\\') (hc : ¬c < ' ') (rest : List Char) :
    readStringRest kept before (c :: rest) = readStringRest kept (c :: before) rest := by
  rw [readStringRest.eq_def]
  split
  · rename_i heq
    cases heq
  · rename_i heq
    cases heq
    exact absurd rfl hquote
  · rename_i heq
    cases heq
    exact absurd rfl hbackslash
  · rename_i heq
    cases heq
    exact absurd rfl hbackslash
  · rename_i heq
    cases heq
    exact absurd rfl hbackslash
  · rename_i heq
    cases heq
    exact absurd rfl hbackslash
  · rename_i heq
    cases heq
    rw [if_neg hc]

/-- The characters with an escape of their own. -/
def shortEscaped : List Char := ['"', '\\', '\x08', '\x0c', '\n', '\r', '\t']

theorem escapedChar_of_not_short {c : Char} (h : c ∉ shortEscaped) :
    escapedChar c =
      if c < ' ' then ['\\', 'u', '0', '0'] ++ (Nat.toDigits 16 c.toNat).leftpad 2 '0'
      else [c] := by
  simp only [shortEscaped, List.mem_cons, List.not_mem_nil, or_false, not_or] at h
  obtain ⟨hquote, hbackslash, hb, hf, hn, hr, ht⟩ := h
  unfold escapedChar
  rw [if_neg hquote, if_neg hbackslash, if_neg hb, if_neg hf, if_neg hn, if_neg hr, if_neg ht]

@[simp] theorem escapedChar_ne_nil (c : Char) : escapedChar c ≠ [] := by
  by_cases hshort : c ∈ shortEscaped
  · have hne : ∀ d ∈ shortEscaped, escapedChar d ≠ [] := by simp [shortEscaped, escapedChar]
    exact hne c hshort
  · rw [escapedChar_of_not_short hshort]
    split <;> exact List.cons_ne_nil _ _

theorem length_le_length_escaped (s : List Char) : s.length ≤ (s.flatMap escapedChar).length := by
  induction s with
  | nil => exact Nat.le_refl _
  | cons c s ih =>
    have hc := List.length_pos_iff.2 (escapedChar_ne_nil c)
    rw [List.flatMap_cons, List.length_append, List.length_cons]
    omega

/-- An escaped character is read as the character. -/
theorem readStringRest_escapedChar (kept : Bool) (before : List Char) (c : Char)
    (rest : List Char) :
    readStringRest kept before (escapedChar c ++ rest) =
      readStringRest kept (c :: before) rest := by
  by_cases hshort : c ∈ shortEscaped
  · have hread : ∀ d ∈ shortEscaped,
        readStringRest kept before (escapedChar d ++ rest) =
          readStringRest kept (d :: before) rest := by
      simp [shortEscaped, escapedChar, readStringRest, escaped?]
    exact hread c hshort
  · rw [escapedChar_of_not_short hshort]
    split
    · rename_i hc
      exact readStringRest_control kept before hc rest
    · rename_i hc
      have hquote : c ≠ '"' := fun heq => hshort (heq ▸ by decide)
      have hbackslash : c ≠ '\\' := fun heq => hshort (heq ▸ by decide)
      exact readStringRest_plain kept before hquote hbackslash hc rest

theorem readStringRest_escaped (kept : Bool) (before cs rest : List Char) :
    readStringRest kept before (cs.flatMap escapedChar ++ '"' :: rest) =
      .ok (String.ofList (before.reverse ++ cs), rest) := by
  induction cs generalizing before with
  | nil => simp [readStringRest]
  | cons c cs ih =>
    rw [List.flatMap_cons, List.append_assoc, readStringRest_escapedChar, ih, List.reverse_cons,
      List.append_assoc, List.singleton_append]

end TraceSearch.Json
