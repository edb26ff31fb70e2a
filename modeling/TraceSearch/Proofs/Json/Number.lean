import TraceSearch.Proofs.Decimal.Arithmetic
import TraceSearch.Proofs.Json.Prefix

/-!
# Numbers that are read and written

What is read as a number is an integer of 64 bits or a finite double. An integer is read as it was
written. A double need not be, since the reader rounds as it goes: this is a property of the double,
`Number.Rereads`. Main facts: `stable_of_readNumber`, and `readNumber_text`, a number that is read
as it was written alone is so in a document.
-/

namespace TraceSearch.Json

open Decimal NumberLiteral

/-- The numbers a document can hold: integers of 64 bits, with a sign or without, and finite
doubles. -/
def Number.Stable : Number → Prop
  | .integer n => Range.signed64.least ≤ n ∧ n ≤ Range.unsigned64.greatest
  | .real x => isFinite x = true

/-- A number that is read as it was written. -/
def Number.Rereads (n : Number) : Prop := readNumber true n.text = .ok (n, [])

instance : DecidablePred Number.Rereads := fun n =>
  match h : readNumber true n.text with
  | .ok (m, []) =>
    if heq : m = n then isTrue (h.trans (by rw [heq]))
    else isFalse fun hn => heq (by cases h.symm.trans hn; rfl)
  | .ok (_, _ :: _) => isFalse fun hn => by cases h.symm.trans hn
  | .error _ => isFalse fun hn => by cases h.symm.trans hn

theorem appendDigits_le {significand : Nat} (h : significand ≤ greatestUnsigned64)
    (ds : List Char) : (appendDigits significand ds).1 ≤ greatestUnsigned64 := by
  induction ds generalizing significand with
  | nil => exact h
  | cons d ds ih =>
    rw [appendDigits]
    dsimp only
    split
    · rename_i hlonger
      exact ih hlonger
    · exact h

theorem significand_decimal_lt (l : NumberLiteral) : l.decimal.significand < 2 ^ 64 :=
  Nat.lt_succ_of_le (appendDigits_le (appendDigits_le (Nat.zero_le _) l.whole) _)

theorem isFinite_of_toFloat? {l : NumberLiteral} {x : Float} (h : l.toFloat? = some x) :
    isFinite x = true := by
  obtain ⟨bits, hbits, rfl⟩ := Option.map_eq_some_iff.1 h
  have hlt := Scaled.magnitude?_lt (significand_decimal_lt l) hbits
  unfold isFinite
  rw [magnitude_signedFloat l.negative (Nat.le_of_lt hlt)]
  exact decide_eq_true hlt

theorem stable_of_toNumber? {l : NumberLiteral} {n : Number} (h : l.toNumber? = some n) :
    n.Stable := by
  unfold NumberLiteral.toNumber? at h
  dsimp only at h
  split at h
  · rename_i hsize
    rw [Bool.and_eq_true] at hsize
    have hrange := Range.unsigned64_contains_iff.1 hsize.2
    cases h
    exact ⟨Int.le_trans (by decide) hrange.1, hrange.2⟩
  · split at h
    · rename_i hsize
      rw [Bool.and_eq_true] at hsize
      have hrange := Range.signed64_contains_iff.1 hsize.2
      cases h
      exact ⟨hrange.1, Int.le_trans hrange.2 (by decide)⟩
    · obtain ⟨x, hx, rfl⟩ := Option.map_eq_some_iff.1 h
      exact isFinite_of_toFloat? hx

theorem stable_of_readNumber {kept : Bool} {s rest : List Char} {n : Number}
    (h : readNumber kept s = .ok (n, rest)) : n.Stable := by
  unfold readNumber at h
  split at h
  · contradiction
  · split at h
    · rename_i hnumber
      cases h
      exact stable_of_toNumber? hnumber
    · split at h
      · contradiction
      · cases h
        exact ⟨by decide, by decide⟩

/-- A number that is read as it was written is so whatever follows it. -/
theorem readNumber_text {n : Number} (hn : n.Rereads) {rest : List Char} (hrest : EndsNumber rest)
    (kept : Bool) : readNumber kept (n.text ++ rest) = .ok (n, rest) :=
  readNumber_kept (readNumber_append hrest hn) kept

theorem head_numberText {n : Number} (hn : n.Rereads) :
    ∃ c cs, n.text = c :: cs ∧ StartsNumber c := startsNumber_of_readNumber hn

theorem no_leading_zero {ds : List Char} (h : ∀ c ∈ ds.head?, c ≠ '0') :
    ∀ e es, ds ≠ '0' :: e :: es := by
  intro e es heq
  exact h '0' (by rw [heq]; rfl) rfl

theorem digits_no_leading_zero (n : Nat) : ∀ d ds, digits n ≠ '0' :: d :: ds := by
  rcases Nat.eq_zero_or_pos n with hzero | hpos
  · intro d ds heq
    rw [hzero] at heq
    exact absurd heq (by simp [digits])
  · exact no_leading_zero (head_digits_ne_zero hpos)

theorem integer_spelled {n : Int} (hn : (Number.integer n).Stable) :
    ∃ l : NumberLiteral, l.WellFormed ∧ l.chars = integerText n ∧
      l.toNumber? = some (.integer n) := by
  change (-9223372036854775808 : Int) ≤ n ∧ n ≤ 18446744073709551615 at hn
  have hwell (negative : Bool) :
      (⟨negative, digits n.natAbs, none, none⟩ : NumberLiteral).WellFormed :=
    { whole := digitRun_digits _
      leading := digits_no_leading_zero _
      fraction := by simp
      exponent := by simp }
  unfold integerText
  split
  · rename_i hneg
    have habs : -(n.natAbs : Int) = n := by omega
    have hpos : 0 < n.natAbs := by omega
    have hrange : Range.signed64.contains n = true := by
      rw [Range.signed64_contains_iff]
      omega
    generalize n.natAbs = size at habs hpos hwell
    refine ⟨_, hwell true, ?_, ?_⟩
    · simp [chars, fractionChars, exponentChars]
    · simp [toNumber?, isInteger, habs, hpos, hrange]
  · rename_i hnonneg
    have habs : (n.natAbs : Int) = n := by omega
    have hrange : Range.unsigned64.contains n = true := by
      rw [Range.unsigned64_contains_iff]
      omega
    generalize n.natAbs = size at habs hwell
    refine ⟨_, hwell false, ?_, ?_⟩
    · simp [chars, fractionChars, exponentChars]
    · simp [toNumber?, isInteger, habs, hrange]

theorem rereads_of_spelled {n : Number} {l : NumberLiteral} (hl : l.WellFormed)
    (hchars : l.chars = n.text) (hn : l.toNumber? = some n) : n.Rereads := by
  have hends : EndsNumber [] := by simp [EndsNumber]
  have hread := readNumberLiteral_chars hl hends
  rw [List.append_nil, hchars] at hread
  simp only [Number.Rereads, readNumber, hread, hn]

theorem rereads_integer {n : Int} (hn : (Number.integer n).Stable) :
    (Number.integer n).Rereads := by
  obtain ⟨l, hl, hchars, hnumber⟩ := integer_spelled hn
  exact rereads_of_spelled hl hchars hnumber

@[simp] theorem scaledText_ne_nil (l : Decimal.Layout) (x : Scaled) : scaledText l x ≠ [] := by
  have hdigits := digits_ne_nil x.significand
  unfold scaledText positionalText exponentText
  split
  · dsimp only
    split
    · simp [hdigits]
    · split <;> simp
  · simp

@[simp] theorem floatText_ne_nil (l : Decimal.Layout) (x : Float) : floatText l x ≠ [] := by
  unfold floatText
  split
  · exact List.cons_ne_nil _ _
  · refine List.append_ne_nil_of_right_ne_nil _ ?_
    split
    · exact List.cons_ne_nil _ _
    · split
      · exact List.cons_ne_nil _ _
      · exact scaledText_ne_nil l _

@[simp] theorem Number.text_ne_nil (n : Number) : n.text ≠ [] := by
  cases n with
  | integer n =>
    show integerText n ≠ []
    unfold integerText
    split
    · exact List.cons_ne_nil _ _
    · exact digits_ne_nil _
  | real x => exact floatText_ne_nil .document x

end TraceSearch.Json
