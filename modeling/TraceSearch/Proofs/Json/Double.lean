import TraceSearch.Proofs.Json.Number

/-!
# Doubles that are read as they were written

A double is written with the digits of its shortest decimal, and the point in front of, among or
behind them or an exponent part. It is read by arithmetic, which is exact but for the last step if
the digits and the power of ten are doubles themselves. Main fact: `rereads_of_short`, a double with
few digits is read as it was written.
-/

namespace TraceSearch.Json

open Decimal NumberLiteral

theorem value_cons (d : Char) (ds : List Char) :
    value (d :: ds) = value [d] * powerOfTen ds.length + value ds := value_append [d] ds

theorem appendDigits_of_le {significand : Nat} {ds : List Char}
    (h : significand * powerOfTen ds.length + value ds ≤ greatestUnsigned64) :
    appendDigits significand ds = (significand * powerOfTen ds.length + value ds, ds.length) := by
  induction ds generalizing significand with
  | nil => rw [appendDigits, List.length_nil, powerOfTen_zero, Nat.mul_one]; rfl
  | cons d ds ih =>
    have hsplit : (significand * 10 + value [d]) * powerOfTen ds.length + value ds =
        significand * powerOfTen (d :: ds).length + value (d :: ds) := by
      rw [value_cons d ds, List.length_cons, powerOfTen_succ]
      ring
    have hpower := powerOfTen_pos ds.length
    rw [← hsplit] at h
    have hlonger : significand * 10 + value [d] ≤ greatestUnsigned64 := by
      refine Nat.le_trans (Nat.le_mul_of_pos_right _ hpower) (Nat.le_trans ?_ h)
      exact Nat.le_add_right _ _
    rw [appendDigits]
    dsimp only
    rw [if_pos hlonger, ih h, hsplit, List.length_cons]

/-- The decimal a literal spells. -/
def NumberLiteral.spelled (l : NumberLiteral) : Scaled :=
  ⟨value (l.whole ++ l.fraction.getD []), l.power - (l.fraction.getD []).length⟩

/-- A literal that fits 64 bits loses no digits. -/
theorem decimal_of_le {l : NumberLiteral} (h : l.spelled.significand ≤ greatestUnsigned64) :
    l.decimal = l.spelled := by
  have hvalue : l.spelled.significand =
      value l.whole * powerOfTen (l.fraction.getD []).length + value (l.fraction.getD []) :=
    value_append _ _
  have hpower := powerOfTen_pos (l.fraction.getD []).length
  rw [hvalue] at h
  have hwhole : value l.whole ≤ greatestUnsigned64 := by
    refine Nat.le_trans (Nat.le_mul_of_pos_right _ hpower) (Nat.le_trans ?_ h)
    exact Nat.le_add_right _ _
  have hfront : appendDigits 0 l.whole = (value l.whole, l.whole.length) := by
    have hread : appendDigits 0 l.whole = _ := appendDigits_of_le (by simpa using hwhole)
    simpa using hread
  unfold decimal
  rw [hfront]
  dsimp only
  rw [appendDigits_of_le h]
  simp [NumberLiteral.spelled, value_append]

/-- A literal without a sign that is read as a double, with the decimal it spells. -/
structure Spells (l : NumberLiteral) (text : List Char) (x : Scaled) : Prop where
  wellFormed : l.WellFormed
  positive : l.negative = false
  chars : l.chars = text
  real : l.isInteger = false
  significand : l.spelled.significand = x.significand
  exponent : l.spelled.exponent = x.exponent

theorem digitRun_append {ds es : List Char} (hds : DigitRun ds) (hes : DigitRun es) :
    DigitRun (ds ++ es) := by
  refine ⟨fun h => hds.1 (List.append_eq_nil_iff.1 h).1, fun c hc => ?_⟩
  rcases List.mem_append.1 hc with hc | hc
  · exact hds.2 c hc
  · exact hes.2 c hc

theorem digitRun_zeros (n : Nat) : DigitRun (List.replicate (n + 1) '0') := by
  refine ⟨List.cons_ne_nil _ _, fun c hc => ?_⟩
  rw [List.eq_of_mem_replicate hc]
  rfl

theorem digitRun_take {ds : List Char} (h : DigitRun ds) {n : Nat} (hn : 0 < n) :
    DigitRun (ds.take n) := by
  refine ⟨fun hnil => ?_, fun c hc => h.2 c (List.mem_of_mem_take hc)⟩
  rcases List.take_eq_nil_iff.1 hnil with hzero | hnil
  · omega
  · exact h.1 hnil

theorem digitRun_drop {ds : List Char} (h : DigitRun ds) {n : Nat} (hn : n < ds.length) :
    DigitRun (ds.drop n) := by
  refine ⟨fun hnil => ?_, fun c hc => h.2 c (List.mem_of_mem_drop hc)⟩
  have hlength := List.drop_eq_nil_iff.1 hnil
  omega

theorem wellFormed_fraction {whole fraction : List Char} (hwhole : DigitRun whole)
    (hleading : ∀ e es, whole ≠ '0' :: e :: es) (hfraction : DigitRun fraction) :
    (⟨false, whole, some fraction, none⟩ : NumberLiteral).WellFormed := by
  refine ⟨hwhole, hleading, fun ds hds => ?_, fun e he => ?_⟩
  · cases hds
    exact hfraction
  · cases he

/-- The digits in front of the point, with a zero behind it. -/
theorem whole_spelled {x : Scaled} (hpos : 0 < x.significand) :
    ∃ l, Spells l
      (digits x.significand ++ List.replicate x.exponent.toNat '0' ++ ['.', '0'])
      ⟨x.significand * powerOfTen (x.exponent.toNat + 1), -1⟩ := by
  have hdigits := digitRun_digits x.significand
  have hhead := head_digits_ne_zero hpos
  have hwhole : DigitRun (digits x.significand ++ List.replicate x.exponent.toNat '0') := by
    cases hzeros : x.exponent.toNat with
    | zero => rwa [List.replicate_zero, List.append_nil]
    | succ n => exact digitRun_append hdigits (digitRun_zeros n)
  have hleading : ∀ c ∈ (digits x.significand ++ List.replicate x.exponent.toNat '0').head?,
      c ≠ '0' := by
    cases hds : digits x.significand with
    | nil => exact absurd hds hdigits.1
    | cons d ds => rwa [hds] at hhead
  refine ⟨_, wellFormed_fraction hwhole (no_leading_zero hleading) (digitRun_zeros 0), rfl, ?_, rfl,
    ?_, rfl⟩
  · simp [chars, fractionChars, exponentChars]
  · show value (digits x.significand ++ List.replicate x.exponent.toNat '0' ++ ['0']) = _
    rw [List.append_assoc, ← List.replicate_succ', value_append, value_digits, value_zeros,
      List.length_replicate, Nat.add_zero]

/-- The point among the digits. -/
theorem split_spelled {x : Scaled} (hpos : 0 < x.significand) {cut : Nat}
    (hcut : (digits x.significand).length + x.exponent = cut) (hwhole : 0 < cut)
    (hfraction : cut < (digits x.significand).length) :
    ∃ l, Spells l
      ((digits x.significand).take cut ++ '.' :: (digits x.significand).drop cut) x := by
  have hdigits := digitRun_digits x.significand
  have hleading : ∀ c ∈ ((digits x.significand).take cut).head?, c ≠ '0' := by
    rw [List.head?_take, if_neg (by omega)]
    exact head_digits_ne_zero hpos
  refine ⟨_, wellFormed_fraction (digitRun_take hdigits hwhole) (no_leading_zero hleading)
    (digitRun_drop hdigits hfraction), rfl, ?_, rfl, ?_, ?_⟩
  · simp [chars, fractionChars, exponentChars]
  · show value ((digits x.significand).take cut ++ (digits x.significand).drop cut) = x.significand
    rw [List.take_append_drop, value_digits]
  · show 0 - (((digits x.significand).drop cut).length : Int) = x.exponent
    rw [List.length_drop]
    omega

/-- The digits behind the point. -/
theorem fraction_spelled {x : Scaled} {gap : Nat}
    (hgap : (digits x.significand).length + x.exponent = -gap) :
    ∃ l, Spells l (['0', '.'] ++ List.replicate gap '0' ++ digits x.significand) x := by
  have hdigits := digitRun_digits x.significand
  have hfraction : DigitRun (List.replicate gap '0' ++ digits x.significand) := by
    cases gap with
    | zero => exact hdigits
    | succ n => exact digitRun_append (digitRun_zeros n) hdigits
  refine ⟨_, wellFormed_fraction (digitRun_zeros 0) (by simp) hfraction, rfl, ?_, rfl, ?_, ?_⟩
  · simp [chars, fractionChars, exponentChars]
  · show value (List.replicate (gap + 1) '0' ++ digits x.significand) = x.significand
    rw [value_append, value_zeros, Nat.zero_mul, Nat.zero_add, value_digits]
  · show 0 - ((List.replicate gap '0' ++ digits x.significand).length : Int) = x.exponent
    rw [List.length_append, List.length_replicate]
    omega

theorem power_digits (negative : Bool) (whole : List Char) (fraction : Option (List Char))
    (power : Int) :
    (⟨negative, whole, fraction,
      some (decide (power < 0), digits power.natAbs)⟩ : NumberLiteral).power = power := by
  unfold NumberLiteral.power
  by_cases hsign : power < 0
  · have habs : -(power.natAbs : Int) = power := by omega
    simp only [hsign, decide_true, value_digits, habs]
  · have habs : (power.natAbs : Int) = power := by omega
    simp only [hsign, decide_false, value_digits, habs]

theorem exponent_spelled {x : Scaled} : ∃ l, Spells l (exponentText x) x := by
  have hdigits := digitRun_digits x.significand
  have hlength := length_digits_pos x.significand
  have hvalue := value_digits x.significand
  unfold exponentText
  dsimp only
  generalize digits x.significand = ds at *
  generalize hpower : (ds.length : Int) - 1 + x.exponent = power at *
  have hsingle : ∀ e es, ds.take 1 ≠ '0' :: e :: es := by
    intro e es heq
    have htwo := congrArg List.length heq
    rw [List.length_take, List.length_cons, List.length_cons] at htwo
    omega
  have hwell (fraction : Option (List Char)) (hfraction : ∀ es ∈ fraction, DigitRun es) :
      (⟨false, ds.take 1, fraction,
        some (decide (power < 0), digits power.natAbs)⟩ : NumberLiteral).WellFormed := by
    refine ⟨digitRun_take hdigits (by decide), hsingle, hfraction, fun e he => ?_⟩
    cases he
    exact digitRun_digits _
  -- a single digit has no point behind it
  by_cases hone : ds.length = 1
  · refine ⟨_, hwell none (by simp), rfl, ?_, rfl, ?_, ?_⟩
    · simp [chars, fractionChars, exponentChars, hone]
    · show value (ds.take 1 ++ []) = x.significand
      rw [List.append_nil, List.take_of_length_le (by omega), hvalue]
    · show NumberLiteral.power _ - (0 : Nat) = x.exponent
      rw [power_digits]
      omega
  · refine ⟨_, hwell (some (ds.drop 1)) ?_, rfl, ?_, rfl, ?_, ?_⟩
    · intro es hes
      cases hes
      exact digitRun_drop hdigits (by omega)
    · simp [chars, fractionChars, exponentChars, hone]
    · show value (ds.take 1 ++ ds.drop 1) = x.significand
      rw [List.take_append_drop, hvalue]
    · show NumberLiteral.power _ - ((ds.drop 1).length : Int) = x.exponent
      rw [power_digits, List.length_drop]
      omega

/-- A decimal with a fraction is spelled as it is. -/
theorem fraction_of_point {x : Scaled} (hpos : 0 < x.significand) (hfraction : x.exponent < 0) :
    ∃ l, Spells l (scaledText .document x) x := by
  have hlength := length_digits_pos x.significand
  unfold scaledText
  split
  · unfold positionalText
    dsimp only
    rw [if_neg (by omega)]
    split
    · rename_i hpoint
      exact split_spelled hpos (by omega) (by omega) (by omega)
    · rename_i hpoint
      exact fraction_spelled (by omega)
  · exact exponent_spelled

section Reading

variable {l : NumberLiteral} {text : List Char} {d : Scaled} (hl : Spells l text d)

include hl

/-- Where the decimal is short it is read as the double it stands for, under any sign. -/
theorem toFloat?_of_spells (hsignificand : d.significand < 2 ^ 53)
    (hexponent : d.exponent.natAbs ≤ 22) {x : Float} (hx : isFinite x = true)
    (hnear : nearestMagnitude d.numerator d.denominator = magnitude x) :
    ({ l with negative := isNegative x } : NumberLiteral).toFloat? = some x := by
  have hspelled : l.spelled = d := by
    obtain ⟨significand, exponent⟩ := d
    exact congrArg₂ Scaled.mk hl.significand hl.exponent
  have hkept : l.decimal = d := by
    rw [← hspelled]
    refine decimal_of_le ?_
    rw [hl.significand, greatestUnsigned64]
    omega
  have hread : l.decimal.magnitude? = some (magnitude x) := by
    rw [hkept, Scaled.magnitude?_of_short hsignificand hexponent, hnear]
  show l.decimal.magnitude?.map _ = _
  rw [hread, Option.map_some, signedFloat_magnitude hx]

theorem rereads_of_spells {x : Float} (htext : documentText x =
      (if isNegative x then ['-'] else []) ++ text)
    (hx : ({ l with negative := isNegative x } : NumberLiteral).toFloat? = some x) :
    (Number.real x).Rereads := by
  have hwell : ({ l with negative := isNegative x } : NumberLiteral).WellFormed :=
    ⟨hl.wellFormed.whole, hl.wellFormed.leading, hl.wellFormed.fraction, hl.wellFormed.exponent⟩
  have hreal : ({ l with negative := isNegative x } : NumberLiteral).isInteger = false := hl.real
  refine rereads_of_spelled hwell ?_ ?_
  · show _ = documentText x
    rw [htext, ← hl.chars]
    simp [chars, hl.positive]
  · simp [toNumber?, hreal, hx]

end Reading

/-- A double whose shortest decimal, with a zero behind the point if it is whole, has a significand
below `2 ^ 53` and no more than twenty-two digits behind the point. -/
def Short (x : Float) : Prop :=
  let d := shortest (Binary.ofMagnitude (magnitude x))
  d.significand * powerOfTen (d.exponent + 1).toNat < 2 ^ 53 ∧ -22 ≤ d.exponent

instance : DecidablePred Short := fun _ => inferInstanceAs (Decidable (_ ∧ _))

theorem rereads_zero {x : Float} (hx : magnitude x = 0) : (Number.real x).Rereads := by
  have hfinite : isFinite x = true := decide_eq_true (by rw [hx]; decide)
  have hl : Spells ⟨false, ['0'], some ['0'], none⟩ ['0', '.', '0'] ⟨0, -1⟩ :=
    ⟨wellFormed_fraction (digitRun_zeros 0) (by simp) (digitRun_zeros 0), rfl, rfl, rfl, rfl, rfl⟩
  have hnear : nearestMagnitude (Scaled.numerator ⟨0, -1⟩) (Scaled.denominator ⟨0, -1⟩) =
      magnitude x := by
    rw [hx]
    decide +kernel
  refine rereads_of_spells hl ?_ (toFloat?_of_spells hl (by decide) (by decide) hfinite hnear)
  simp [documentText, floatText, isNaN_of_isFinite hfinite, isInfinite_of_isFinite hfinite, hx,
    Decimal.Layout.document]

/-- A whole decimal below `10 ^ 16` is written without an exponent part. -/
theorem positional_of_short {d : Scaled} (hpos : 0 < d.significand) (hexponent : 0 ≤ d.exponent)
    (h : d.significand * powerOfTen (d.exponent.toNat + 1) < 2 ^ 53) :
    scaledText .document d =
      digits d.significand ++ List.replicate d.exponent.toNat '0' ++ ['.', '0'] := by
  have hlength := length_digits_pos d.significand
  have hpower : powerOfTen ((digits d.significand).length - 1 + (d.exponent.toNat + 1)) <
      powerOfTen 16 := by
    refine Nat.lt_of_le_of_lt ?_ (Nat.lt_trans h (by decide))
    rw [powerOfTen_add]
    exact Nat.mul_le_mul_right _ (powerOfTen_le_of_pos hpos)
  have hlast := (Nat.pow_lt_pow_iff_right (by decide)).1 hpower
  have hpositional : Decimal.Layout.document.positional
      ((digits d.significand).length - 1 + d.exponent) = true := by
    simp only [Decimal.Layout.document, Bool.and_eq_true, decide_eq_true_eq]
    omega
  rw [scaledText, if_pos hpositional, positionalText]
  exact if_pos hexponent

/-- A zero behind the point changes nothing. -/
theorem cross_zero {d : Scaled} (h : 0 ≤ d.exponent) :
    d.numerator * (⟨d.significand * powerOfTen (d.exponent.toNat + 1), -1⟩ : Scaled).denominator =
      (⟨d.significand * powerOfTen (d.exponent.toNat + 1), -1⟩ : Scaled).numerator *
        d.denominator := by
  have hzero : (-d.exponent).toNat = 0 := by omega
  show d.significand * powerOfTen d.exponent.toNat * powerOfTen 1 =
    d.significand * powerOfTen (d.exponent.toNat + 1) * powerOfTen 0 *
      powerOfTen (-d.exponent).toNat
  rw [hzero, powerOfTen_zero, Nat.mul_one, Nat.mul_one, Nat.mul_assoc, ← powerOfTen_add]

/-- A double of few digits is read as it was written. -/
theorem rereads_of_short {x : Float} (hx : isFinite x = true) (h : Short x) :
    (Number.real x).Rereads := by
  have hmagnitude : magnitude x < infinityMagnitude := of_decide_eq_true hx
  rcases Nat.eq_zero_or_pos (magnitude x) with hzero | hpos
  · exact rereads_zero hzero
  have htext := floatText_of_pos (l := .document) hx hpos
  have hcanonical := (canonical_ofMagnitude hpos hmagnitude).1
  have hreads := Binary.reads_shortest hcanonical
  have hdigits := hreads.significand_pos hcanonical
  obtain ⟨hsignificand, hplaces⟩ := h
  generalize shortest (Binary.ofMagnitude (magnitude x)) = d at *
  -- behind a whole number a zero is written that is no digit of the shortest decimal
  by_cases hwhole : 0 ≤ d.exponent
  · have hone : (d.exponent + 1).toNat = d.exponent.toNat + 1 := by omega
    rw [hone] at hsignificand
    rw [positional_of_short hdigits hwhole hsignificand] at htext
    obtain ⟨l, hl⟩ := whole_spelled hdigits
    have hnear := nearestMagnitude_of_reads hpos hmagnitude (hreads.congr (cross_zero hwhole))
    have hplace : (-1 : Int).natAbs ≤ 22 := by decide
    exact rereads_of_spells hl htext (toFloat?_of_spells hl hsignificand hplace hx hnear)
  · have hnone : (d.exponent + 1).toNat = 0 := by omega
    rw [hnone, powerOfTen_zero, Nat.mul_one] at hsignificand
    obtain ⟨l, hl⟩ := fraction_of_point hdigits (by omega)
    have hnear := nearestMagnitude_of_reads hpos hmagnitude hreads
    exact rereads_of_spells hl htext (toFloat?_of_spells hl hsignificand (by omega) hx hnear)

/-- Seventeen digits are too many: the double is read as its neighbour. -/
example : ¬(Number.real 31.245270191439438).Rereads := by decide +kernel

end TraceSearch.Json
