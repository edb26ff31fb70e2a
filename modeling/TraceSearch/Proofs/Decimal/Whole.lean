import TraceSearch.Decimal.Integer
import TraceSearch.Proofs.Decimal.Layout

/-!
# Whole numbers as doubles

A whole number below `2 ^ 53` is a double, and no other whole number rounds to that double. Main
fact: `plainText_floatOfInt`, in plain text it is written with the digits it has.
-/

namespace TraceSearch.Decimal

namespace Binary

variable {b : Binary}

theorem lowerQuarters_lt (hb : b.Canonical) : b.lowerQuarters < 4 * b.mantissa := by
  have hpos := hb.pos
  unfold lowerQuarters
  split <;> omega

theorem lt_upperQuarters (b : Binary) : 4 * b.mantissa < b.upperQuarters :=
  Nat.lt_add_of_pos_right (by decide)

variable {n : ℕ} (hpos : 0 < n) (hexponent : b.exponent ≤ 0)
  (hvalue : b.mantissa = n * 2 ^ (-b.exponent).toNat)

include hexponent hvalue

/-- A whole double stands for its value. -/
theorem reads_whole (hb : b.Canonical) : b.Reads ⟨n, 0⟩ := by
  have hpoint : n <<< leastScale = b.mantissa * 2 ^ b.step := by
    rw [Nat.shiftLeft_eq, two_pow_steps hb hexponent, hvalue, Nat.mul_assoc]
  have hnumerator : (⟨n, 0⟩ : Scaled).numerator = n := Nat.mul_one n
  have hdenominator : (⟨n, 0⟩ : Scaled).denominator = 1 := rfl
  have hlower := Nat.mul_lt_mul_of_pos_right (lowerQuarters_lt hb) (Nat.two_pow_pos b.step)
  have hupper := Nat.mul_lt_mul_of_pos_right b.lt_upperQuarters (Nat.two_pow_pos b.step)
  rw [Nat.mul_assoc, ← hpoint] at hlower hupper
  unfold Reads Covers
  rw [hnumerator, hdenominator, Nat.mul_one]
  dsimp only
  split
  · exact ⟨Nat.le_of_lt hlower, Nat.le_of_lt hupper⟩
  · exact ⟨hlower, hupper⟩

theorem onGrid_zero_ne_none (hb : b.Canonical) : b.onGrid 0 ≠ none := by
  have hquarters (q : ℕ) : b.quartersOn 0 q = q := by
    have hzero : (b.exponent - 2).toNat = 0 := by omega
    rw [quartersOn, hzero]
    exact Nat.mul_one q
  have hstep : b.gridStep 0 = 4 * 2 ^ (-b.exponent).toNat := by
    have htwo : (2 - b.exponent).toNat = 2 + (-b.exponent).toNat := by omega
    rw [gridStep, htwo, Nat.shiftLeft_eq, Nat.pow_add]
    exact Nat.one_mul _
  have hpoint : n * b.gridStep 0 = 4 * b.mantissa := by
    rw [hstep, hvalue, Nat.mul_left_comm]
  have hbelow : b.quartersOn 0 (4 * b.mantissa) / b.gridStep 0 = n := by
    rw [hquarters, ← hpoint, Nat.mul_div_cancel _ (b.gridStep_pos 0)]
  have hrounds : b.roundsFrom 0 n = true := by
    have hlower := lowerQuarters_lt hb
    have hupper := b.lt_upperQuarters
    unfold roundsFrom
    simp only [hquarters, hpoint]
    split <;> rw [Bool.and_eq_true, decide_eq_true_iff, decide_eq_true_iff] <;> omega
  unfold onGrid
  simp only [hbelow, hrounds]
  cases b.roundsFrom 0 (n + 1) with
  | true =>
    dsimp only
    split <;> exact Option.some_ne_none _
  | false => exact Option.some_ne_none _

include hpos

theorem leadingExponent_of_whole : b.leadingExponent = ((digits n).length : ℤ) - 1 := by
  have hzero : b.exponent.toNat = 0 := by omega
  have hpower : 0 < 2 ^ (-b.exponent).toNat := Nat.two_pow_pos _
  unfold leadingExponent
  dsimp only
  rw [hzero, Nat.shiftLeft_zero, Nat.shiftLeft_eq, Nat.one_mul, hvalue,
    if_pos (Nat.le_mul_of_pos_left _ hpos), Nat.mul_div_cancel _ hpower]

/-- The shortest decimal of a whole double is no other number and has no fraction. -/
theorem numerator_shortest (hb : b.Canonical) :
    0 ≤ (shortest b).exponent ∧ (shortest b).numerator = n := by
  have htop := leadingExponent_of_whole hpos hexponent hvalue
  obtain ⟨i, x, hx, hfirst, hshortest⟩ := exists_shortest hb
  have hlength := length_digits_pos n
  have hle : i ≤ (digits n).length - 1 := by
    refine Nat.le_of_not_lt fun hlt => onGrid_zero_ne_none hexponent hvalue hb ?_
    have hnone := hfirst _ hlt
    rwa [show b.leadingExponent - (((digits n).length - 1 : ℕ) : ℤ) = 0 by omega] at hnone
  have hplace := (exponent_of_onGrid hx).1
  have hnonneg : 0 ≤ x.exponent := by omega
  have hmantissa := mantissa_of_reads_whole hb hexponent hnonneg (reads_of_onGrid hb hx)
  rw [hshortest]
  refine (Scaled.numerator_dropZeros hnonneg 17).imp_right fun hnumerator => ?_
  rw [hnumerator]
  exact Nat.eq_of_mul_eq_mul_right (Nat.two_pow_pos _) (hmantissa.symm.trans hvalue)

end Binary

/-- The magnitude of a whole number below `2 ^ 53`: its bits up to the leading one, and the exponent
of that. -/
def wholeMagnitude (n : ℕ) : ℕ := (1022 + n.log2) * exponentUnit + n * 2 ^ (52 - n.log2)

section Whole

variable {n : ℕ} (hpos : 0 < n) (hlt : n < 2 ^ 53)

include hpos hlt

theorem log2_le : n.log2 ≤ 52 := Nat.le_of_lt_succ ((Nat.log2_lt (by omega)).2 hlt)

theorem mantissa_bounds : 2 ^ 52 ≤ n * 2 ^ (52 - n.log2) ∧ n * 2 ^ (52 - n.log2) < 2 ^ 53 := by
  have hlog := log2_le hpos hlt
  have hleast : 2 ^ n.log2 ≤ n := Nat.log2_self_le (by omega)
  have hgreatest : n < 2 ^ (n.log2 + 1) := Nat.lt_log2_self
  have hfull : 2 ^ n.log2 * 2 ^ (52 - n.log2) = 2 ^ 52 := by
    rw [← Nat.pow_add]
    congr 1
    omega
  have hover : 2 ^ (n.log2 + 1) * 2 ^ (52 - n.log2) = 2 ^ 53 := by
    rw [← Nat.pow_add]
    congr 1
    omega
  exact ⟨hfull ▸ Nat.mul_le_mul_right _ hleast,
    hover ▸ Nat.mul_lt_mul_of_pos_right hgreatest (Nat.two_pow_pos _)⟩

theorem ofMagnitude_whole :
    (Binary.ofMagnitude (wholeMagnitude n)).mantissa = n * 2 ^ (52 - n.log2) ∧
      (Binary.ofMagnitude (wholeMagnitude n)).exponent = (n.log2 : ℤ) - 52 := by
  obtain ⟨hleast, hgreatest⟩ := mantissa_bounds hpos hlt
  have hsplit : wholeMagnitude n =
      exponentUnit * (1023 + n.log2) + (n * 2 ^ (52 - n.log2) - exponentUnit) := by
    unfold wholeMagnitude
    rw [exponentUnit]
    omega
  have hfraction : n * 2 ^ (52 - n.log2) - exponentUnit < exponentUnit := by
    rw [exponentUnit]
    omega
  have hbiased : wholeMagnitude n / exponentUnit = 1023 + n.log2 := by
    rw [hsplit, Nat.mul_add_div (by decide), Nat.div_eq_of_lt hfraction, Nat.add_zero]
  have hrest : wholeMagnitude n % exponentUnit = n * 2 ^ (52 - n.log2) - exponentUnit := by
    rw [hsplit, Nat.mul_add_mod, Nat.mod_eq_of_lt hfraction]
  have hnormal : 1023 + n.log2 ≠ 0 := by omega
  simp only [Binary.ofMagnitude, hbiased, hrest, hnormal, if_false]
  rw [exponentUnit]
  omega

theorem wholeMagnitude_lt : 0 < wholeMagnitude n ∧ wholeMagnitude n < infinityMagnitude := by
  have hlog := log2_le hpos hlt
  obtain ⟨hleast, hgreatest⟩ := mantissa_bounds hpos hlt
  rw [wholeMagnitude, infinityMagnitude, exponentUnit]
  omega

theorem exponent_whole : (Binary.ofMagnitude (wholeMagnitude n)).exponent ≤ 0 := by
  have hlog := log2_le hpos hlt
  rw [(ofMagnitude_whole hpos hlt).2]
  omega

theorem mantissa_whole : (Binary.ofMagnitude (wholeMagnitude n)).mantissa =
    n * 2 ^ (-(Binary.ofMagnitude (wholeMagnitude n)).exponent).toNat := by
  obtain ⟨hmantissa, hexponent⟩ := ofMagnitude_whole hpos hlt
  rw [hmantissa, hexponent]
  congr 2
  omega

theorem reads_wholeMagnitude : (Binary.ofMagnitude (wholeMagnitude n)).Reads ⟨n, 0⟩ := by
  obtain ⟨hmagnitude, hfinite⟩ := wholeMagnitude_lt hpos hlt
  exact Binary.reads_whole (exponent_whole hpos hlt) (mantissa_whole hpos hlt)
    (canonical_ofMagnitude hmagnitude hfinite).1

/-- A whole number below `2 ^ 53` is a double. -/
theorem nearestFloat_whole : nearestFloat n 0 = floatOfMagnitude (wholeMagnitude n) := by
  obtain ⟨hmagnitude, hfinite⟩ := wholeMagnitude_lt hpos hlt
  have hnearest := nearestFloat_of_reads hmagnitude hfinite (reads_wholeMagnitude hpos hlt)
  exact hnearest

theorem plainText_whole (negative : Bool) :
    plainText (signedFloat negative (nearestFloat n 0)) =
      (if negative then ['-'] else []) ++ digits n := by
  obtain ⟨hmagnitude, hfinite⟩ := wholeMagnitude_lt hpos hlt
  have hcanonical := (canonical_ofMagnitude hmagnitude hfinite).1
  have hsigned := magnitude_signedFloat negative (Nat.le_of_lt hfinite)
  have hx : isFinite (signedFloat negative (floatOfMagnitude (wholeMagnitude n))) = true := by
    rw [isFinite, hsigned]
    exact decide_eq_true hfinite
  have hpositive : 0 < magnitude (signedFloat negative (floatOfMagnitude (wholeMagnitude n))) := by
    rwa [hsigned]
  rw [nearestFloat_whole hpos hlt, plainText, floatText_of_pos hx hpositive, hsigned,
    isNegative_signedFloat negative (Nat.le_of_lt hfinite), scaledText_of_positional rfl]
  obtain ⟨hwhole, hnumerator⟩ := Binary.numerator_shortest hpos (exponent_whole hpos hlt)
    (mantissa_whole hpos hlt) hcanonical
  have hsignificand := (Binary.reads_shortest hcanonical).significand_pos hcanonical
  generalize shortest (Binary.ofMagnitude (wholeMagnitude n)) = x at *
  rw [← hnumerator, Scaled.numerator, digits_mul_powerOfTen hsignificand]
  simp [positionalText, hwhole, Layout.plain]

end Whole

theorem plainText_floatOfInt {n : ℤ} (h : n.natAbs ≤ 2 ^ 53) :
    plainText (floatOfInt n) = integerText n := by
  rcases Nat.lt_or_eq_of_le h with hlt | hlast
  · rcases Nat.eq_zero_or_pos n.natAbs with hzero | hpos
    · rw [Int.natAbs_eq_zero.1 hzero]
      decide +kernel
    · rw [floatOfInt, plainText_whole hpos hlt, integerText]
      by_cases hn : n < 0 <;> simp [hn]
  · rcases Int.natAbs_eq n with hn | hn <;> rw [hn, hlast] <;> decide +kernel

end TraceSearch.Decimal
