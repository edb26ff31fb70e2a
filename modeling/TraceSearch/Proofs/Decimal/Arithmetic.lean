import TraceSearch.Decimal.Arithmetic
import TraceSearch.Proofs.Decimal.Whole

/-!
# Decimals read by arithmetic

A decimal that is read by arithmetic is rounded up to three times, but never becomes infinite or
not-a-number. If its significand and its power of ten are doubles, only the last step rounds. Main
facts: `Scaled.magnitude?_lt`, and `Scaled.magnitude?_of_short`, a decimal with a significand below
`2 ^ 53` and a power of ten from `10 ^ -22` to `10 ^ 22` is read as the nearest double.
-/

namespace TraceSearch.Decimal

namespace Binary

theorem denominator_pos (b : Binary) : 0 < b.denominator := by
  rw [denominator, Nat.shiftLeft_eq, Nat.one_mul]
  exact Nat.two_pow_pos _

theorem numerator_shiftLeft {b : Binary} (h : -leastScale ≤ b.exponent) :
    b.numerator <<< leastScale = b.mantissa * (2 ^ b.step * b.denominator) := by
  have hsteps : b.exponent.toNat + leastScale = b.step + (-b.exponent).toNat := by
    unfold step
    omega
  rw [numerator, denominator, Nat.shiftLeft_eq, Nat.shiftLeft_eq, Nat.shiftLeft_eq, Nat.one_mul,
    Nat.mul_assoc, ← Nat.pow_add, ← Nat.pow_add, hsteps]

/-- A double of one or more. -/
def AtLeastOne (b : Binary) : Prop := b.denominator ≤ b.numerator

instance : DecidablePred AtLeastOne := fun b =>
  inferInstanceAs (Decidable (b.denominator ≤ b.numerator))

/-- A double that is a whole number. -/
def IsWhole (b : Binary) (n : ℕ) : Prop := b.numerator = n * b.denominator

instance (b : Binary) (n : ℕ) : Decidable (b.IsWhole n) :=
  inferInstanceAs (Decidable (b.numerator = n * b.denominator))

end Binary

open Binary (ofMagnitude)

theorem step_le_of_lt {bits : ℕ} (hpos : 0 < bits) (h : bits < infinityMagnitude) :
    (ofMagnitude bits).step ≤ 2045 := by
  obtain ⟨hb, hbits⟩ := canonical_ofMagnitude hpos h
  have hfull := hb.full
  rw [infinityMagnitude, exponentUnit] at *
  omega

/-- A finite double divided by one or more is finite. -/
theorem quotient_lt {x y : ℕ} (hx : x < infinityMagnitude) (hy : (ofMagnitude y).AtLeastOne) :
    quotient x y < infinityMagnitude := by
  have hdenominator :=
    Nat.mul_pos (ofMagnitude x).denominator_pos
      (Nat.lt_of_lt_of_le (ofMagnitude y).denominator_pos hy)
  have hshift (n k : ℕ) : (n * k) <<< leastScale = n <<< leastScale * k := by
    rw [Nat.shiftLeft_eq, Nat.shiftLeft_eq, Nat.mul_right_comm]
  unfold quotient
  rcases Nat.eq_zero_or_pos x with rfl | hpos
  · have hzero : (ofMagnitude 0).numerator = 0 := rfl
    refine nearestMagnitude_lt hdenominator (Nat.zero_le 2045) ?_
    rw [hzero, Nat.zero_mul, Nat.zero_shiftLeft]
    exact Nat.zero_le _
  · have hb := (canonical_ofMagnitude hpos hx).1
    -- the bound is that of the dividend, on the finest scale a double has
    have hmantissa : (ofMagnitude x).mantissa ≤ 2 ^ 53 - 1 := Nat.le_sub_one_of_lt hb.lt
    refine nearestMagnitude_lt hdenominator (step_le_of_lt hpos hx) ?_
    rw [hshift, Binary.numerator_shiftLeft hb.exponent, Nat.mul_assoc, Nat.mul_assoc]
    exact Nat.mul_le_mul hmantissa (Nat.mul_le_mul_left _ (Nat.mul_le_mul_left _ hy))

/-- The magnitude of one. -/
def oneMagnitude : ℕ := 1023 * exponentUnit

theorem atLeastOne_of_le {bits : ℕ} (h : oneMagnitude ≤ bits) : (ofMagnitude bits).AtLeastOne := by
  have hbiased : 1023 ≤ bits / exponentUnit := (Nat.le_div_iff_mul_le (by decide)).2 h
  have hnormal : bits / exponentUnit ≠ 0 := by omega
  have hplaces : (-((bits / exponentUnit : ℕ) - 1075 : ℤ)).toNat ≤ 52 := by omega
  simp only [Binary.AtLeastOne, Binary.numerator, Binary.denominator, ofMagnitude, hnormal,
    if_false]
  rw [Nat.shiftLeft_eq, Nat.shiftLeft_eq, Nat.one_mul]
  calc 2 ^ (-((bits / exponentUnit : ℕ) - 1075 : ℤ)).toNat
      ≤ 2 ^ 52 := Nat.pow_le_pow_right (by decide) hplaces
    _ ≤ exponentUnit + bits % exponentUnit := Nat.le_add_right _ _
    _ ≤ _ := Nat.le_mul_of_pos_right _ (Nat.two_pow_pos _)

theorem oneMagnitude_le_wholeDouble {n : ℕ} (h : 0 < n) : oneMagnitude ≤ wholeDouble n := by
  have hscaled : 2 ^ leastScale ≤ n <<< leastScale := by
    rw [Nat.shiftLeft_eq]
    exact Nat.le_mul_of_pos_left _ h
  have hne : n <<< leastScale ≠ 0 := Nat.ne_of_gt (Nat.lt_of_lt_of_le (Nat.two_pow_pos _) hscaled)
  have hlog : leastScale ≤ (n <<< leastScale).log2 := (Nat.le_log2 hne).2 hscaled
  have hstep : stepOf (n <<< leastScale) + 52 = (n <<< leastScale).log2 := by
    rw [leastScale] at *
    unfold stepOf
    omega
  have hmantissa : exponentUnit ≤ n <<< leastScale / 1 <<< stepOf (n <<< leastScale) := by
    rw [Nat.shiftLeft_eq 1, Nat.one_mul, Nat.le_div_iff_mul_le (Nat.two_pow_pos _)]
    calc exponentUnit * 2 ^ stepOf (n <<< leastScale)
        = 2 ^ (n <<< leastScale).log2 := by rw [← hstep, Nat.pow_add, Nat.mul_comm]; rfl
      _ ≤ n <<< leastScale := Nat.log2_self_le hne
  -- the last bit may be rounded up, which makes the magnitude greater still
  have hround := le_roundHalfEven (n <<< leastScale) (1 <<< stepOf (n <<< leastScale))
  unfold wholeDouble nearestMagnitude
  dsimp only
  rw [Nat.div_one, infinityMagnitude, oneMagnitude]
  rw [leastScale] at *
  rw [exponentUnit] at *
  omega

theorem atLeastOne_tenDouble (n : ℕ) : (ofMagnitude (tenDouble n)).AtLeastOne :=
  atLeastOne_of_le (oneMagnitude_le_wholeDouble (powerOfTen_pos n))

theorem divideByGreatest_lt {x : ℕ} (hx : x < infinityMagnitude) (times : ℕ) :
    divideByGreatest times x < infinityMagnitude := by
  induction times generalizing x with
  | zero => exact hx
  | succ times ih =>
    rw [divideByGreatest]
    split
    · decide
    · exact ih (quotient_lt hx (atLeastOne_tenDouble greatestTen))

namespace Scaled

/-- What is read is a number. -/
theorem magnitude?_lt {x : Scaled} (hx : x.significand < 2 ^ 64) {bits : ℕ}
    (h : x.magnitude? = some bits) : bits < infinityMagnitude := by
  have hwhole : wholeDouble x.significand < infinityMagnitude := nearestMagnitude_one_lt hx
  unfold magnitude? at h
  dsimp only at h
  split at h
  · split at h
    · split at h
      · cases h
      · rename_i hfinite
        cases h
        exact Nat.lt_of_le_of_ne (nearestMagnitude_le _ _) hfinite
    · split at h
      · cases h
        decide
      · cases h
  · cases h
    exact quotient_lt (divideByGreatest_lt hwhole _) (atLeastOne_tenDouble _)

end Scaled

theorem isWhole_wholeDouble {n : ℕ} (h : n < 2 ^ 53) : (ofMagnitude (wholeDouble n)).IsWhole n := by
  rcases Nat.eq_zero_or_pos n with rfl | hpos
  · decide +kernel
  · obtain ⟨hmagnitude, hfinite⟩ := wholeMagnitude_lt hpos h
    have hwhole : wholeDouble n = wholeMagnitude n := by
      have hnearest := nearestMagnitude_of_reads hmagnitude hfinite (reads_wholeMagnitude hpos h)
      rwa [Scaled.numerator, Int.toNat_zero, powerOfTen_zero, Nat.mul_one] at hnearest
    have hzero := Int.toNat_of_nonpos (exponent_whole hpos h)
    rw [hwhole, Binary.IsWhole, Binary.numerator, Binary.denominator, hzero, Nat.shiftLeft_zero,
      Nat.shiftLeft_eq, Nat.one_mul]
    exact mantissa_whole hpos h

/-- Ten has a factor that takes no bits of a mantissa. -/
theorem isWhole_tenDouble {n : ℕ} (h : n ≤ 22) :
    (ofMagnitude (tenDouble n)).IsWhole (powerOfTen n) := by
  have hall : ∀ n < 23, (ofMagnitude (tenDouble n)).IsWhole (powerOfTen n) := by decide +kernel
  exact hall n (Nat.lt_succ_of_le h)

theorem nearestMagnitude_whole_lt {s n : ℕ} (hs : s < 2 ^ 53) (hn : n ≤ 22) :
    nearestMagnitude (s * powerOfTen n) 1 < infinityMagnitude := by
  have hstep : 75 + leastScale ≤ 2045 := by decide
  have hten : powerOfTen n ≤ 2 ^ 75 :=
    Nat.le_trans (Nat.pow_le_pow_right (by decide) hn) (by decide)
  refine nearestMagnitude_lt Nat.one_pos hstep ?_
  rw [Nat.shiftLeft_eq, Nat.mul_one, Nat.pow_add, ← Nat.mul_assoc]
  exact Nat.mul_le_mul_right _ (Nat.mul_le_mul (Nat.le_sub_one_of_lt hs) hten)

section Whole

variable {x y m n : ℕ} (hx : (ofMagnitude x).IsWhole m) (hy : (ofMagnitude y).IsWhole n)

include hx hy

theorem product_of_whole : product x y = nearestMagnitude (m * n) 1 := by
  have hscale := Nat.mul_pos (ofMagnitude x).denominator_pos (ofMagnitude y).denominator_pos
  unfold product
  dsimp only
  rw [hx, hy, Nat.mul_mul_mul_comm, ← nearestMagnitude_mul (m * n) 1 hscale, Nat.one_mul]

theorem quotient_of_whole : quotient x y = nearestMagnitude m n := by
  have hscale := Nat.mul_pos (ofMagnitude x).denominator_pos (ofMagnitude y).denominator_pos
  unfold quotient
  dsimp only
  rw [hx, hy, ← nearestMagnitude_mul m n hscale, Nat.mul_assoc, Nat.mul_left_comm n]

end Whole

namespace Scaled

/-- Where the significand and the power of ten are doubles the decimal is rounded once. -/
theorem magnitude?_of_short {x : Scaled} (hx : x.significand < 2 ^ 53)
    (hexponent : x.exponent.natAbs ≤ 22) :
    x.magnitude? = some (nearestMagnitude x.numerator x.denominator) := by
  obtain ⟨s, e⟩ := x
  have hs := isWhole_wholeDouble hx
  unfold magnitude?
  dsimp only
  cases e with
  | ofNat n =>
    have hn : n ≤ 22 := hexponent
    have hlimit : n ≤ greatestTen := Nat.le_trans hn (by decide)
    have hfinite := nearestMagnitude_whole_lt hx hn
    have hnumerator : (⟨s, .ofNat n⟩ : Scaled).numerator = s * powerOfTen n := rfl
    have hdenominator : (⟨s, .ofNat n⟩ : Scaled).denominator = 1 := by
      have hzero : (-Int.ofNat n).toNat = 0 :=
        Int.toNat_of_nonpos (Int.neg_nonpos_of_nonneg (Int.natCast_nonneg n))
      exact congrArg powerOfTen hzero
    dsimp only
    rw [if_pos hlimit, product_of_whole hs (isWhole_tenDouble hn), if_neg (Nat.ne_of_lt hfinite),
      hnumerator, hdenominator]
  | negSucc n =>
    have hn : n + 1 ≤ 22 := hexponent
    have htimes : n / greatestTen = 0 := Nat.div_eq_of_lt (by rw [greatestTen]; omega)
    have hnumerator : (⟨s, .negSucc n⟩ : Scaled).numerator = s := Nat.mul_one s
    have hdenominator : (⟨s, .negSucc n⟩ : Scaled).denominator = powerOfTen (n + 1) := rfl
    dsimp only
    rw [htimes, Nat.zero_mul, Nat.sub_zero, divideByGreatest,
      quotient_of_whole hs (isWhole_tenDouble hn), hnumerator, hdenominator]

end Scaled

end TraceSearch.Decimal
