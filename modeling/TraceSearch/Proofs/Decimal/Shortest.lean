import TraceSearch.Decimal.Real
import TraceSearch.Proofs.Decimal.Nearest

/-!
# The shortest decimal reads back

Seventeen digits are enough to single out a double: the grid of seventeen digits is finer than the
interval of any double, so one of the two neighbours of its value lies inside. Main facts:
`reads_shortest`, the decimal that is chosen stands for the double, and `nearestFloat_of_reads`,
every decimal that stands for a double is read as it.
-/

namespace TraceSearch.Decimal

namespace Scaled

def numerator (x : Scaled) : Nat := x.significand * powerOfTen x.exponent.toNat

def denominator (x : Scaled) : Nat := powerOfTen (-x.exponent).toNat

theorem denominator_pos (x : Scaled) : 0 < x.denominator := powerOfTen_pos _

/-- Moving a zero from the significand to the exponent changes nothing. -/
theorem cross_moveZero (s : Nat) (e : Int) :
    (⟨s * 10, e⟩ : Scaled).numerator * (⟨s, e + 1⟩ : Scaled).denominator =
      (⟨s, e + 1⟩ : Scaled).numerator * (⟨s * 10, e⟩ : Scaled).denominator := by
  have hten : 10 = powerOfTen 1 := rfl
  have hexponents : 1 + e.toNat + (-(e + 1)).toNat = (e + 1).toNat + (-e).toNat := by omega
  simp only [numerator, denominator]
  rw [Nat.mul_assoc s 10, hten, ← powerOfTen_add, Nat.mul_assoc, ← powerOfTen_add, Nat.mul_assoc,
    ← powerOfTen_add, hexponents]

end Scaled

namespace Binary

/-- The decimal stands for the double. -/
def Reads (b : Binary) (x : Scaled) : Prop := b.Covers (x.numerator <<< leastScale) x.denominator

theorem Reads.congr {b : Binary} {x y : Scaled} (h : b.Reads x)
    (heq : x.numerator * y.denominator = y.numerator * x.denominator) : b.Reads y := by
  refine Covers.congr h x.denominator_pos y.denominator_pos ?_
  rw [Nat.shiftLeft_eq, Nat.shiftLeft_eq, Nat.mul_right_comm, heq, Nat.mul_right_comm]

theorem Reads.dropZeros {b : Binary} {x : Scaled} (n : Nat) (h : b.Reads x) :
    b.Reads (x.dropZeros n) := by
  induction n generalizing x with
  | zero => exact h
  | succ n ih =>
    unfold Scaled.dropZeros
    split
    · rename_i hzero
      have hten : x.significand / 10 * 10 = x.significand := Nat.div_mul_cancel (by omega)
      have hmove := Scaled.cross_moveZero (x.significand / 10) x.exponent
      rw [hten] at hmove
      exact ih (h.congr hmove)
    · exact h

theorem Reads.significand_pos {b : Binary} {x : Scaled} (hb : b.Canonical) (h : b.Reads x) :
    0 < x.significand := by
  have hlower := (Covers.le h).1
  have hpos := hb.pos
  have hquarters : 0 < b.lowerQuarters := by
    unfold lowerQuarters
    split <;> omega
  have hunit : 0 < 2 ^ b.step * x.denominator :=
    Nat.mul_pos (Nat.two_pow_pos _) x.denominator_pos
  have hleft : 0 < b.lowerQuarters * (2 ^ b.step * x.denominator) := Nat.mul_pos hquarters hunit
  apply Nat.pos_of_ne_zero
  intro hzero
  rw [Scaled.numerator, hzero, Nat.zero_mul, Nat.zero_shiftLeft] at hlower
  omega

variable {b : Binary}

theorem two_pow_mul_two_pow {i j k l : Nat} (h : i + j = k + 2 + l) :
    2 ^ i * 2 ^ j = 2 ^ k * (4 * 2 ^ l) := by
  have hfour : 2 ^ 2 = 4 := rfl
  rw [← Nat.pow_add, h, Nat.pow_add, Nat.pow_add, hfour, Nat.mul_assoc]

/-- The two scales on which a decimal is compared with a double. -/
theorem scales (hb : b.Canonical) (k : Int) (d q : Nat) :
    b.quartersOn k q * (4 * 2 ^ leastScale) =
        q * (2 ^ b.step * (⟨d, k⟩ : Scaled).denominator) * 2 ^ (2 - b.exponent).toNat ∧
      d * b.gridStep k * (4 * 2 ^ leastScale) =
        4 * ((⟨d, k⟩ : Scaled).numerator <<< leastScale) * 2 ^ (2 - b.exponent).toNat := by
  have hexponent := hb.exponent
  have hsteps : b.step + (2 - b.exponent).toNat = (b.exponent - 2).toNat + 2 + leastScale := by
    rw [step]
    omega
  have hpowers := two_pow_mul_two_pow hsteps
  constructor
  · rw [quartersOn, Nat.shiftLeft_eq, Scaled.denominator, Nat.mul_right_comm, Nat.mul_assoc q,
      ← hpowers, Nat.mul_assoc, Nat.mul_assoc, Nat.mul_assoc, Nat.mul_right_comm, Nat.mul_assoc]
  · rw [gridStep, Nat.shiftLeft_eq, Nat.shiftLeft_eq, Scaled.numerator]
    simp only [Nat.mul_assoc, Nat.mul_comm, Nat.mul_left_comm]

theorem reads_of_roundsFrom (hb : b.Canonical) {k : Int} {d : Nat}
    (h : b.roundsFrom k d = true) : b.Reads ⟨d, k⟩ := by
  have hscale : 0 < 2 ^ (2 - b.exponent).toNat := Nat.two_pow_pos _
  have hshared : 0 < 4 * 2 ^ leastScale := by decide +kernel
  have hlower := scales hb k d b.lowerQuarters
  have hupper := scales hb k d b.upperQuarters
  unfold roundsFrom at h
  unfold Reads Covers
  dsimp only at h ⊢
  split
  · rename_i heven
    rw [if_pos heven, Bool.and_eq_true, decide_eq_true_iff, decide_eq_true_iff] at h
    constructor
    · apply Nat.le_of_mul_le_mul_right _ hscale
      rw [← hlower.1, ← hlower.2]
      exact Nat.mul_le_mul_right _ h.1
    · apply Nat.le_of_mul_le_mul_right _ hscale
      rw [← hupper.1, ← hupper.2]
      exact Nat.mul_le_mul_right _ h.2
  · rename_i hodd
    rw [if_neg hodd, Bool.and_eq_true, decide_eq_true_iff, decide_eq_true_iff] at h
    constructor
    · apply Nat.lt_of_mul_lt_mul_right (a := 2 ^ (2 - b.exponent).toNat)
      rw [← hlower.1, ← hlower.2]
      exact Nat.mul_lt_mul_of_pos_right h.1 hshared
    · apply Nat.lt_of_mul_lt_mul_right (a := 2 ^ (2 - b.exponent).toNat)
      rw [← hupper.1, ← hupper.2]
      exact Nat.mul_lt_mul_of_pos_right h.2 hshared

theorem reads_of_onGrid (hb : b.Canonical) {k : Int} {x : Scaled} (h : b.onGrid k = some x) :
    b.Reads x := by
  unfold onGrid at h
  dsimp only at h
  split at h
  · rename_i hbelow habove
    split at h
    · cases h
      exact reads_of_roundsFrom hb hbelow
    · cases h
      exact reads_of_roundsFrom hb habove
  · rename_i hbelow habove
    cases h
    exact reads_of_roundsFrom hb hbelow
  · rename_i hbelow habove
    cases h
    exact reads_of_roundsFrom hb habove
  · contradiction

/-- The power of ten of the leading digit does not exceed the double. -/
theorem leading_le (b : Binary) (hpos : 0 < b.mantissa) :
    powerOfTen b.leadingExponent.toNat * 2 ^ (-b.exponent).toNat ≤
      b.mantissa * 2 ^ b.exponent.toNat * powerOfTen (-b.leadingExponent).toNat := by
  unfold leadingExponent
  dsimp only
  rw [Nat.shiftLeft_eq, Nat.shiftLeft_eq, Nat.one_mul]
  have habove : 0 < b.mantissa * 2 ^ b.exponent.toNat := Nat.mul_pos hpos (Nat.two_pow_pos _)
  have hbelow : 0 < 2 ^ (-b.exponent).toNat := Nat.two_pow_pos _
  generalize b.mantissa * 2 ^ b.exponent.toNat = above at *
  generalize 2 ^ (-b.exponent).toNat = below at *
  split
  · rename_i hle
    have hlength := length_digits_pos (above / below)
    have hdigits := powerOfTen_le_of_pos (Nat.div_pos hle hbelow)
    generalize (digits (above / below)).length = length at *
    have hpositive : ((length : Int) - 1).toNat = length - 1 := by omega
    have hnegative : (-((length : Int) - 1)).toNat = 0 := by omega
    rw [hpositive, hnegative, powerOfTen_zero, Nat.mul_one]
    exact (Nat.le_div_iff_mul_le hbelow).1 hdigits
  · have hdigits := lt_powerOfTen_length_digits ((below - 1) / above)
    generalize (digits ((below - 1) / above)).length = length at *
    have hpositive : (-(length : Int)).toNat = 0 := by omega
    have hnegative : (- -(length : Int)).toNat = length := by omega
    have hlt := (Nat.div_lt_iff_lt_mul habove).1 hdigits
    rw [hpositive, hnegative, powerOfTen_zero, Nat.one_mul, Nat.mul_comm above]
    omega

/-- The grid `i` places below the leading digit has at least `10 ^ i` steps up to the double. -/
theorem gridStep_le (b : Binary) (hpos : 0 < b.mantissa) (i : Nat) :
    b.gridStep (b.leadingExponent - i) * powerOfTen i ≤
      b.quartersOn (b.leadingExponent - i) (4 * b.mantissa) := by
  have hleading := b.leading_le hpos
  generalize b.leadingExponent = top at *
  have htens : (top - i).toNat + i + (-top).toNat = top.toNat + (-(top - i)).toNat := by omega
  have htwos : (2 - b.exponent).toNat + b.exponent.toNat =
      (-b.exponent).toNat + 2 + (b.exponent - 2).toNat := by omega
  have hten := congrArg powerOfTen htens
  have htwo := congrArg (2 ^ ·) htwos
  simp only [powerOfTen_add, Nat.pow_add] at hten htwo
  rw [gridStep, quartersOn, Nat.shiftLeft_eq, Nat.shiftLeft_eq]
  have hscale : 0 < powerOfTen (-top).toNat * 2 ^ b.exponent.toNat :=
    Nat.mul_pos (powerOfTen_pos _) (Nat.two_pow_pos _)
  apply Nat.le_of_mul_le_mul_right _ hscale
  calc powerOfTen (top - i).toNat * 2 ^ (2 - b.exponent).toNat * powerOfTen i *
        (powerOfTen (-top).toNat * 2 ^ b.exponent.toNat)
      = powerOfTen (top - i).toNat * powerOfTen i * powerOfTen (-top).toNat *
          (2 ^ (2 - b.exponent).toNat * 2 ^ b.exponent.toNat) := by
        simp only [Nat.mul_assoc, Nat.mul_comm, Nat.mul_left_comm]
    _ = powerOfTen top.toNat * 2 ^ (-b.exponent).toNat *
          (4 * 2 ^ (b.exponent - 2).toNat * powerOfTen (-(top - i)).toNat) := by
        rw [hten, htwo]
        simp only [Nat.mul_assoc, Nat.mul_comm, Nat.mul_left_comm, Nat.reducePow]
    _ ≤ b.mantissa * 2 ^ b.exponent.toNat * powerOfTen (-top).toNat *
          (4 * 2 ^ (b.exponent - 2).toNat * powerOfTen (-(top - i)).toNat) :=
        Nat.mul_le_mul_right _ hleading
    _ = _ := by simp only [Nat.mul_assoc, Nat.mul_comm, Nat.mul_left_comm]

theorem quartersOn_mul (b : Binary) (k : Int) (q : Nat) :
    b.quartersOn k q = q * b.quartersOn k 1 := by
  rw [quartersOn, quartersOn, Nat.shiftLeft_eq, Nat.shiftLeft_eq, Nat.one_mul, Nat.mul_assoc]

/-- A grid finer than the interval has a point in it next to the double. -/
theorem roundsFrom_of_fine (hb : b.Canonical) {k : Int} {below rest : Nat}
    (hsplit : below * b.gridStep k + rest = b.quartersOn k (4 * b.mantissa))
    (hrest : rest < b.gridStep k)
    (hfine : b.gridStep k * powerOfTen 16 ≤ b.quartersOn k (4 * b.mantissa)) :
    b.roundsFrom k below = true ∨ b.roundsFrom k (below + 1) = true := by
  have hpos := hb.pos
  have hlt := hb.lt
  have hquarter : 0 < b.quartersOn k 1 := by
    rw [quartersOn, Nat.shiftLeft_eq, Nat.one_mul]
    exact Nat.mul_pos (Nat.two_pow_pos _) (powerOfTen_pos _)
  have hnext : (below + 1) * b.gridStep k = below * b.gridStep k + b.gridStep k :=
    Nat.succ_mul _ _
  have hten : powerOfTen 16 = 10000000000000000 := rfl
  unfold roundsFrom
  dsimp only
  rw [quartersOn_mul b k b.lowerQuarters, quartersOn_mul b k b.upperQuarters, hnext,
    lowerQuarters, upperQuarters]
  rw [quartersOn_mul b k (4 * b.mantissa)] at hsplit hfine
  rw [hten] at hfine
  generalize below * b.gridStep k = point at *
  generalize b.gridStep k = g at *
  generalize b.quartersOn k 1 = q at *
  have hmantissa : b.mantissa * q < 2 ^ 53 * q := Nat.mul_lt_mul_of_pos_right hlt hquarter
  have hupper : (4 * b.mantissa + 2) * q = 4 * (b.mantissa * q) + 2 * q := by
    rw [Nat.add_mul, Nat.mul_assoc]
  rw [Nat.mul_assoc] at hfine hsplit
  by_cases hnarrow : b.narrowBelow = true
  · have hm := (hb.narrow.1 hnarrow).1
    have hlower : (4 * b.mantissa - 1) * q = 4 * (b.mantissa * q) - q := by
      rw [Nat.sub_mul, Nat.mul_assoc, Nat.one_mul]
    right
    rw [if_pos hnarrow, hlower, hupper]
    rw [hm] at hfine hsplit ⊢
    rw [if_pos (by decide), Bool.and_eq_true, decide_eq_true_iff, decide_eq_true_iff]
    omega
  · have hlower : (4 * b.mantissa - 2) * q = 4 * (b.mantissa * q) - 2 * q := by
      rw [Nat.sub_mul, Nat.mul_assoc]
    have hmin : q ≤ b.mantissa * q := Nat.le_mul_of_pos_left q hpos
    rw [if_neg hnarrow, hlower, hupper]
    generalize b.mantissa * q = mq at *
    by_cases hnear : rest < 2 * q
    · left
      split <;> rw [Bool.and_eq_true, decide_eq_true_iff, decide_eq_true_iff] <;> omega
    · right
      split <;> rw [Bool.and_eq_true, decide_eq_true_iff, decide_eq_true_iff] <;> omega

theorem onGrid_seventeen (hb : b.Canonical) :
    (b.onGrid (b.leadingExponent - 16)).isSome = true := by
  have hgrid : 0 < b.gridStep (b.leadingExponent - 16) := by
    rw [gridStep, Nat.shiftLeft_eq]
    exact Nat.mul_pos (powerOfTen_pos _) (Nat.two_pow_pos _)
  have hrounds := roundsFrom_of_fine hb (Nat.div_add_mod' _ _) (Nat.mod_lt _ hgrid)
    (b.gridStep_le hb.pos 16)
  unfold onGrid
  dsimp only
  split
  · split <;> rfl
  · rfl
  · rfl
  · rename_i hbelow habove
    rw [hbelow, habove] at hrounds
    exact absurd hrounds (by decide)

/-- The shortest decimal of a double stands for it. -/
theorem reads_shortest (hb : b.Canonical) : b.Reads (shortest b) := by
  unfold shortest
  dsimp only
  cases hfound : (List.range 17).findSome? fun i : Nat => b.onGrid (b.leadingExponent - i) with
  | none =>
    have hnone := List.findSome?_eq_none_iff.1 hfound 16 (by decide)
    have hsome := onGrid_seventeen hb
    exact absurd hsome (by rw [show b.onGrid (b.leadingExponent - 16) = none from hnone]; decide)
  | some x =>
    obtain ⟨i, -, hi⟩ := List.exists_of_findSome?_eq_some hfound
    exact (reads_of_onGrid hb hi).dropZeros 17

end Binary

section Leading

variable {b : Binary} {x : Scaled}

theorem le_leading_of_reads (hb : b.Canonical) (h : b.Reads x) :
    -325 ≤ (digits x.significand).length + x.exponent := by
  have hmantissa := hb.pos
  have hlower := (Binary.Covers.le h).1
  have hgreatest := lt_powerOfTen_length_digits x.significand
  rw [Scaled.numerator, Nat.shiftLeft_eq, Scaled.denominator] at hlower
  generalize (digits x.significand).length = length at *
  apply Int.le_of_not_gt
  intro hlt
  have hzero : x.exponent.toNat = 0 := by omega
  have hquarters : 2 ≤ b.lowerQuarters := by
    unfold Binary.lowerQuarters
    split <;> omega
  have hunit : powerOfTen (-x.exponent).toNat ≤
      b.lowerQuarters * (2 ^ b.step * powerOfTen (-x.exponent).toNat) := by
    rw [← Nat.mul_assoc]
    exact Nat.le_mul_of_pos_left _ (Nat.mul_pos (by omega) (Nat.two_pow_pos _))
  have hsmall : 4 * (powerOfTen length * 2 ^ leastScale) ≤ powerOfTen (length + 326) := by
    rw [powerOfTen_add, Nat.mul_left_comm]
    exact Nat.mul_le_mul_left _ (by decide +kernel)
  have hpositive : 0 < 2 ^ leastScale := by decide +kernel
  rw [hzero, powerOfTen_zero, Nat.mul_one] at hlower
  refine Nat.lt_irrefl (powerOfTen (length + 326)) ?_
  calc powerOfTen (length + 326)
      ≤ powerOfTen (-x.exponent).toNat := Nat.pow_le_pow_right (by decide) (by omega)
    _ ≤ b.lowerQuarters * (2 ^ b.step * powerOfTen (-x.exponent).toNat) := hunit
    _ ≤ 4 * (x.significand * 2 ^ leastScale) := hlower
    _ < 4 * (powerOfTen length * 2 ^ leastScale) :=
        Nat.mul_lt_mul_of_pos_left (Nat.mul_lt_mul_of_pos_right hgreatest hpositive) (by decide)
    _ ≤ powerOfTen (length + 326) := hsmall

theorem leading_le_of_reads (hb : b.Canonical) (hstep : b.step ≤ 2046) (h : b.Reads x) :
    (digits x.significand).length + x.exponent ≤ 310 := by
  have hupper := Binary.Covers.lt_top h hb x.denominator_pos
  have hleast := powerOfTen_le_of_pos (h.significand_pos hb)
  have hlength := length_digits_pos x.significand
  rw [Scaled.numerator, Nat.shiftLeft_eq, Scaled.denominator] at hupper
  generalize (digits x.significand).length = length at *
  apply Int.le_of_not_gt
  intro hgt
  have hpower : powerOfTen (310 + (-x.exponent).toNat) ≤
      powerOfTen (length - 1 + x.exponent.toNat) :=
    Nat.pow_le_pow_right (by decide) (by omega)
  have htop : 2 ^ (53 + b.step) ≤ powerOfTen 310 * 2 ^ leastScale :=
    calc 2 ^ (53 + b.step) ≤ 2 ^ (53 + 2046) := Nat.pow_le_pow_right (by decide) (by omega)
      _ ≤ powerOfTen 310 * 2 ^ leastScale := by decide +kernel
  refine Nat.lt_irrefl (x.significand * powerOfTen x.exponent.toNat * 2 ^ leastScale) ?_
  calc x.significand * powerOfTen x.exponent.toNat * 2 ^ leastScale
      < 2 ^ 53 * (2 ^ b.step * powerOfTen (-x.exponent).toNat) := hupper
    _ = 2 ^ (53 + b.step) * powerOfTen (-x.exponent).toNat := by rw [← Nat.mul_assoc, Nat.pow_add]
    _ ≤ powerOfTen 310 * 2 ^ leastScale * powerOfTen (-x.exponent).toNat :=
        Nat.mul_le_mul_right _ htop
    _ = powerOfTen (310 + (-x.exponent).toNat) * 2 ^ leastScale := by
        rw [powerOfTen_add, Nat.mul_right_comm]
    _ ≤ powerOfTen (length - 1 + x.exponent.toNat) * 2 ^ leastScale := Nat.mul_le_mul_right _ hpower
    _ ≤ x.significand * powerOfTen x.exponent.toNat * 2 ^ leastScale := by
        rw [powerOfTen_add]
        exact Nat.mul_le_mul_right _ (Nat.mul_le_mul_right _ hleast)

end Leading

theorem nearestMagnitude_of_reads {bits : Nat} {x : Scaled} (hpos : 0 < bits)
    (hfinite : bits < infinityMagnitude) (h : (Binary.ofMagnitude bits).Reads x) :
    nearestMagnitude x.numerator x.denominator = bits := by
  obtain ⟨hb, hbits⟩ := canonical_ofMagnitude hpos hfinite
  rw [nearestMagnitude_of_covers hb x.denominator_pos h, hbits,
    Nat.min_eq_right (Nat.le_of_lt hfinite)]

/-- A decimal that stands for a double is read as it. -/
theorem nearestFloat_of_reads {bits : Nat} {x : Scaled} (hpos : 0 < bits)
    (hfinite : bits < infinityMagnitude) (h : (Binary.ofMagnitude bits).Reads x) :
    nearestFloat x.significand x.exponent = floatOfMagnitude bits := by
  obtain ⟨hb, hbits⟩ := canonical_ofMagnitude hpos hfinite
  have hstep : (Binary.ofMagnitude bits).step ≤ 2046 := by
    rw [infinityMagnitude, exponentUnit] at *
    omega
  have hleast := le_leading_of_reads hb h
  have hgreatest := leading_le_of_reads hb hstep h
  have hsignificand := h.significand_pos hb
  unfold nearestFloat
  dsimp only
  rw [if_neg (by omega), if_neg (by omega)]
  exact congrArg floatOfMagnitude (nearestMagnitude_of_reads hpos hfinite h)

end TraceSearch.Decimal
