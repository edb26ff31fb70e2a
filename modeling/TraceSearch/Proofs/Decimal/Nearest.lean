import TraceSearch.Decimal.Shortest
import TraceSearch.Proofs.Decimal.Bits

/-!
# The nearest double of a fraction

A double stands for an interval of fractions, whose ends belong to it if the mantissa is even. Main
fact: `nearestMagnitude_of_covers`, a fraction in the interval of a double is rounded to that
double. Fractions are counted in units of the least double.
-/

namespace TraceSearch.Decimal

theorem roundHalfEven_eq {n d m : Nat} (hd : 0 < d) (hlower : 2 * (m * d) ≤ 2 * n + d)
    (hupper : 2 * n ≤ 2 * (m * d) + d)
    (hodd : m % 2 = 1 → 2 * (m * d) < 2 * n + d ∧ 2 * n < 2 * (m * d) + d) :
    roundHalfEven n d = m := by
  have hsplit := Nat.div_add_mod n d
  have hrest := Nat.mod_lt n hd
  have hbelow : n / d ≤ m := by
    apply Nat.le_of_not_lt
    intro hlt
    have hmul : d * (m + 1) ≤ d * (n / d) := Nat.mul_le_mul_left d (by omega)
    have hexpand : d * (m + 1) = m * d + d := by rw [Nat.mul_succ, Nat.mul_comm]
    omega
  have habove : m ≤ n / d + 1 := by
    apply Nat.le_of_not_lt
    intro hlt
    have hmul : d * (n / d + 2) ≤ d * m := Nat.mul_le_mul_left d (by omega)
    have hexpand : d * (n / d + 2) = d * (n / d) + 2 * d := by
      rw [Nat.mul_add, Nat.mul_comm d 2]
    have hcomm : d * m = m * d := Nat.mul_comm d m
    omega
  unfold roundHalfEven
  rcases Nat.lt_or_eq_of_le hbelow with hlt | heq
  · have hm : m = n / d + 1 := by omega
    have hexpand : m * d = d * (n / d) + d := by rw [hm, Nat.succ_mul, Nat.mul_comm]
    rw [if_neg (by omega), hm]
  · have hexpand : m * d = d * (n / d) := by rw [heq, Nat.mul_comm]
    rw [if_pos (by omega), heq]

namespace Binary

/-- The exponent of the last mantissa bit, counted from that of the least double. -/
def step (b : Binary) : Nat := (b.exponent + leastScale).toNat

/-- A mantissa with the step that goes with it: 53 bits unless the step is the least. -/
structure Canonical (b : Binary) : Prop where
  pos : 0 < b.mantissa
  lt : b.mantissa < 2 ^ 53
  exponent : -leastScale ≤ b.exponent
  full : b.step = 0 ∨ 2 ^ 52 ≤ b.mantissa
  narrow : b.narrowBelow = true ↔ b.mantissa = 2 ^ 52 ∧ 0 < b.step

/-- The fraction `n / d`, in units of the least double, rounds to the double. -/
def Covers (b : Binary) (n d : Nat) : Prop :=
  let unit := 2 ^ b.step * d
  if b.mantissa % 2 = 0 then
    b.lowerQuarters * unit ≤ 4 * n ∧ 4 * n ≤ b.upperQuarters * unit
  else b.lowerQuarters * unit < 4 * n ∧ 4 * n < b.upperQuarters * unit

theorem Covers.le {b : Binary} {n d : Nat} (h : b.Covers n d) :
    b.lowerQuarters * (2 ^ b.step * d) ≤ 4 * n ∧ 4 * n ≤ b.upperQuarters * (2 ^ b.step * d) := by
  unfold Covers at h
  split at h
  · exact h
  · exact ⟨Nat.le_of_lt h.1, Nat.le_of_lt h.2⟩

theorem Covers.lt {b : Binary} {n d : Nat} (h : b.Covers n d) (hodd : b.mantissa % 2 = 1) :
    b.lowerQuarters * (2 ^ b.step * d) < 4 * n ∧ 4 * n < b.upperQuarters * (2 ^ b.step * d) := by
  unfold Covers at h
  rw [if_neg (by omega)] at h
  exact h

/-- Equal fractions round alike. -/
theorem Covers.congr {b : Binary} {n d n' d' : Nat} (h : b.Covers n d) (hd : 0 < d) (hd' : 0 < d')
    (heq : n * d' = n' * d) : b.Covers n' d' := by
  have hscale (q : Nat) : q * (2 ^ b.step * d') * d = q * (2 ^ b.step * d) * d' := by
    rw [Nat.mul_assoc, Nat.mul_assoc, Nat.mul_assoc, Nat.mul_assoc, Nat.mul_comm d' d]
  have hpoint : 4 * n' * d = 4 * n * d' := by rw [Nat.mul_assoc, Nat.mul_assoc, heq]
  unfold Covers at h ⊢
  dsimp only at h ⊢
  split
  · rename_i heven
    rw [if_pos heven] at h
    constructor
    · apply Nat.le_of_mul_le_mul_right _ hd
      rw [hscale, hpoint]
      exact Nat.mul_le_mul_right d' h.1
    · apply Nat.le_of_mul_le_mul_right _ hd
      rw [hscale, hpoint]
      exact Nat.mul_le_mul_right d' h.2
  · rename_i hodd
    rw [if_neg hodd] at h
    constructor
    · apply Nat.lt_of_mul_lt_mul_right (a := d)
      rw [hscale, hpoint]
      exact Nat.mul_lt_mul_of_pos_right h.1 hd'
    · apply Nat.lt_of_mul_lt_mul_right (a := d)
      rw [hscale, hpoint]
      exact Nat.mul_lt_mul_of_pos_right h.2 hd'

variable {b : Binary} {n d : Nat}

theorem stepOf_eq {whole step : Nat} (hlt : whole < 2 ^ (53 + step))
    (hle : step = 0 ∨ 2 ^ (52 + step) ≤ whole) : stepOf whole = step := by
  unfold stepOf
  rcases Nat.eq_zero_or_pos whole with hzero | hpos
  · have hpow : 0 < 2 ^ (52 + step) := Nat.two_pow_pos _
    rw [hzero, Nat.log2_zero]
    omega
  · have hupper : whole.log2 < 53 + step := (Nat.log2_lt (by omega)).2 hlt
    rcases hle with hzero | hle
    · omega
    · have hlower : 52 + step ≤ whole.log2 := (Nat.le_log2 (by omega)).2 hle
      omega

theorem Covers.lt_top (h : b.Covers n d) (hb : b.Canonical) (hd : 0 < d) :
    n < 2 ^ 53 * (2 ^ b.step * d) := by
  have hm := hb.lt
  have hunit : 0 < 2 ^ b.step * d := Nat.mul_pos (Nat.two_pow_pos _) hd
  have hquarters : b.upperQuarters + 2 ≤ 2 ^ 55 := by
    unfold upperQuarters
    omega
  have hmul := Nat.mul_le_mul_right (2 ^ b.step * d) hquarters
  have hupper := h.le.2
  rw [Nat.add_mul] at hmul
  omega

/-- The step of a fraction is the step of its double, but for fractions just below a power of two
that are rounded up to it. -/
theorem Covers.stepOf_div (h : b.Covers n d) (hb : b.Canonical) (hd : 0 < d)
    (hle : b.step = 0 ∨ 2 ^ 52 * (2 ^ b.step * d) ≤ n) : stepOf (n / d) = b.step := by
  have hassoc (k : Nat) : 2 ^ k * (2 ^ b.step * d) = 2 ^ (k + b.step) * d := by
    rw [← Nat.mul_assoc, ← Nat.pow_add]
  have htop := h.lt_top hb hd
  apply stepOf_eq
  · rw [Nat.div_lt_iff_lt_mul hd, ← hassoc]
    exact htop
  · refine hle.imp_right fun hle => ?_
    rw [Nat.le_div_iff_mul_le hd, ← hassoc]
    exact hle

theorem Covers.round (h : b.Covers n d) (hb : b.Canonical) (hd : 0 < d)
    (hle : b.narrowBelow = true → 2 ^ 52 * (2 ^ b.step * d) ≤ n) :
    roundHalfEven n (d <<< b.step) = b.mantissa := by
  have hshift : d <<< b.step = 2 ^ b.step * d := by rw [Nat.shiftLeft_eq, Nat.mul_comm]
  have hunit : 0 < 2 ^ b.step * d := Nat.mul_pos (Nat.two_pow_pos _) hd
  have hpos := hb.pos
  have hquarters := h.le
  have hstrict := h.lt
  rw [hshift]
  unfold lowerQuarters upperQuarters at hquarters hstrict
  generalize 2 ^ b.step * d = unit at *
  have hupper : (4 * b.mantissa + 2) * unit = 4 * (b.mantissa * unit) + 2 * unit := by
    rw [Nat.add_mul, Nat.mul_assoc]
  by_cases hnarrow : b.narrowBelow = true
  · have hm := (hb.narrow.1 hnarrow).1
    have hle := hle hnarrow
    rw [← hm] at hle
    refine roundHalfEven_eq hunit ?_ ?_ ?_
    · omega
    · omega
    · intro hodd
      rw [hm] at hodd
      omega
  · rw [if_neg hnarrow] at hquarters hstrict
    have hlower : (4 * b.mantissa - 2) * unit = 4 * (b.mantissa * unit) - 2 * unit := by
      rw [Nat.sub_mul, Nat.mul_assoc]
    rw [hlower, hupper] at hquarters hstrict
    refine roundHalfEven_eq hunit ?_ ?_ ?_
    · omega
    · omega
    · intro hodd
      have hstrict := hstrict hodd
      omega

theorem Covers.full_le (h : b.Covers n d) (hb : b.Canonical) (hstep : 0 < b.step)
    (hnarrow : b.narrowBelow ≠ true) : 2 ^ 52 * (2 ^ b.step * d) ≤ n := by
  have hm : 2 ^ 52 ≤ b.mantissa := hb.full.resolve_left (by omega)
  have hne : b.mantissa ≠ 2 ^ 52 := fun heq => hnarrow (hb.narrow.2 ⟨heq, hstep⟩)
  have hquarters : 4 * 2 ^ 52 ≤ b.lowerQuarters := by
    unfold lowerQuarters
    rw [if_neg hnarrow]
    omega
  have hmul := Nat.mul_le_mul_right (2 ^ b.step * d) hquarters
  have hlower := h.le.1
  rw [Nat.mul_assoc] at hmul
  omega

/-- Below the least mantissa of a step the fraction is measured on the finer step below, where it
is rounded up to 54 bits. -/
theorem Covers.round_below (h : b.Covers n d) (hb : b.Canonical) (hd : 0 < d)
    (hnarrow : b.narrowBelow = true) (hlt : n < 2 ^ 52 * (2 ^ b.step * d)) :
    stepOf (n / d) = b.step - 1 ∧ roundHalfEven n (d <<< (b.step - 1)) = 2 ^ 53 := by
  obtain ⟨hm, hstep⟩ := hb.narrow.1 hnarrow
  have hlower := h.le.1
  unfold lowerQuarters at hlower
  rw [if_pos hnarrow, hm] at hlower
  obtain ⟨k, hk⟩ : ∃ k, b.step = k + 1 := ⟨b.step - 1, by omega⟩
  have hhalf : 2 ^ b.step * d = 2 * (2 ^ k * d) := by
    rw [hk, Nat.pow_succ, Nat.mul_comm (2 ^ k) 2, Nat.mul_assoc]
  have hassoc (j : Nat) : 2 ^ (j + k) * d = 2 ^ j * (2 ^ k * d) := by
    rw [Nat.pow_add, Nat.mul_assoc]
  have hshift : d <<< k = 2 ^ k * d := by rw [Nat.shiftLeft_eq, Nat.mul_comm]
  have hunit : 0 < 2 ^ k * d := Nat.mul_pos (Nat.two_pow_pos _) hd
  have hpred : b.step - 1 = k := by omega
  rw [hhalf] at hlower hlt
  rw [hpred, hshift]
  constructor
  · apply stepOf_eq
    · rw [Nat.div_lt_iff_lt_mul hd, hassoc]
      omega
    · right
      rw [Nat.le_div_iff_mul_le hd, hassoc]
      omega
  · refine roundHalfEven_eq hunit ?_ ?_ ?_
    · omega
    · omega
    · intro hodd
      omega

end Binary

/-- A fraction that a double stands for is rounded to it. -/
theorem nearestMagnitude_of_covers {b : Binary} {n d : Nat} (hb : b.Canonical) (hd : 0 < d)
    (h : b.Covers (n <<< leastScale) d) :
    nearestMagnitude n d = min infinityMagnitude (b.step * exponentUnit + b.mantissa) := by
  unfold nearestMagnitude
  dsimp only
  by_cases hbelow : b.narrowBelow = true ∧ n <<< leastScale < 2 ^ 52 * (2 ^ b.step * d)
  · obtain ⟨hstep, hround⟩ := h.round_below hb hd hbelow.1 hbelow.2
    obtain ⟨hm, hpos⟩ := hb.narrow.1 hbelow.1
    have hcarry : (b.step - 1) * exponentUnit + 2 ^ 53 = b.step * exponentUnit + 2 ^ 52 := by
      rw [exponentUnit]
      omega
    rw [hstep, hround, hm, hcarry]
  · have hle : b.narrowBelow = true → 2 ^ 52 * (2 ^ b.step * d) ≤ n <<< leastScale :=
      fun hnarrow => Nat.le_of_not_lt fun hlt => hbelow ⟨hnarrow, hlt⟩
    have hfull : b.step = 0 ∨ 2 ^ 52 * (2 ^ b.step * d) ≤ n <<< leastScale := by
      rcases Nat.eq_zero_or_pos b.step with hzero | hpos
      · exact Or.inl hzero
      · by_cases hnarrow : b.narrowBelow = true
        · exact Or.inr (hle hnarrow)
        · exact Or.inr (h.full_le hb hpos hnarrow)
    rw [h.stepOf_div hb hd hfull, h.round hb hd hle]

theorem nearestMagnitude_le (n d : Nat) : nearestMagnitude n d ≤ infinityMagnitude :=
  Nat.min_le_left _ _

theorem lt_two_pow_stepOf (whole : Nat) : whole < 2 ^ 53 * 2 ^ stepOf whole := by
  have hlog : whole < 2 ^ (whole.log2 + 1) := Nat.lt_log2_self
  have hle : whole.log2 + 1 ≤ 53 + stepOf whole := by
    unfold stepOf
    omega
  rw [← Nat.pow_add]
  exact Nat.lt_of_lt_of_le hlog (Nat.pow_le_pow_right (by decide) hle)

theorem stepOf_le {whole step : Nat} (h : whole ≤ (2 ^ 53 - 1) * 2 ^ step) :
    stepOf whole ≤ step := by
  unfold stepOf
  rcases Nat.eq_zero_or_pos whole with hzero | hpos
  · rw [hzero, Nat.log2_zero]
    omega
  · have hlt : whole < 2 ^ (53 + step) := by
      rw [Nat.pow_add]
      have hpower : 0 < 2 ^ step := Nat.two_pow_pos _
      omega
    have hlog := (Nat.log2_lt (by omega)).2 hlt
    omega

theorem le_roundHalfEven (n d : Nat) : n / d ≤ roundHalfEven n d := by
  unfold roundHalfEven
  dsimp only
  split <;> omega

theorem roundHalfEven_le {n d m : Nat} (hd : 0 < d) (h : n ≤ m * d) : roundHalfEven n d ≤ m := by
  have hsplit := Nat.div_add_mod n d
  have hrest := Nat.mod_lt n hd
  unfold roundHalfEven
  dsimp only
  rcases Nat.lt_or_ge (n / d) m with hlt | hge
  · split <;> omega
  · have hmul : d * m ≤ d * (n / d) := Nat.mul_le_mul_left d hge
    have hcomm : d * m = m * d := Nat.mul_comm d m
    have heq : n / d = m := by
      apply Nat.le_antisymm _ hge
      apply Nat.div_le_of_le_mul
      rwa [hcomm]
    rw [if_pos (by omega), heq]

/-- A number up to the greatest double is rounded to a finite one. -/
theorem nearestMagnitude_lt {n d step : Nat} (hd : 0 < d) (hstep : step ≤ 2045)
    (h : n <<< leastScale ≤ (2 ^ 53 - 1) * (2 ^ step * d)) :
    nearestMagnitude n d < infinityMagnitude := by
  have hwhole : n <<< leastScale / d ≤ (2 ^ 53 - 1) * 2 ^ step := by
    apply Nat.div_le_of_le_mul
    rwa [Nat.mul_comm d, Nat.mul_assoc]
  have hle : stepOf (n <<< leastScale / d) ≤ step := stepOf_le hwhole
  have hunit (k : Nat) : 0 < 2 ^ k * d := Nat.mul_pos (Nat.two_pow_pos _) hd
  have hshift (k : Nat) : d <<< k = 2 ^ k * d := by rw [Nat.shiftLeft_eq, Nat.mul_comm]
  have hround :
      roundHalfEven (n <<< leastScale) (d <<< stepOf (n <<< leastScale / d)) ≤ 2 ^ 53 := by
    have hlt := (Nat.div_lt_iff_lt_mul hd).1 (lt_two_pow_stepOf (n <<< leastScale / d))
    rw [hshift]
    refine roundHalfEven_le (hunit _) ?_
    rw [← Nat.mul_assoc]
    exact Nat.le_of_lt hlt
  unfold nearestMagnitude
  dsimp only
  generalize hactual : stepOf (n <<< leastScale / d) = actual at *
  rw [infinityMagnitude, exponentUnit]
  rcases Nat.lt_or_eq_of_le hle with hlt | rfl
  · omega
  · -- on the greatest step the mantissa must not carry over, which takes it past the last double
    have hfull : roundHalfEven (n <<< leastScale) (d <<< actual) ≤ 2 ^ 53 - 1 := by
      rw [hshift]
      exact roundHalfEven_le (hunit _) h
    omega

theorem nearestMagnitude_one_lt {n : Nat} (h : n < 2 ^ 64) :
    nearestMagnitude n 1 < infinityMagnitude := by
  have hstep : 12 + leastScale ≤ 2045 := by decide
  refine nearestMagnitude_lt Nat.one_pos hstep ?_
  rw [Nat.shiftLeft_eq, Nat.mul_one, Nat.pow_add, ← Nat.mul_assoc]
  exact Nat.mul_le_mul_right _ (by omega)

theorem roundHalfEven_mul (n d : Nat) {k : Nat} (hk : 0 < k) :
    roundHalfEven (n * k) (d * k) = roundHalfEven n d := by
  have hlt : 2 * (n % d * k) < d * k ↔ 2 * (n % d) < d := by
    rw [← Nat.mul_assoc, Nat.mul_lt_mul_right hk]
  have heq : 2 * (n % d * k) = d * k ↔ 2 * (n % d) = d := by
    rw [← Nat.mul_assoc, Nat.mul_left_inj (Nat.ne_of_gt hk)]
  simp only [roundHalfEven, Nat.mul_div_mul_right _ _ hk, Nat.mul_mod_mul_right, hlt, heq]

/-- Only the ratio of a fraction matters. -/
theorem nearestMagnitude_mul (n d : Nat) {k : Nat} (hk : 0 < k) :
    nearestMagnitude (n * k) (d * k) = nearestMagnitude n d := by
  have hshift (m i : Nat) : (m * k) <<< i = m <<< i * k := by
    rw [Nat.shiftLeft_eq, Nat.shiftLeft_eq, Nat.mul_right_comm]
  simp only [nearestMagnitude, hshift, Nat.mul_div_mul_right _ _ hk, roundHalfEven_mul _ _ hk]

/-- The double nearest to a 64-bit integer is finite. -/
theorem isFinite_floatOfInt {n : Int} (h : n.natAbs < 2 ^ 64) : isFinite (floatOfInt n) = true := by
  have hlength : (digits n.natAbs).length ≤ 20 :=
    (Nat.length_toDigits_le_iff (by decide) (by decide)).2 (Nat.lt_trans h (by decide))
  have hbits : ∃ bits < infinityMagnitude, nearestFloat n.natAbs 0 = floatOfMagnitude bits := by
    unfold nearestFloat
    dsimp only
    split
    · exact ⟨0, by decide, rfl⟩
    · rw [if_neg (by omega)]
      refine ⟨_, ?_, rfl⟩
      show nearestMagnitude (n.natAbs * 1) 1 < infinityMagnitude
      rw [Nat.mul_one]
      exact nearestMagnitude_one_lt h
  obtain ⟨bits, hlt, hfloat⟩ := hbits
  unfold floatOfInt isFinite
  rw [hfloat, magnitude_signedFloat _ (Nat.le_of_lt hlt)]
  exact decide_eq_true hlt

/-- The mantissa and the exponent of a finite magnitude. -/
theorem canonical_ofMagnitude {bits : Nat} (hpos : 0 < bits) (hfinite : bits < infinityMagnitude) :
    (Binary.ofMagnitude bits).Canonical ∧
      (Binary.ofMagnitude bits).step * exponentUnit + (Binary.ofMagnitude bits).mantissa =
        bits := by
  have hsplit := Nat.div_add_mod bits exponentUnit
  have hfraction := Nat.mod_lt bits (show 0 < exponentUnit by decide)
  have hbiased : bits / exponentUnit < 2047 := Nat.div_lt_of_lt_mul (by rwa [Nat.mul_comm])
  unfold Binary.ofMagnitude
  dsimp only
  split
  · rename_i hzero
    rw [hzero] at hsplit
    refine ⟨⟨?_, ?_, ?_, ?_, ?_⟩, ?_⟩
    · show 0 < bits % exponentUnit
      omega
    · show bits % exponentUnit < 2 ^ 53
      rw [exponentUnit] at *
      omega
    · show (-1074 : Int) ≤ -1074
      omega
    · left
      rfl
    · show false = true ↔ _ ∧ 0 < 0
      simp
    · show 0 * exponentUnit + bits % exponentUnit = bits
      omega
  · rename_i hnonzero
    generalize hbias : bits / exponentUnit = biased at *
    generalize hfrac : bits % exponentUnit = fraction at *
    have hstep : ((biased : Int) - 1075 + 1074).toNat = biased - 1 := by omega
    refine ⟨⟨?_, ?_, ?_, ?_, ?_⟩, ?_⟩
    · show 0 < exponentUnit + fraction
      omega
    · show exponentUnit + fraction < 2 ^ 53
      rw [exponentUnit] at *
      omega
    · show (-1074 : Int) ≤ (biased : Int) - 1075
      omega
    · right
      show 2 ^ 52 ≤ exponentUnit + fraction
      rw [exponentUnit]
      omega
    · show (fraction == 0 && decide (1 < biased)) = true ↔
        exponentUnit + fraction = 2 ^ 52 ∧ 0 < ((biased : Int) - 1075 + 1074).toNat
      rw [hstep, Bool.and_eq_true, beq_iff_eq, decide_eq_true_iff, exponentUnit]
      omega
    · show ((biased : Int) - 1075 + 1074).toNat * exponentUnit + (exponentUnit + fraction) = bits
      rw [hstep, exponentUnit] at *
      omega

end TraceSearch.Decimal
