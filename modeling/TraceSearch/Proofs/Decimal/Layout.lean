import TraceSearch.Decimal.Layout
import TraceSearch.Proofs.Decimal.Shortest

/-!
# Where the two notations agree

A double is written alike in plain text and in a document where neither the mark of whole numbers
nor the exponent part comes in. Main fact: `documentText_eq_plainText`, a double with a fraction has
one text, unless it is tiny.
-/

namespace TraceSearch.Decimal

/-- The size of a finite double. -/
def size (x : Float) : ℚ :=
  let b := Binary.ofMagnitude (magnitude x)
  b.mantissa * 2 ^ b.exponent

theorem zpow_eq_div (a : ℚ) (ha : a ≠ 0) (e : ℤ) : a ^ e = a ^ e.toNat / a ^ (-e).toNat := by
  have hsplit : e = (e.toNat : ℤ) - ((-e).toNat : ℤ) := by omega
  conv_lhs => rw [hsplit]
  rw [zpow_sub₀ ha, zpow_natCast, zpow_natCast]

theorem size_eq_natCast_iff {x : Float} {n : ℕ} :
    size x = n ↔
      let b := Binary.ofMagnitude (magnitude x)
      b.mantissa * 2 ^ b.exponent.toNat = n * 2 ^ (-b.exponent).toNat := by
  have hpow : (2 : ℚ) ^ (-(Binary.ofMagnitude (magnitude x)).exponent).toNat ≠ 0 := by positivity
  simp only [size]
  rw [zpow_eq_div 2 two_ne_zero, ← mul_div_assoc, div_eq_iff hpow]
  norm_cast

theorem le_size_iff {x : Float} :
    1 / 10 ^ 5 ≤ size x ↔
      let b := Binary.ofMagnitude (magnitude x)
      2 ^ (-b.exponent).toNat ≤ b.mantissa * 2 ^ b.exponent.toNat * 10 ^ 5 := by
  have hpow : (0 : ℚ) < 2 ^ (-(Binary.ofMagnitude (magnitude x)).exponent).toNat := by positivity
  simp only [size]
  rw [zpow_eq_div 2 two_ne_zero, ← mul_div_assoc, div_le_div_iff₀ (by positivity) hpow, one_mul]
  norm_cast

section Digits

theorem digits_mul_ten {n : ℕ} (h : 0 < n) : digits (n * 10) = digits n ++ ['0'] := by
  have hsplit : digits (n * 10) = digits (n * 10 / 10) ++ [(n * 10 % 10).digitChar] :=
    Nat.toDigits_of_base_le (by decide) (by omega)
  rw [hsplit, Nat.mul_div_cancel n (by decide), Nat.mul_mod_left]
  rfl

theorem digits_mul_powerOfTen {n : ℕ} (h : 0 < n) (zeros : ℕ) :
    digits (n * powerOfTen zeros) = digits n ++ List.replicate zeros '0' := by
  induction zeros with
  | zero => simp
  | succ zeros ih =>
    have hpos : 0 < n * powerOfTen zeros := Nat.mul_pos h (powerOfTen_pos zeros)
    rw [powerOfTen_succ, ← Nat.mul_assoc, digits_mul_ten hpos, ih, List.append_assoc,
      ← List.replicate_succ']

theorem length_digits_le_iff {n k : ℕ} (hk : 0 < k) :
    (digits n).length ≤ k ↔ n < powerOfTen k := Nat.length_toDigits_le_iff (by decide) hk

theorem lt_length_digits {n k : ℕ} (h : powerOfTen k ≤ n) : k < (digits n).length := by
  rcases Nat.eq_zero_or_pos k with hzero | hpos
  · rw [hzero]
    exact length_digits_pos n
  · exact Nat.lt_of_not_le fun hle =>
      Nat.not_lt_of_le h ((length_digits_le_iff hpos).1 hle)

end Digits

namespace Scaled

/-- The power of ten of the leading digit. -/
def leading (x : Scaled) : ℤ := (digits x.significand).length - 1 + x.exponent

theorem leading_dropZeros {x : Scaled} (hpos : 0 < x.significand) (n : ℕ) :
    (x.dropZeros n).leading = x.leading := by
  induction n generalizing x with
  | zero => rfl
  | succ n ih =>
    unfold dropZeros
    split
    · rename_i hzero
      have hten : x.significand / 10 * 10 = x.significand := Nat.div_mul_cancel (by omega)
      have htens : 0 < x.significand / 10 := by omega
      have hdigits := digits_mul_ten htens
      rw [hten] at hdigits
      rw [ih htens, leading, leading, hdigits, List.length_append, List.length_singleton]
      push_cast
      ring
    · rfl

/-- A decimal without a fraction keeps its value and has none afterwards. -/
theorem numerator_dropZeros {x : Scaled} (h : 0 ≤ x.exponent) (n : ℕ) :
    0 ≤ (x.dropZeros n).exponent ∧ (x.dropZeros n).numerator = x.numerator := by
  induction n generalizing x with
  | zero => exact ⟨h, rfl⟩
  | succ n ih =>
    unfold dropZeros
    split
    · rename_i hzero
      have hten : x.significand / 10 * 10 = x.significand := Nat.div_mul_cancel (by omega)
      have hexponent : (x.exponent + 1).toNat = x.exponent.toNat + 1 := by omega
      obtain ⟨hnonneg, hnumerator⟩ :=
        ih (x := ⟨x.significand / 10, x.exponent + 1⟩) (by show 0 ≤ x.exponent + 1; omega)
      refine ⟨hnonneg, hnumerator.trans ?_⟩
      show x.significand / 10 * powerOfTen (x.exponent + 1).toNat = _
      rw [hexponent, powerOfTen_succ, Nat.mul_comm (powerOfTen _) 10, ← Nat.mul_assoc, hten,
        numerator]
    · exact ⟨h, rfl⟩

end Scaled

namespace Binary

variable {b : Binary}

theorem two_pow_steps (hb : b.Canonical) (hexponent : b.exponent ≤ 0) :
    2 ^ leastScale = 2 ^ (-b.exponent).toNat * 2 ^ b.step := by
  have hleast := hb.exponent
  rw [← Nat.pow_add, step]
  congr 1
  omega

/-- A double without an exponent above its last bit stands for no whole number but its value. -/
theorem mantissa_of_reads_whole (hb : b.Canonical) (hexponent : b.exponent ≤ 0) {x : Scaled}
    (hx : 0 ≤ x.exponent) (h : b.Reads x) :
    b.mantissa = x.numerator * 2 ^ (-b.exponent).toNat := by
  have hpos := hb.pos
  have hquarters := Covers.le h
  have hdenominator : x.denominator = 1 := by
    have hzero : (-x.exponent).toNat = 0 := by omega
    rw [Scaled.denominator, hzero, powerOfTen_zero]
  have hpoint : 4 * (x.numerator <<< leastScale) =
      4 * (x.numerator * 2 ^ (-b.exponent).toNat) * 2 ^ b.step := by
    rw [Nat.shiftLeft_eq, two_pow_steps hb hexponent, Nat.mul_assoc, Nat.mul_assoc]
  rw [hdenominator, Nat.mul_one, hpoint] at hquarters
  generalize x.numerator * 2 ^ (-b.exponent).toNat = point at *
  have hlower := Nat.le_of_mul_le_mul_right hquarters.1 (Nat.two_pow_pos _)
  have hupper := Nat.le_of_mul_le_mul_right hquarters.2 (Nat.two_pow_pos _)
  unfold lowerQuarters upperQuarters at *
  split at hlower <;> omega

theorem exponent_of_onGrid {k : ℤ} {x : Scaled} (h : b.onGrid k = some x) :
    x.exponent = k ∧
      b.quartersOn k (4 * b.mantissa) / b.gridStep k ≤ x.significand := by
  unfold onGrid at h
  dsimp only at h
  split at h
  · split at h <;> cases h
    · exact ⟨rfl, Nat.le_refl _⟩
    · exact ⟨rfl, Nat.le_succ _⟩
  · cases h
    exact ⟨rfl, Nat.le_refl _⟩
  · cases h
    exact ⟨rfl, Nat.le_succ _⟩
  · contradiction

theorem gridStep_pos (b : Binary) (k : ℤ) : 0 < b.gridStep k := by
  rw [gridStep, Nat.shiftLeft_eq]
  exact Nat.mul_pos (powerOfTen_pos _) (Nat.two_pow_pos _)

theorem exists_first_some {α : Type} {f : ℕ → Option α} {n : ℕ} {x : α}
    (h : (List.range n).findSome? f = some x) : ∃ i < n, f i = some x ∧ ∀ j < i, f j = none := by
  obtain ⟨front, i, back, hrange, hi, hfront⟩ := List.findSome?_eq_some_iff.1 h
  rw [List.range_eq_range', List.range'_eq_append_iff] at hrange
  obtain ⟨k, hk, rfl, hback⟩ := hrange
  rw [eq_comm, List.range'_eq_cons_iff] at hback
  refine ⟨i, by omega, hi, fun j hj => hfront j ?_⟩
  rw [List.mem_range'_1]
  omega

/-- The shortest decimal is found on the first grid that has one. -/
theorem exists_shortest (hb : b.Canonical) :
    ∃ i : ℕ, ∃ x, b.onGrid (b.leadingExponent - i) = some x ∧
      (∀ j < i, b.onGrid (b.leadingExponent - (j : ℕ)) = none) ∧ shortest b = x.dropZeros 17 := by
  cases hfound : (List.range 17).findSome? fun i : ℕ => b.onGrid (b.leadingExponent - i) with
  | none =>
    have hnone := List.findSome?_eq_none_iff.1 hfound 16 (by decide)
    have hsome := onGrid_seventeen hb
    rw [show b.onGrid (b.leadingExponent - 16) = none from hnone] at hsome
    contradiction
  | some x =>
    obtain ⟨i, -, hi, hfirst⟩ := exists_first_some hfound
    refine ⟨i, x, hi, hfirst, ?_⟩
    unfold shortest
    dsimp only
    rw [hfound, Option.getD_some]

theorem leadingExponent_le_leading (hb : b.Canonical) :
    b.leadingExponent ≤ (shortest b).leading := by
  obtain ⟨i, x, hx, -, hshortest⟩ := exists_shortest hb
  obtain ⟨hexponent, hsignificand⟩ := exponent_of_onGrid hx
  have hsteps : powerOfTen i ≤ x.significand := by
    refine le_trans ?_ hsignificand
    rw [Nat.le_div_iff_mul_le (b.gridStep_pos _), Nat.mul_comm]
    exact b.gridStep_le hb.pos i
  have hlength := lt_length_digits hsteps
  rw [hshortest, Scaled.leading_dropZeros ((reads_of_onGrid hb hx).significand_pos hb),
    Scaled.leading, hexponent]
  omega

/-- A double of at least `10 ^ -n`. -/
theorem le_leadingExponent {n : ℕ} (hn : 0 < n)
    (h : 2 ^ (-b.exponent).toNat ≤ b.mantissa * 2 ^ b.exponent.toNat * 10 ^ n) :
    -(n : ℤ) ≤ b.leadingExponent := by
  unfold leadingExponent
  dsimp only
  rw [Nat.shiftLeft_eq, Nat.shiftLeft_eq, Nat.one_mul]
  generalize b.mantissa * 2 ^ b.exponent.toNat = above at *
  generalize hbelow : 2 ^ (-b.exponent).toNat = below at *
  have hpos : 0 < below := hbelow ▸ Nat.two_pow_pos _
  split
  · omega
  · have hsize : (below - 1) / above < powerOfTen n := by
      apply Nat.div_lt_of_lt_mul
      show below - 1 < above * 10 ^ n
      omega
    have hlength := (length_digits_le_iff hn).2 hsize
    omega

/-- A double below `2 ^ 52` stands for no decimal with more than sixteen digits before its point. -/
theorem leading_lt_sixteen (hb : b.Canonical) (hexponent : b.exponent < 0) {x : Scaled}
    (hx : x.exponent < 0) (h : b.Reads x) : x.leading < 16 := by
  have htop := Covers.lt_top h hb x.denominator_pos
  have hstep : b.step + 1 ≤ leastScale := by
    have hscale : 0 < leastScale := by decide
    unfold step
    omega
  have hpower : 2 ^ b.step * 2 ≤ 2 ^ leastScale := by
    rw [← Nat.pow_succ]
    exact Nat.pow_le_pow_right (by decide) hstep
  have hnumerator : x.numerator = x.significand := by
    have hzero : x.exponent.toNat = 0 := by omega
    rw [Scaled.numerator, hzero, powerOfTen_zero, Nat.mul_one]
  rw [Nat.shiftLeft_eq, hnumerator, Scaled.denominator] at htop
  generalize hplaces : (-x.exponent).toNat = places at *
  have hbound : x.significand * 2 ^ leastScale < powerOfTen (16 + places) * 2 ^ leastScale :=
    calc x.significand * 2 ^ leastScale < 2 ^ 53 * (2 ^ b.step * powerOfTen places) := htop
      _ = 2 ^ 52 * powerOfTen places * (2 ^ b.step * 2) := by ring
      _ ≤ powerOfTen 16 * powerOfTen places * 2 ^ leastScale :=
          Nat.mul_le_mul (Nat.mul_le_mul_right _ (by decide)) hpower
      _ = powerOfTen (16 + places) * 2 ^ leastScale := by rw [powerOfTen_add]
  have hlength := (length_digits_le_iff (by omega)).2 (Nat.lt_of_mul_lt_mul_right hbound)
  unfold Scaled.leading
  omega

end Binary

/-- The text of a finite double that is not zero. -/
theorem floatText_of_pos {l : Layout} {x : Float} (hx : isFinite x = true)
    (hpos : 0 < magnitude x) :
    floatText l x = (if isNegative x then ['-'] else []) ++
      scaledText l (shortest (Binary.ofMagnitude (magnitude x))) := by
  have hne : magnitude x ≠ 0 := by omega
  simp [floatText, isNaN_of_isFinite hx, isInfinite_of_isFinite hx, hne]

theorem scaledText_of_positional {l : Layout} {x : Scaled} (h : l.positional x.leading = true) :
    scaledText l x = positionalText l x := if_pos h

theorem positionalText_of_fraction (l : Layout) {x : Scaled} (h : x.exponent < 0) :
    positionalText l x = positionalText .plain x := by
  have hnot : ¬ 0 ≤ x.exponent := by omega
  simp only [positionalText, hnot, if_false]

/-- A double with a fraction is written alike in plain text and in a document, unless it is below
`10 ^ -5`. -/
theorem documentText_eq_plainText {x : Float} (hx : isFinite x = true)
    (hfraction : ∀ n : ℕ, size x ≠ n) (hsize : 1 / 10 ^ 5 ≤ size x) :
    documentText x = plainText x := by
  have hpos : 0 < magnitude x := by
    refine Nat.pos_of_ne_zero fun hzero => hfraction 0 (size_eq_natCast_iff.2 ?_)
    have hmantissa : (Binary.ofMagnitude (magnitude x)).mantissa = 0 := by
      rw [hzero]
      rfl
    simp only [hmantissa, Nat.zero_mul]
  have hcanonical := (canonical_ofMagnitude hpos (of_decide_eq_true hx)).1
  have hsize := le_size_iff.1 hsize
  have hfraction (n : ℕ) := mt size_eq_natCast_iff.2 (hfraction n)
  unfold documentText plainText
  rw [floatText_of_pos hx hpos, floatText_of_pos hx hpos]
  dsimp only at hsize hfraction
  generalize Binary.ofMagnitude (magnitude x) = b at *
  have hexponent : b.exponent < 0 := by
    apply Int.lt_of_not_ge
    intro hwhole
    have hzero : (-b.exponent).toNat = 0 := by omega
    exact hfraction (b.mantissa * 2 ^ b.exponent.toNat) (by rw [hzero, Nat.pow_zero, Nat.mul_one])
  have hreads := Binary.reads_shortest hcanonical
  have hplaces : (shortest b).exponent < 0 := by
    apply Int.lt_of_not_ge
    intro hwhole
    have hmantissa :=
      Binary.mantissa_of_reads_whole hcanonical (Int.le_of_lt hexponent) hwhole hreads
    have hzero : b.exponent.toNat = 0 := by omega
    exact hfraction _ (by rw [hzero, Nat.pow_zero, Nat.mul_one]; exact hmantissa)
  have hleast : -5 ≤ (shortest b).leading :=
    (Binary.le_leadingExponent (by decide) hsize).trans
      (Binary.leadingExponent_le_leading hcanonical)
  have hgreatest := Binary.leading_lt_sixteen hcanonical hexponent hplaces hreads
  have hpositional : Layout.document.positional (shortest b).leading = true := by
    simp [Layout.document, hleast, hgreatest]
  rw [scaledText_of_positional hpositional, scaledText_of_positional rfl,
    positionalText_of_fraction _ hplaces]

end TraceSearch.Decimal
