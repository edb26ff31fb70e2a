import TraceSearch.Proofs.Duration.Fraction
import TraceSearch.Proofs.Duration.Word

/-!
# Groups in words

A group is cut out of a text at offsets and counted in words: the product and the sum with a whole
part are checked, while a fraction is scaled and divided without a check. Main facts: `cutGroup_eq`
and `count_eq`, a group is cut out as it is read and its count is a word or out of range; and
`fractionFits_of_cutGroup`, what is not checked is in words.
-/

namespace TraceSearch.Duration.FixedWidth

section Definitions

def requireRange {α : Type} : Option α → Exec α := require (.fault .outOfRange)

/-- The fraction that follows a whole part, if a point does. -/
def cutFraction : List Char → Exec (List Char × List Char)
  | '.' :: tail => splitRun Char.isDigit tail
  | s => .ok ([], s)

/-- The group at the start of a text, and what follows it. -/
def cutGroup (s : List Char) : Exec (Group × List Char) := do
  let (whole, afterWhole) ← splitRun Char.isDigit s
  let (fraction, afterNumber) ← cutFraction afterWhole
  refuseIf (whole.isEmpty && fraction.isEmpty) .noNumber
  let (symbol, rest) ← splitRun isSymbolChar afterNumber
  refuseIf symbol.isEmpty .noUnit
  let unit ← require (.fault (.unknownUnit (String.ofList symbol))) (TimeUnit.ofSymbol? symbol)
  return (⟨whole, fraction, unit⟩, rest)

/-- The nanoseconds of a fraction of a unit, rounded down. The number of digits that count is the
exponent of a power, in 32 bits. -/
def countFraction (scale : Word) (fraction : List Char) : Exec Word := do
  let (digits, _) ← splitAt (min (size fraction) Group.precision) fraction
  let value ← requireRange (parse digits)
  let denominator ← power 10 (BitVec.ofNat 32 (size digits)).toNat
  div (← mul value scale) denominator

/-- The number of a whole part, which may be left out. -/
def wholeValue (whole : List Char) : Exec Word :=
  if whole.isEmpty then .ok 0 else requireRange (parse whole)

def countWhole (scale : Word) (whole : List Char) : Exec Word := do
  requireRange (checkedMul (← wholeValue whole) scale)

def count (g : Group) : Exec Word := do
  let scale : Word := BitVec.ofNat 128 g.unit.nanoseconds
  let nanos ← countWhole scale g.whole
  if g.fraction.isEmpty then return nanos
  else requireRange (checkedAdd nanos (← countFraction scale g.fraction))

end Definitions

section Cuts

theorem cutFraction_eq (s : List Char) : cutFraction s = .ok (splitFraction s) := by
  unfold cutFraction
  split
  · exact splitRun_eq _ _
  · rename_i hpoint
    rw [splitFraction]
    exact hpoint

/-- A group is cut out where it is read, and faults are the same. -/
theorem cutGroup_eq (s : List Char) : cutGroup s = (readGroup s).mapError .fault := by
  rcases hwhole : Decimal.splitDigits s with ⟨whole, afterWhole⟩
  rcases hfraction : splitFraction afterWhole with ⟨fraction, afterNumber⟩
  have hcut : splitRun Char.isDigit s = .ok (whole, afterWhole) := hwhole ▸ splitRun_eq _ s
  simp only [cutGroup, readGroup, hcut, cutFraction_eq, hwhole, hfraction, splitRun_eq, refuseIf,
    bind, Except.bind]
  by_cases hnumber : (whole.isEmpty && fraction.isEmpty) = true
  · rw [if_pos hnumber, if_pos hnumber]
    rfl
  rw [if_neg hnumber, if_neg hnumber]
  by_cases hsymbol : (afterNumber.takeWhile isSymbolChar).isEmpty = true
  · rw [if_pos hsymbol, if_pos hsymbol]
    rfl
  rw [if_neg hsymbol, if_neg hsymbol]
  cases TimeUnit.ofSymbol? (afterNumber.takeWhile isSymbolChar) <;> rfl

theorem digits_of_readGroup {s rest : List Char} {g : Group} (h : readGroup s = .ok (g, rest)) :
    (∀ c ∈ g.whole, c.isDigit = true) ∧ ∀ c ∈ g.fraction, c.isDigit = true := by
  obtain ⟨text, hspelled, -⟩ := spelled_of_readGroup h
  refine ⟨?_, hspelled.fraction_digits⟩
  cases hspelled with
  | whole _ hdigits => exact hdigits
  | pointed _ hdigits => exact fun c hc => hdigits c (List.mem_append_left _ hc)

end Cuts

section Counts

variable {g : Group}

theorem size_of_digits {ds : List Char} (h : ∀ c ∈ ds, c.isDigit = true) : size ds = ds.length := by
  refine size_of_ascii fun c hc => ?_
  have hdigit := h c hc
  simp only [Char.isDigit, Bool.and_eq_true, decide_eq_true_eq] at hdigit
  rw [Char.utf8Size_eq_one_iff]
  exact UInt32.le_trans hdigit.2 (by decide)

theorem nanoseconds_lt (unit : TimeUnit) : unit.nanoseconds < 2 ^ 128 :=
  Nat.lt_of_le_of_lt unit.nanoseconds_le (by decide)

theorem length_significant_le (g : Group) : g.significant.length ≤ 18 := List.length_take_le _ _

section Fraction

variable (hdigits : ∀ c ∈ g.fraction, c.isDigit = true)
include hdigits

theorem significant_digits : ∀ c ∈ g.significant, c.isDigit = true :=
  fun c hc => hdigits c (List.mem_of_mem_take hc)

theorem splitAt_significant : splitAt (min (size g.fraction) Group.precision) g.fraction =
    .ok (g.significant, g.fraction.drop Group.precision) := by
  have hparts := splitAt_size g.significant (g.fraction.drop Group.precision)
  rw [size_of_digits (significant_digits hdigits), Group.significant, List.take_append_drop,
    List.length_take, Nat.min_comm] at hparts
  rwa [size_of_digits hdigits]

/-- Eighteen digits of the greatest unit are far below the end of a word, and so is the power of
ten they are divided by. -/
theorem fraction_fits :
    Decimal.value g.significant * g.unit.nanoseconds < 2 ^ 128 ∧
      Decimal.powerOfTen g.significant.length < 2 ^ 128 := by
  have hvalue := Decimal.value_lt (significant_digits hdigits)
  have hpower : Decimal.powerOfTen g.significant.length ≤ 10 ^ 18 :=
    Nat.pow_le_pow_right (Nat.zero_lt_succ 9) (length_significant_le g)
  refine ⟨?_, Nat.lt_of_le_of_lt hpower (by decide)⟩
  calc Decimal.value g.significant * g.unit.nanoseconds
      ≤ 10 ^ 18 * 10 ^ 18 :=
        Nat.mul_le_mul (Nat.le_trans (Nat.le_of_lt hvalue) hpower) g.unit.nanoseconds_le
    _ < 2 ^ 128 := by decide

theorem power_significant : power 10 (BitVec.ofNat 32 (size g.significant)).toNat =
    .ok (BitVec.ofNat 128 (Decimal.powerOfTen g.significant.length)) := by
  have hlength := length_significant_le g
  have hexponent : (BitVec.ofNat 32 (size g.significant)).toNat = g.significant.length := by
    rw [size_of_digits (significant_digits hdigits), BitVec.toNat_ofNat]
    exact Nat.mod_eq_of_lt (Nat.lt_of_le_of_lt hlength (by decide))
  rw [hexponent, power_ten (Nat.le_trans hlength (by decide))]
  rfl

theorem countFraction_eq (hne : g.fraction ≠ []) :
    countFraction (BitVec.ofNat 128 g.unit.nanoseconds) g.fraction =
      .ok (BitVec.ofNat 128 (Decimal.value g.significant * g.unit.nanoseconds /
        Decimal.powerOfTen g.significant.length)) := by
  obtain ⟨hproduct, hpower⟩ := fraction_fits hdigits
  have hkept := significant_digits hdigits
  have hsome : g.significant ≠ [] := by
    rw [Group.significant, Ne, List.take_eq_nil_iff]
    exact not_or.2 ⟨Nat.succ_ne_zero 17, hne⟩
  have hvalue : Decimal.value g.significant < 2 ^ 128 :=
    Nat.lt_of_le_of_lt (Nat.le_mul_of_pos_right _ g.unit.nanoseconds_pos) hproduct
  have hscaled := mul_ofNat hvalue (nanoseconds_lt g.unit) hproduct
  have hquotient := div_ofNat hproduct hpower (Decimal.powerOfTen_pos _)
  simp only [countFraction, splitAt_significant hdigits, parse_eq hsome hkept,
    checked_of_lt hvalue, requireRange, require, power_significant hdigits, hscaled, hquotient,
    bind, Except.bind]

end Fraction

theorem wholeValue_eq {whole : List Char} (h : ∀ c ∈ whole, c.isDigit = true) :
    wholeValue whole = requireRange (checked (Decimal.value whole)) := by
  by_cases hempty : whole = []
  · rw [hempty]
    rfl
  · rw [wholeValue, if_neg (by rwa [List.isEmpty_iff]), parse_eq hempty h]

/-- A whole part that is no word has too many nanoseconds, as no unit has less than one. -/
theorem countWhole_eq (hdigits : ∀ c ∈ g.whole, c.isDigit = true) :
    countWhole (BitVec.ofNat 128 g.unit.nanoseconds) g.whole =
      requireRange (checked (Decimal.value g.whole * g.unit.nanoseconds)) := by
  rw [countWhole, wholeValue_eq hdigits]
  rcases Nat.lt_or_ge (Decimal.value g.whole) (2 ^ 128) with hword | hbeyond
  · have hproduct := checkedMul_eq (BitVec.ofNat 128 (Decimal.value g.whole))
      (BitVec.ofNat 128 g.unit.nanoseconds)
    rw [toNat_ofNat_of_lt hword, toNat_ofNat_of_lt (nanoseconds_lt g.unit)] at hproduct
    rw [checked_of_lt hword, ← hproduct]
    rfl
  · have hmore := Nat.le_mul_of_pos_right (Decimal.value g.whole) g.unit.nanoseconds_pos
    rw [checked_of_le hbeyond, checked_of_le (Nat.le_trans hbeyond hmore)]
    rfl

theorem nanoseconds_of_whole (hnone : g.fraction = []) :
    g.nanoseconds = Decimal.value g.whole * g.unit.nanoseconds := by
  have hzero : Decimal.value g.significant = 0 := by
    rw [Group.significant, hnone]
    rfl
  rw [Group.nanoseconds, hzero, Nat.zero_mul, Nat.zero_div, Nat.add_zero]

/-- The count of a group is its nanoseconds where a word holds them. A whole part that leaves the
word stops it before the fraction is looked at. -/
theorem count_eq (hwhole : ∀ c ∈ g.whole, c.isDigit = true)
    (hfraction : ∀ c ∈ g.fraction, c.isDigit = true) :
    count g = requireRange (checked g.nanoseconds) := by
  simp only [count, countWhole_eq hwhole, bind, Except.bind]
  rcases Nat.lt_or_ge (Decimal.value g.whole * g.unit.nanoseconds) (2 ^ 128) with hfits | hbeyond
  · rw [checked_of_lt hfits]
    dsimp only [requireRange, require]
    by_cases hnone : g.fraction = []
    · rw [if_pos (by rwa [List.isEmpty_iff]), nanoseconds_of_whole hnone, checked_of_lt hfits]
      rfl
    · have hpart := Nat.lt_of_le_of_lt
        (Nat.div_le_self _ (Decimal.powerOfTen g.significant.length)) (fraction_fits hfraction).1
      rw [if_neg (by rwa [List.isEmpty_iff]), countFraction_eq hfraction hnone]
      dsimp only
      rw [checkedAdd_eq, toNat_ofNat_of_lt hfits, toNat_ofNat_of_lt hpart, Group.nanoseconds]
  · rw [checked_of_le hbeyond, Group.nanoseconds, checked_of_le (Nat.le_add_right_of_le hbeyond)]
    rfl

/-- The fraction of a group is counted in words: its product with the unit is one, and so is the
power of ten below it, which is not zero. -/
structure FractionFits (g : Group) : Prop where
  product_lt : Decimal.value g.significant * g.unit.nanoseconds < 2 ^ 128
  power_lt : 10 ^ g.significant.length < 2 ^ 128
  denominator : ∃ denominator,
    power 10 (BitVec.ofNat 32 (size g.significant)).toNat = .ok denominator ∧ denominator ≠ 0

theorem fractionFits_of_cutGroup {s rest : List Char} {g : Group}
    (h : cutGroup s = .ok (g, rest)) : FractionFits g := by
  rw [cutGroup_eq] at h
  cases hread : readGroup s with
  | error fault =>
    rw [hread] at h
    cases h
  | ok read =>
    rw [hread] at h
    cases h
    have hfraction := (digits_of_readGroup hread).2
    obtain ⟨hproduct, hpower⟩ := fraction_fits hfraction
    exact ⟨hproduct, hpower, _, power_significant hfraction,
      ofNat_ne_zero (Decimal.powerOfTen_pos _) hpower⟩

end Counts

end TraceSearch.Duration.FixedWidth
