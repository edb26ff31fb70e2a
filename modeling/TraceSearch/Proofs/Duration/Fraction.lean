import TraceSearch.Proofs.Duration.Grammar

/-!
# Fractions of any length

A group states a decimal number of its unit, of which the reader counts 18 digits behind the point
and then whole nanoseconds. Main fact: `rounded_of_ofLiteral`, the digits cut off change no group of
a unit below a minute, and take at most one nanosecond from a group of minutes or hours. They can
take one: `cut_loses_nanosecond`.
-/

namespace TraceSearch

namespace TimeUnit

theorem nanoseconds_pos (unit : TimeUnit) : 0 < unit.nanoseconds := by cases unit <;> decide

theorem nanoseconds_le (unit : TimeUnit) : unit.nanoseconds ≤ 10 ^ 18 := by cases unit <;> decide

theorem dvd_or_mem (unit : TimeUnit) : unit.nanoseconds ∣ 10 ^ 18 ∨ unit ∈ [minute, hour] := by
  cases unit <;> decide

end TimeUnit

namespace Duration

/-- The nanoseconds a group states when every digit of its fraction counts. -/
def Group.amount (g : Group) : ℚ :=
  (Decimal.value g.whole + Decimal.value g.fraction / 10 ^ g.fraction.length) * g.unit.nanoseconds

/-- A group without the digits of its fraction from the 19th on. -/
def Group.cut (g : Group) : Group := { g with fraction := g.fraction.take 18 }

theorem Group.floor_amount (g : Group) :
    ⌊g.amount⌋₊ = Decimal.value g.whole * g.unit.nanoseconds +
      Decimal.value g.fraction * g.unit.nanoseconds / 10 ^ g.fraction.length := by
  have hpos : 0 < 10 ^ g.fraction.length := Nat.pow_pos (by decide)
  have hdiv : g.amount =
      ((Decimal.value g.fraction * g.unit.nanoseconds +
        10 ^ g.fraction.length * (Decimal.value g.whole * g.unit.nanoseconds) : ℕ) : ℚ) /
        (10 ^ g.fraction.length : ℕ) := by
    unfold Group.amount
    push_cast
    field_simp
    ring
  rw [hdiv, Nat.floor_div_eq_div, Nat.add_mul_div_left _ _ hpos, Nat.add_comm]

theorem Group.nanoseconds_eq (g : Group) : g.nanoseconds = ⌊g.cut.amount⌋₊ := by
  rw [Group.floor_amount]
  rfl

section Cut

variable {scale base more kept past : ℕ}

theorem div_le_div_of_cut (hmore : 0 < more) :
    kept * scale / base ≤ (kept * more + past) * scale / (base * more) := by
  rw [← Nat.mul_div_mul_right (kept * scale) base hmore, Nat.mul_right_comm]
  exact Nat.div_le_div_right (Nat.mul_le_mul_right scale (Nat.le_add_right _ past))

theorem div_of_cut_le (hbase : scale ≤ base) (hpast : past < more) :
    (kept * more + past) * scale / (base * more) ≤ kept * scale / base + 1 := by
  have hmore : 0 < more := Nat.zero_lt_of_lt hpast
  rcases Nat.eq_zero_or_pos base with hzero | hpos
  · simp [hzero]
  have hnext : kept * more + past ≤ (kept + 1) * more := by
    rw [Nat.succ_mul]
    omega
  calc (kept * more + past) * scale / (base * more)
      ≤ (kept + 1) * more * scale / (base * more) :=
        Nat.div_le_div_right (Nat.mul_le_mul_right scale hnext)
    _ = (kept + 1) * scale / base := by
        rw [Nat.mul_right_comm, Nat.mul_div_mul_right _ _ hmore]
    _ ≤ (kept * scale + base) / base := by
        rw [Nat.succ_mul]
        exact Nat.div_le_div_right (Nat.add_le_add_left hbase _)
    _ = kept * scale / base + 1 := Nat.add_div_right _ hpos

theorem div_of_cut_of_dvd (hscale : 0 < scale) (hbase : scale ∣ base) (hpast : past < more) :
    (kept * more + past) * scale / (base * more) = kept * scale / base := by
  obtain ⟨places, rfl⟩ := hbase
  have hmore : 0 < more := Nat.zero_lt_of_lt hpast
  rw [Nat.mul_comm scale places, Nat.mul_right_comm, Nat.mul_div_mul_right _ _ hscale,
    Nat.mul_div_mul_right _ _ hscale, Nat.mul_comm places more, ← Nat.div_div_eq_div_mul,
    Nat.mul_comm kept more, Nat.mul_add_div hmore, Nat.div_eq_of_lt hpast, Nat.add_zero]

end Cut

theorem Group.Spelled.fraction_digits {g : Group} {text : List Char} (h : g.Spelled text) :
    ∀ c ∈ g.fraction, c.isDigit = true := by
  cases h with
  | whole => nofun
  | pointed _ hdigits => exact fun c hc => hdigits c (List.mem_append_right _ hc)

theorem fraction_digits_of_mem {groups : List Group} {text : List Char} (h : Spelled groups text) :
    ∀ g ∈ groups, ∀ c ∈ g.fraction, c.isDigit = true := by
  induction h with
  | nil => nofun
  | cons first _ ih =>
    intro g hg
    rcases List.mem_cons.1 hg with rfl | hg
    · exact first.fraction_digits
    · exact ih g hg

theorem Group.cut_of_length_le {g : Group} (h : g.fraction.length ≤ 18) : g.cut = g := by
  rw [Group.cut, List.take_of_length_le h]

/-- The units below a minute are powers of ten, so no digit past the 18th reaches a nanosecond. -/
theorem Group.floor_amount_cases {g : Group} (h : ∀ c ∈ g.fraction, c.isDigit = true) :
    ⌊g.amount⌋₊ = ⌊g.cut.amount⌋₊ ∨
      g.unit ∈ [.minute, .hour] ∧ 18 < g.fraction.length ∧ ⌊g.amount⌋₊ = ⌊g.cut.amount⌋₊ + 1 := by
  rcases Nat.lt_or_ge 18 g.fraction.length with hlong | hshort
  swap
  · rw [Group.cut_of_length_le hshort]
    exact Or.inl rfl
  have hkept : (g.fraction.take 18).length = 18 := List.length_take_of_le (Nat.le_of_lt hlong)
  have hparts : g.fraction.take 18 ++ g.fraction.drop 18 = g.fraction := List.take_append_drop _ _
  have hlength : g.fraction.length = 18 + (g.fraction.drop 18).length := by
    rw [← hkept, ← List.length_append, hkept, hparts]
  have hvalue : Decimal.value g.fraction =
      Decimal.value (g.fraction.take 18) * 10 ^ (g.fraction.drop 18).length +
        Decimal.value (g.fraction.drop 18) := by
    conv_lhs => rw [← hparts]
    exact Decimal.value_append _ _
  have hpast : Decimal.value (g.fraction.drop 18) < 10 ^ (g.fraction.drop 18).length :=
    Decimal.value_lt fun c hc => h c (List.mem_of_mem_drop hc)
  have hcut : ⌊g.cut.amount⌋₊ = Decimal.value g.whole * g.unit.nanoseconds +
      Decimal.value (g.fraction.take 18) * g.unit.nanoseconds / 10 ^ 18 := by
    rw [Group.floor_amount, Group.cut, hkept]
  rw [hcut, Group.floor_amount, hvalue, hlength, Nat.pow_add]
  generalize Decimal.value (g.fraction.take 18) = kept
  generalize Decimal.value (g.fraction.drop 18) = past at hpast ⊢
  generalize 10 ^ (g.fraction.drop 18).length = more at hpast ⊢
  have hleast : kept * g.unit.nanoseconds / 10 ^ 18 ≤
      (kept * more + past) * g.unit.nanoseconds / (10 ^ 18 * more) :=
    div_le_div_of_cut (Nat.zero_lt_of_lt hpast)
  have hgreatest : (kept * more + past) * g.unit.nanoseconds / (10 ^ 18 * more) ≤
      kept * g.unit.nanoseconds / 10 ^ 18 + 1 := div_of_cut_le g.unit.nanoseconds_le hpast
  rcases g.unit.dvd_or_mem with hdvd | hlonger
  · rw [div_of_cut_of_dvd g.unit.nanoseconds_pos hdvd hpast]
    exact Or.inl rfl
  · rcases Nat.le_and_le_add_one_iff.1 ⟨hleast, hgreatest⟩ with hsame | hnext
    · rw [hsame]
      exact Or.inl rfl
    · rw [hnext]
      exact Or.inr ⟨hlonger, hlength ▸ hlong, rfl⟩

theorem total_eq_sum (groups : List Group) :
    total groups = (groups.map fun g => ⌊g.cut.amount⌋₊).sum := by
  induction groups with
  | nil => rfl
  | cons g groups ih => rw [total_cons, ih, g.nanoseconds_eq, List.map_cons, List.sum_cons]

/-- A literal denotes its groups cut to 18 digits of fraction, each rounded down. Without the cut a
group rounds down to the same nanoseconds, except that minutes and hours may lose one by it. -/
theorem rounded_of_ofLiteral {literal : String} {d : Duration} (h : ofLiteral literal = .ok d) :
    (splitSign literal.toList).2 = ['0'] ∧ d = zero ∨
      ∃ groups, Spelled groups (splitSign literal.toList).2 ∧
        d = signed (splitSign literal.toList).1 (groups.map fun g => ⌊g.cut.amount⌋₊).sum ∧
        ∀ g ∈ groups, ⌊g.amount⌋₊ = ⌊g.cut.amount⌋₊ ∨
          g.unit ∈ [.minute, .hour] ∧ 18 < g.fraction.length ∧
            ⌊g.amount⌋₊ = ⌊g.cut.amount⌋₊ + 1 := by
  obtain ⟨n, hread, rfl⟩ := readMagnitude_of_ofLiteral h
  rcases readMagnitude_eq_ok_iff.1 hread with ⟨hbody, rfl⟩ | ⟨groups, -, hspelled, rfl, -⟩
  · refine Or.inl ⟨hbody, ?_⟩
    cases (splitSign literal.toList).1 <;> rfl
  · refine Or.inr ⟨groups, hspelled, by rw [total_eq_sum], ?_⟩
    intro g hg
    exact Group.floor_amount_cases (fraction_digits_of_mem hspelled g hg)

/-- Two long fractions: the seconds lose nothing by the cut, the minutes a nanosecond. -/
def longFractions : String := "-1.9999999999999999999s0.00000000001666666667m"

theorem rounded_of_ofLiteral_longFractions :
    ofLiteral longFractions = .ok ⟨-1999999999⟩ ∧
      ((splitSign longFractions.toList).2 = ['0'] ∧ (⟨-1999999999⟩ : Duration) = zero ∨
        ∃ groups, Spelled groups (splitSign longFractions.toList).2 ∧
          (⟨-1999999999⟩ : Duration) = signed (splitSign longFractions.toList).1
            (groups.map fun g => ⌊g.cut.amount⌋₊).sum ∧
          ∀ g ∈ groups, ⌊g.amount⌋₊ = ⌊g.cut.amount⌋₊ ∨
            g.unit ∈ [.minute, .hour] ∧ 18 < g.fraction.length ∧
              ⌊g.amount⌋₊ = ⌊g.cut.amount⌋₊ + 1) := by
  have hread : ofLiteral longFractions = .ok ⟨-1999999999⟩ := by decide +kernel
  exact ⟨hread, rounded_of_ofLiteral hread⟩

/-- A nanosecond in hours, rounded up in the 19th digit of the fraction. -/
def nanosecondInHours : Group :=
  ⟨['0'], List.replicate 12 '0' ++ ['2', '7', '7', '7', '7', '7', '8'], .hour⟩

/-- The 19th digit of these hours completes their only nanosecond, which is lost. -/
theorem cut_loses_nanosecond :
    ofLiteral "0.0000000000002777778h" = .ok zero ∧
      Spelled [nanosecondInHours] (splitSign "0.0000000000002777778h".toList).2 ∧
      signed (splitSign "0.0000000000002777778h".toList).1
        ([nanosecondInHours].map fun g => ⌊g.amount⌋₊).sum = ⟨1⟩ := by
  have hspelled : nanosecondInHours.Spelled
      (['0'] ++ '.' :: nanosecondInHours.fraction ++ ['h']) :=
    .pointed (List.cons_ne_nil _ _) (List.all_eq_true.1 rfl) (by decide)
  refine ⟨by decide +kernel, ?_, ?_⟩
  · have htext : (splitSign "0.0000000000002777778h".toList).2 =
        ['0'] ++ '.' :: nanosecondInHours.fraction ++ ['h'] ++ [] := by decide +kernel
    rw [htext]
    exact .cons hspelled .nil
  · rw [List.map_singleton, List.sum_singleton, Group.floor_amount]
    decide +kernel

end Duration

end TraceSearch
