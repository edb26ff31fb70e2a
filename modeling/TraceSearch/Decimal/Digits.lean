/-!
# Decimal digits

Runs of ASCII digits and the numbers they denote. Main facts: the digits of a number denote it, and
`splitDigits` cuts a text after its longest run of digits without losing anything.

Source: the standard library's printing and parsing of integers.
-/

namespace TraceSearch.Decimal

/-- The decimal digits of a number, most significant first and without leading zeros. -/
def digits (n : Nat) : List Char := Nat.toDigits 10 n

/-- The number a run of decimal digits denotes. -/
def value (ds : List Char) : Nat := Nat.ofDigitChars 10 ds 0

/-- The number one followed by `n` zeros. -/
def powerOfTen (n : Nat) : Nat := Nat.pow 10 n

/-- The longest run of digits at the start of a text, and what follows it. -/
def splitDigits (s : List Char) : List Char × List Char :=
  (s.takeWhile Char.isDigit, s.dropWhile Char.isDigit)

@[simp] theorem powerOfTen_zero : powerOfTen 0 = 1 := rfl

@[simp] theorem powerOfTen_succ (n : Nat) : powerOfTen (n + 1) = powerOfTen n * 10 := rfl

@[simp] theorem value_digits (n : Nat) : value (digits n) = n :=
  Nat.ofDigitChars_toDigits (by decide) (by decide)

theorem isDigit_of_mem_digits {n : Nat} {c : Char} (h : c ∈ digits n) : c.isDigit = true :=
  Nat.isDigit_of_mem_toDigits (by decide) (by decide) h

theorem splitDigits_append (s : List Char) : (splitDigits s).1 ++ (splitDigits s).2 = s :=
  List.takeWhile_append_dropWhile

theorem splitDigits_of_all {ds : List Char} (h : ∀ c ∈ ds, c.isDigit = true) (rest : List Char)
    (hrest : ∀ c ∈ rest.head?, c.isDigit = false) : splitDigits (ds ++ rest) = (ds, rest) := by
  induction ds with
  | nil =>
    cases rest with
    | nil => rfl
    | cons c rest => simp [splitDigits, hrest c (by simp)]
  | cons d ds ih =>
    have hd := h d (by simp)
    have := ih fun c hc => h c (by simp [hc])
    simp only [splitDigits, Prod.mk.injEq] at this
    simp [splitDigits, hd, this.1, this.2]

theorem splitDigits_digits (n : Nat) : splitDigits (digits n) = (digits n, []) := by
  have hds : ∀ c ∈ digits n, c.isDigit = true := fun c hc => isDigit_of_mem_digits hc
  have h := splitDigits_of_all hds [] (by simp)
  simpa using h

theorem powerOfTen_pos (n : Nat) : 0 < powerOfTen n := Nat.pow_pos (by decide)

theorem powerOfTen_add (m n : Nat) : powerOfTen (m + n) = powerOfTen m * powerOfTen n :=
  Nat.pow_add 10 m n

theorem value_append (ds es : List Char) :
    value (ds ++ es) = value ds * powerOfTen es.length + value es := by
  rw [value, Nat.ofDigitChars_append, Nat.ofDigitChars_eq_ofDigitChars_zero, Nat.mul_comm]
  rfl

@[simp] theorem value_zeros (n : Nat) : value (List.replicate n '0') = 0 := by
  rw [value, Nat.ofDigitChars_replicate_zero, Nat.mul_zero]

theorem value_lt {ds : List Char} (h : ∀ c ∈ ds, c.isDigit = true) :
    value ds < powerOfTen ds.length := by
  induction ds with
  | nil => exact Nat.one_pos
  | cons d ds ih =>
    have hrest := ih fun c hc => h c (List.mem_cons_of_mem d hc)
    have hdigit : value [d] ≤ 9 := by
      have hd := h d List.mem_cons_self
      simp only [Char.isDigit, Bool.and_eq_true, decide_eq_true_eq] at hd
      have hnine : d.toNat ≤ 57 := UInt32.le_iff_toNat_le.1 hd.2
      have hvalue : value [d] = d.toNat - 48 := by simp [value, Nat.ofDigitChars]
      omega
    have hle := Nat.mul_le_mul_right (powerOfTen ds.length) hdigit
    have hsplit : value (d :: ds) = value [d] * powerOfTen ds.length + value ds :=
      value_append [d] ds
    rw [hsplit, List.length_cons, powerOfTen_succ]
    omega

theorem length_digits_pos (n : Nat) : 0 < (digits n).length := Nat.length_toDigits_pos

theorem lt_powerOfTen_length_digits (n : Nat) : n < powerOfTen (digits n).length :=
  (Nat.length_toDigits_le_iff (by decide) (length_digits_pos n)).1 (Nat.le_refl _)

theorem powerOfTen_le_of_pos {n : Nat} (h : 0 < n) : powerOfTen ((digits n).length - 1) ≤ n := by
  rcases Nat.eq_zero_or_pos ((digits n).length - 1) with hzero | hpos
  · rw [hzero]
    exact h
  · apply Nat.le_of_not_lt
    intro hlt
    have hlength := (Nat.length_toDigits_le_iff (b := 10) (by decide) hpos).2 hlt
    have := length_digits_pos n
    rw [digits] at *
    omega

/-- The digits of a positive number do not start with a zero. -/
theorem head_digits_ne_zero {n : Nat} (h : 0 < n) : ∀ c ∈ (digits n).head?, c ≠ '0' := by
  induction n using Nat.strongRecOn with
  | ind n ih =>
    intro c hc
    rcases Nat.lt_or_ge n 10 with hlt | hge
    · rw [digits, Nat.toDigits_of_lt_base hlt] at hc
      cases hc
      have hdigit : ∀ k < 10, 0 < k → Nat.digitChar k ≠ '0' := by decide
      exact hdigit n hlt h
    · have hsplit : digits n = digits (n / 10) ++ [(n % 10).digitChar] :=
        Nat.toDigits_of_base_le (by decide) hge
      have hhead : (digits n).head? = (digits (n / 10)).head? := by
        cases hfront : digits (n / 10) with
        | nil => exact absurd hfront Nat.toDigits_ne_nil
        | cons d ds => rw [hsplit, hfront, List.cons_append, List.head?_cons, List.head?_cons]
      exact ih (n / 10) (by omega) (by omega) c (hhead ▸ hc)

/-- Digits padded with zeros on the left to a width of at least `width`. -/
def padded (width n : Nat) : List Char := (digits n).leftpad width '0'

theorem value_padded (width n : Nat) : value (padded width n) = n := by
  rw [padded, List.leftpad, value_append, value_zeros, value_digits, Nat.zero_mul, Nat.zero_add]

theorem isDigit_of_mem_padded {width n : Nat} {c : Char} (h : c ∈ padded width n) :
    c.isDigit = true := by
  rcases List.mem_append.1 h with h | h
  · rw [List.eq_of_mem_replicate h]
    rfl
  · exact isDigit_of_mem_digits h

theorem length_padded {width n : Nat} (hwidth : 0 < width) (h : n < powerOfTen width) :
    (padded width n).length = width := by
  have hdigits : (digits n).length ≤ width :=
    (Nat.length_toDigits_le_iff (by decide) hwidth).2 h
  rw [padded, List.leftpad, List.length_append, List.length_replicate]
  omega

/-- A run of digits without the zeros at its end. -/
def dropTrailingZeros (ds : List Char) : List Char := (ds.reverse.dropWhile (· == '0')).reverse

theorem dropTrailingZeros_append (ds : List Char) :
    ∃ zeros, dropTrailingZeros ds ++ List.replicate zeros '0' = ds := by
  refine ⟨(ds.reverse.takeWhile (· == '0')).length, ?_⟩
  have hzeros : ds.reverse.takeWhile (· == '0') =
      List.replicate (ds.reverse.takeWhile (· == '0')).length '0' := by
    refine List.eq_replicate_of_mem fun c hc => ?_
    have hall := List.all_takeWhile (p := (· == '0')) (l := ds.reverse)
    exact eq_of_beq (List.all_eq_true.1 hall c hc)
  rw [dropTrailingZeros, ← List.reverse_replicate, ← hzeros, ← List.reverse_append,
    List.takeWhile_append_dropWhile, List.reverse_reverse]

/-- `value / 10 ^ places` in decimal notation, with no zeros at the end of the fraction and no point
when there is no fraction. -/
def fixedPoint (value places : Nat) : List Char :=
  let whole := digits (value / powerOfTen places)
  let rest := value % powerOfTen places
  if rest = 0 then whole
  else whole ++ '.' :: dropTrailingZeros (padded places rest)

end TraceSearch.Decimal
