import TraceSearch.Decimal.Digits

/-!
# Integers in text

A bounded integer written as an optional sign and decimal digits. A plus is always allowed, a minus
only where the range holds negative numbers, and leading zeros do not matter. Main fact: the decimal
text of an integer is read back as that integer, and refused if the integer is out of range.

Source: the standard library's parsing of u64, i64, u32 and u16 with `ParseIntError`, and their
printing.
-/

namespace TraceSearch.Decimal

/-- Why a text is no integer of a range. -/
inductive IntegerError where
  | empty
  | invalidDigit
  | tooLarge
  | tooSmall
deriving DecidableEq

def IntegerError.message : IntegerError → String
  | empty => "cannot parse integer from empty string"
  | invalidDigit => "invalid digit found in string"
  | tooLarge => "number too large to fit in target type"
  | tooSmall => "number too small to fit in target type"

/-- An inclusive range of integers. -/
structure Range where
  least : Int
  greatest : Int

namespace Range

/-- The 64-bit unsigned integers. -/
def unsigned64 : Range := ⟨0, 18446744073709551615⟩

/-- The 64-bit signed integers. -/
def signed64 : Range := ⟨-9223372036854775808, 9223372036854775807⟩

/-- The 32-bit unsigned integers. -/
def unsigned32 : Range := ⟨0, 4294967295⟩

/-- The 16-bit unsigned integers. -/
def unsigned16 : Range := ⟨0, 65535⟩

def contains (r : Range) (n : Int) : Bool := decide (r.least ≤ n ∧ n ≤ r.greatest)

@[simp] theorem unsigned64_contains_iff {n : Int} :
    unsigned64.contains n = true ↔ 0 ≤ n ∧ n ≤ 18446744073709551615 := decide_eq_true_iff

@[simp] theorem signed64_contains_iff {n : Int} :
    signed64.contains n = true ↔ -9223372036854775808 ≤ n ∧ n ≤ 9223372036854775807 :=
  decide_eq_true_iff

/-- A non-empty run of digits under a sign. The text is read from the left, so digits that leave the
range are reported before a character after them that is no digit. -/
def readDigits (r : Range) (negative : Bool) (s : List Char) : Except IntegerError Int :=
  let (ds, rest) := splitDigits s
  let n : Int := if negative then -value ds else value ds
  if n < r.least then .error .tooSmall
  else if r.greatest < n then .error .tooLarge
  else if ds.isEmpty || !rest.isEmpty then .error .invalidDigit
  else .ok n

def readChars (r : Range) : List Char → Except IntegerError Int
  | [] => .error .empty
  | '+' :: ds => r.readDigits false ds
  | '-' :: ds => if r.least < 0 then r.readDigits true ds else .error .invalidDigit
  | ds => r.readDigits false ds

def read (r : Range) (s : String) : Except IntegerError Int := r.readChars s.toList

end Range

def integerText (n : Int) : List Char :=
  if n < 0 then '-' :: digits n.natAbs else digits n.natAbs

def integer (n : Int) : String := String.ofList (integerText n)

@[simp] theorem digits_ne_nil (n : Nat) : digits n ≠ [] := Nat.toDigits_ne_nil

theorem readDigits_digits_iff {r : Range} {negative : Bool} {n : Nat} {m : Int} :
    r.readDigits negative (digits n) = .ok m ↔
      r.contains (if negative then -(n : Int) else n) = true ∧
        m = if negative then -(n : Int) else n := by
  have hne : (digits n).isEmpty = false := by simp
  simp only [Range.readDigits, splitDigits_digits, value_digits, hne, Range.contains,
    decide_eq_true_eq]
  generalize (if negative = true then -(n : Int) else n) = k
  by_cases hleast : k < r.least
  · simp only [hleast, if_true, reduceCtorEq, false_iff]
    omega
  · by_cases hgreatest : r.greatest < k
    · simp only [hleast, hgreatest, if_false, if_true, reduceCtorEq, false_iff]
      omega
    · simp only [hleast, hgreatest, if_false, Bool.not_true, List.isEmpty_nil, Bool.or_false,
        Bool.false_eq_true, Except.ok.injEq]
      omega

/-- Digits start with no sign. -/
theorem readChars_digits (r : Range) (n : Nat) :
    r.readChars (digits n) = r.readDigits false (digits n) := by
  match hds : digits n, digits_ne_nil n with
  | c :: cs, _ =>
    have hc : c.isDigit = true :=
      isDigit_of_mem_digits (n := n) (by rw [hds]; exact List.mem_cons_self)
    unfold Range.readChars
    split
    · contradiction
    · rename_i heq
      cases heq
      exact absurd hc (by decide)
    · rename_i heq
      cases heq
      exact absurd hc (by decide)
    · rfl

/-- The decimal text of an integer is read back, if the integer is in range, and else refused. -/
theorem readChars_integerText_iff {r : Range} {n m : Int} :
    r.readChars (integerText n) = .ok m ↔ r.contains n = true ∧ m = n := by
  unfold integerText
  split
  · rename_i hn
    have habs : -(n.natAbs : Int) = n := by omega
    rw [Range.readChars]
    split
    · rw [readDigits_digits_iff, if_pos rfl, habs]
    · rename_i hleast
      simp only [Range.contains, decide_eq_true_eq]
      constructor
      · intro h
        cases h
      · omega
  · rename_i hn
    have habs : (n.natAbs : Int) = n := by omega
    rw [readChars_digits, readDigits_digits_iff, if_neg (by decide), habs]

/-- No two integers are written alike. -/
theorem integer_inj {m n : Int} (h : integer m = integer n) : m = n := by
  have htext : integerText m = integerText n := String.ofList_injective h
  have hcontains : (⟨m, m⟩ : Range).contains m = true :=
    decide_eq_true ⟨Int.le_refl m, Int.le_refl m⟩
  have hread := readChars_integerText_iff.2 ⟨hcontains, rfl⟩
  rw [htext] at hread
  exact (readChars_integerText_iff.1 hread).2

end TraceSearch.Decimal
