import Mathlib.Algebra.Order.Ring.Nat
import TraceSearch.Duration.Literal

/-!
# Words and offsets

What a machine has for counting and for cutting text: words of 128 bits, and offsets in bytes.
Arithmetic that leaves the word, a division by zero and a cut that is not between two characters are
traps. Main facts: checked arithmetic gives the sum or the product where a word holds it, so digits
are read to the number they denote or to none; and a text is cut behind a run of characters without
a trap.
-/

namespace TraceSearch.Duration.FixedWidth

/-- What a machine refuses to do. -/
inductive Trap where
  | overflow
  | divisionByZero
  | pastEnd
  | insideCharacter
deriving DecidableEq

/-- Why a computation has no value: the machine refuses it, or the literal is at fault. -/
inductive Halt where
  | trap (trap : Trap)
  | fault (fault : Fault)
deriving DecidableEq

abbrev Exec (α : Type) := Except Halt α

def require {α : Type} (halt : Halt) : Option α → Exec α
  | none => .error halt
  | some x => .ok x

def refuseIf (condition : Bool) (fault : Fault) : Exec Unit :=
  if condition then .error (.fault fault) else .ok ()

section Definitions

abbrev Word := BitVec 128

def checkedAdd (a b : Word) : Option Word := if a.uaddOverflow b then none else some (a + b)

def checkedMul (a b : Word) : Option Word := if a.umulOverflow b then none else some (a * b)

/-- A sum that traps where it leaves the word. -/
def add (a b : Word) : Exec Word := require (.trap .overflow) (checkedAdd a b)

/-- A product that traps where it leaves the word. -/
def mul (a b : Word) : Exec Word := require (.trap .overflow) (checkedMul a b)

def div (a b : Word) : Exec Word := if b = 0 then .error (.trap .divisionByZero) else .ok (a / b)

/-- A power that traps where it leaves the word. -/
def power (base : Word) : ℕ → Exec Word
  | 0 => .ok 1
  | n + 1 => do mul (← power base n) base

/-- The negative of a word that is taken for a signed one. -/
def negate (a : Word) : Exec Word :=
  if a.negOverflow then .error (.trap .overflow) else .ok (-a)

/-- A signed word in 64 bits, if they hold it. -/
def narrow (a : Word) : Option (BitVec 64) :=
  if fits64 a.toInt then some (BitVec.ofInt 64 a.toInt) else none

def appendDigit (n : Word) (c : Char) : Option Word :=
  if c.isDigit then do
    checkedAdd (← checkedMul n 10) (BitVec.ofNat 128 (c.toNat - '0'.toNat))
  else none

/-- The number that a text of digits denotes, if there is a digit and a word holds the number. -/
def parse (ds : List Char) : Option Word := if ds.isEmpty then none else ds.foldlM appendDigit 0

/-- A text as bytes. -/
def bytes (s : List Char) : List UInt8 := s.flatMap String.utf8EncodeChar

def size (s : List Char) : ℕ := (bytes s).length

def firstByte (s : List Char) : Exec UInt8 := require (.trap .pastEnd) (bytes s).head?

/-- The offset of the first character with a property. -/
def offsetOf (p : Char → Bool) : List Char → Option ℕ
  | [] => none
  | c :: s => if p c then some 0 else (offsetOf p s).map (c.utf8Size + ·)

/-- A text in two parts, cut at an offset, which has to be between two characters or at an end. -/
def splitAt : ℕ → List Char → Exec (List Char × List Char)
  | 0, s => .ok ([], s)
  | _ + 1, [] => .error (.trap .pastEnd)
  | offset + 1, c :: s =>
    if c.utf8Size ≤ offset + 1 then
      (splitAt (offset + 1 - c.utf8Size) s).map fun (front, rest) => (c :: front, rest)
    else .error (.trap .insideCharacter)

/-- A text cut at the first character without a property, or at its end. -/
def splitRun (p : Char → Bool) (s : List Char) : Exec (List Char × List Char) :=
  splitAt ((offsetOf (fun c => !p c) s).getD (size s)) s

end Definitions

section Counting

/-- The word of a number, if there is one. -/
def checked (n : ℕ) : Option Word := if n < 2 ^ 128 then some (BitVec.ofNat 128 n) else none

theorem checked_of_lt {n : ℕ} (h : n < 2 ^ 128) : checked n = some (BitVec.ofNat 128 n) := if_pos h

theorem checked_of_le {n : ℕ} (h : 2 ^ 128 ≤ n) : checked n = none := if_neg (Nat.not_lt.2 h)

theorem toNat_ofNat_of_lt {n : ℕ} (h : n < 2 ^ 128) : (BitVec.ofNat 128 n).toNat = n :=
  (BitVec.toNat_ofNat n 128).trans (Nat.mod_eq_of_lt h)

theorem ofNat_ne_zero {n : ℕ} (hpos : 0 < n) (h : n < 2 ^ 128) : BitVec.ofNat 128 n ≠ 0 := by
  intro hzero
  have hword := toNat_ofNat_of_lt h
  rw [hzero] at hword
  exact Nat.ne_of_lt hpos hword

theorem checkedAdd_eq (a b : Word) : checkedAdd a b = checked (a.toNat + b.toNat) := by
  rcases Nat.lt_or_ge (a.toNat + b.toNat) (2 ^ 128) with h | h
  · have hfits : a.uaddOverflow b = false := decide_eq_false (Nat.not_le.2 h)
    have hsum : a + b = BitVec.ofNat 128 (a.toNat + b.toNat) := BitVec.eq_of_toNat_eq rfl
    rw [checkedAdd, hfits, checked_of_lt h, ← hsum]
    rfl
  · have hbeyond : a.uaddOverflow b = true := decide_eq_true h
    rw [checkedAdd, hbeyond, checked_of_le h]
    rfl

theorem checkedMul_eq (a b : Word) : checkedMul a b = checked (a.toNat * b.toNat) := by
  rcases Nat.lt_or_ge (a.toNat * b.toNat) (2 ^ 128) with h | h
  · have hfits : a.umulOverflow b = false := decide_eq_false (Nat.not_le.2 h)
    have hproduct : a * b = BitVec.ofNat 128 (a.toNat * b.toNat) := BitVec.eq_of_toNat_eq rfl
    rw [checkedMul, hfits, checked_of_lt h, ← hproduct]
    rfl
  · have hbeyond : a.umulOverflow b = true := decide_eq_true h
    rw [checkedMul, hbeyond, checked_of_le h]
    rfl

section Numbers

variable {m n : ℕ} (hm : m < 2 ^ 128) (hn : n < 2 ^ 128)
include hm hn

theorem mul_ofNat (h : m * n < 2 ^ 128) :
    mul (BitVec.ofNat 128 m) (BitVec.ofNat 128 n) = .ok (BitVec.ofNat 128 (m * n)) := by
  rw [mul, checkedMul_eq, toNat_ofNat_of_lt hm, toNat_ofNat_of_lt hn, checked_of_lt h, require]

theorem div_ofNat (h : 0 < n) :
    div (BitVec.ofNat 128 m) (BitVec.ofNat 128 n) = .ok (BitVec.ofNat 128 (m / n)) := by
  have hquotient : BitVec.ofNat 128 m / BitVec.ofNat 128 n = BitVec.ofNat 128 (m / n) := by
    refine BitVec.eq_of_toNat_eq ?_
    rw [BitVec.toNat_udiv, toNat_ofNat_of_lt hm, toNat_ofNat_of_lt hn,
      toNat_ofNat_of_lt (Nat.lt_of_le_of_lt (Nat.div_le_self m n) hm)]
  rw [div, if_neg (ofNat_ne_zero h hn), hquotient]

end Numbers

/-- The powers of ten up to the 38th are words. -/
theorem power_ten {n : ℕ} (h : n ≤ 38) : power 10 n = .ok (BitVec.ofNat 128 (10 ^ n)) := by
  induction n with
  | zero => rfl
  | succ n ih =>
    have hnext : 10 ^ n * 10 < 2 ^ 128 := by
      rw [← Nat.pow_succ]
      exact Nat.lt_of_le_of_lt (Nat.pow_le_pow_right (Nat.zero_lt_succ 9) h) (by decide)
    have hmul := mul_ofNat (by omega) (by decide) hnext
    rw [power, ih (Nat.le_of_succ_le h), Nat.pow_succ, ← hmul]
    rfl

theorem appendDigit_eq {c : Char} (h : c.isDigit = true) (n : Word) :
    appendDigit n c = checked (10 * n.toNat + (c.toNat - '0'.toNat)) := by
  have hdigit : (BitVec.ofNat 128 (c.toNat - '0'.toNat)).toNat = c.toNat - '0'.toNat := by
    refine toNat_ofNat_of_lt (Nat.lt_of_le_of_lt (Nat.sub_le _ _) ?_)
    exact Nat.lt_trans c.val.toNat_lt (by decide)
  have hten : n.toNat * (10 : Word).toNat = 10 * n.toNat := Nat.mul_comm _ _
  rw [appendDigit, if_pos h, checkedMul_eq, hten]
  rcases Nat.lt_or_ge (10 * n.toNat) (2 ^ 128) with hlt | hge
  · rw [checked_of_lt hlt, Option.bind_eq_bind, Option.bind_some, checkedAdd_eq,
      toNat_ofNat_of_lt hlt, hdigit]
  · rw [checked_of_le hge, checked_of_le (Nat.le_add_right_of_le hge)]
    rfl

/-- A number that has left the word does not come back with further digits. -/
theorem foldlM_appendDigit {ds : List Char} (h : ∀ c ∈ ds, c.isDigit = true) (n : Word) :
    ds.foldlM appendDigit n = checked (Nat.ofDigitChars 10 ds n.toNat) := by
  induction ds generalizing n with
  | nil => rw [List.foldlM_nil, Nat.ofDigitChars_nil, checked_of_lt n.isLt, BitVec.ofNat_toNat,
      BitVec.setWidth_eq, Option.pure_def]
  | cons d ds ih =>
    have hrest := ih fun c hc => h c (List.mem_cons_of_mem d hc)
    rw [List.foldlM_cons, appendDigit_eq (h d List.mem_cons_self), Nat.ofDigitChars_cons]
    rcases Nat.lt_or_ge (10 * n.toNat + (d.toNat - '0'.toNat)) (2 ^ 128) with hlt | hge
    · rw [checked_of_lt hlt, Option.bind_eq_bind, Option.bind_some, hrest, toNat_ofNat_of_lt hlt]
    · have hgrows : 10 * n.toNat + (d.toNat - '0'.toNat) ≤
          Nat.ofDigitChars 10 ds (10 * n.toNat + (d.toNat - '0'.toNat)) := by
        rw [Nat.ofDigitChars_eq_ofDigitChars_zero]
        exact Nat.le_add_right_of_le (Nat.le_mul_of_pos_left _ (Nat.pow_pos (Nat.zero_lt_succ 9)))
      rw [checked_of_le hge, checked_of_le (Nat.le_trans hge hgrows)]
      rfl

theorem parse_eq {ds : List Char} (hne : ds ≠ []) (h : ∀ c ∈ ds, c.isDigit = true) :
    parse ds = checked (Decimal.value ds) := by
  rw [parse, if_neg (by simpa using hne), foldlM_appendDigit h]
  rfl

/-- Words up to half of the range are the same numbers with a sign. -/
theorem toInt_ofNat_of_lt {n : ℕ} (h : 2 * n < 2 ^ 128) : (BitVec.ofNat 128 n).toInt = n := by
  have hword := toNat_ofNat_of_lt (Nat.lt_of_le_of_lt (Nat.le_mul_of_pos_left n Nat.two_pos) h)
  rw [BitVec.toInt_eq_toNat_of_lt (by rwa [hword]), hword]

theorem narrow_of_fits {a : Word} (h : fits64 a.toInt = true) :
    ∃ n, narrow a = some n ∧ n.toInt = a.toInt := by
  refine ⟨BitVec.ofInt 64 a.toInt, if_pos h, ?_⟩
  rw [fits64, decide_eq_true_iff, least64, greatest64] at h
  exact BitVec.toInt_ofInt_eq_self (by decide) (by omega) (by omega)

end Counting

section Cutting

theorem size_nil : size [] = 0 := rfl

@[simp] theorem size_cons (c : Char) (s : List Char) : size (c :: s) = c.utf8Size + size s := by
  rw [size, bytes, List.flatMap_cons, List.length_append, String.length_utf8EncodeChar]
  rfl

theorem size_of_ascii {s : List Char} (h : ∀ c ∈ s, c.utf8Size = 1) : size s = s.length := by
  induction s with
  | nil => rfl
  | cons c s ih =>
    rw [size_cons, h c List.mem_cons_self, ih fun d hd => h d (List.mem_cons_of_mem c hd),
      List.length_cons, Nat.add_comm]

theorem splitAt_size (front rest : List Char) :
    splitAt (size front) (front ++ rest) = .ok (front, rest) := by
  induction front with
  | nil => rw [size_nil, List.nil_append, splitAt]
  | cons c front ih =>
    obtain ⟨offset, hoffset⟩ := Nat.exists_eq_add_one.2 c.utf8Size_pos
    have hsize : size (c :: front) = offset + size front + 1 := by
      rw [size_cons, hoffset]
      omega
    have hfits : c.utf8Size ≤ offset + size front + 1 := by omega
    have hbehind : offset + size front + 1 - c.utf8Size = size front := by omega
    rw [hsize, List.cons_append, splitAt, if_pos hfits, hbehind, ih]
    rfl

theorem offsetOf_getD (p : Char → Bool) (s : List Char) :
    (offsetOf (fun c => !p c) s).getD (size s) = size (s.takeWhile p) := by
  induction s with
  | nil => rfl
  | cons c s ih =>
    by_cases hc : p c = true
    · rw [offsetOf, hc, List.takeWhile_cons_of_pos hc, size_cons, size_cons, ← ih]
      cases offsetOf (fun c => !p c) s <;> rfl
    · rw [offsetOf, Bool.eq_false_iff.2 hc, List.takeWhile_cons_of_neg hc]
      rfl

/-- A cut behind a run of characters is never inside one. -/
theorem splitRun_eq (p : Char → Bool) (s : List Char) :
    splitRun p s = .ok (s.takeWhile p, s.dropWhile p) := by
  have hcut := splitAt_size (s.takeWhile p) (s.dropWhile p)
  rwa [List.takeWhile_append_dropWhile, ← offsetOf_getD] at hcut

end Cutting

section Bytes

theorem toUInt8_inj {c d : Char} (hc : c.val ≤ 127) (hd : d.val ≤ 127)
    (h : c.val.toUInt8 = d.val.toUInt8) : c = d := by
  have hmod := congrArg UInt8.toNat h
  rw [UInt32.toNat_toUInt8, UInt32.toNat_toUInt8] at hmod
  have hcode : c.val.toNat ≤ 127 := hc
  have hother : d.val.toNat ≤ 127 := hd
  exact Char.ext (UInt32.toNat.inj (by omega))

theorem firstByte_of_ascii {c : Char} (h : c.val ≤ 127) (s : List Char) :
    firstByte (c :: s) = .ok c.val.toUInt8 := by
  rw [firstByte, bytes, List.flatMap_cons,
    String.utf8EncodeChar_eq_singleton (Char.utf8Size_eq_one_iff.2 h)]
  rfl

theorem firstByte_of_not_ascii {c : Char} (h : ¬c.val ≤ 127) (s : List Char) :
    ∃ byte, firstByte (c :: s) = .ok byte ∧ 128 ≤ byte.toNat := by
  have hcode : ¬c.val.toNat ≤ 127 := h
  have hhigh {n : ℕ} (hn : 128 ≤ n % 256) : 128 ≤ (UInt8.ofNat n).toNat := by
    rwa [UInt8.toNat_ofNat']
  rw [firstByte, bytes, List.flatMap_cons, String.utf8EncodeChar, if_neg hcode]
  split
  · exact ⟨_, rfl, hhigh (by omega)⟩
  · split <;> exact ⟨_, rfl, hhigh (by omega)⟩

/-- The first byte of a text tells an ASCII character from every other one. -/
theorem firstByte_cons (c : Char) (s : List Char) :
    ∃ byte, firstByte (c :: s) = .ok byte ∧
      ∀ d : Char, d.val ≤ 127 → (byte = d.val.toUInt8 ↔ c = d) := by
  by_cases hc : c.val ≤ 127
  · exact ⟨_, firstByte_of_ascii hc s, fun d hd => ⟨toUInt8_inj hc hd, fun h => h ▸ rfl⟩⟩
  · obtain ⟨byte, hbyte, hhigh⟩ := firstByte_of_not_ascii hc s
    refine ⟨byte, hbyte, fun d hd => ⟨fun h => ?_, fun h => absurd (h ▸ hd) hc⟩⟩
    have hcode : d.val.toNat ≤ 127 := hd
    rw [h, UInt32.toNat_toUInt8] at hhigh
    omega

end Bytes

end TraceSearch.Duration.FixedWidth
