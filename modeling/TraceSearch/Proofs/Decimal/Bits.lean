import Mathlib
import TraceSearch.Decimal.Real

/-!
# Doubles are their bits

A double is determined by its bits, and bits that stand for a number are kept when they become a
double. Main facts: `magnitude_signedFloat`, the magnitude of a double is the one it was made from,
and `signedFloat_magnitude`, a finite double is its magnitude under its sign.
-/

namespace TraceSearch.Decimal

open Float.Model (Format UnpackedFloat)
open Float.Model.UnpackedFloat

theorem toNat_packComponents (s : Sign) (e : BitVec 11) (m : BitVec 52) :
    (packComponents Format.binary64 s e m).toNat =
      s.toBitVec.toNat * signUnit + (e.toNat * exponentUnit + m.toNat) := by
  unfold packComponents
  rw [BitVec.toNat_append, BitVec.toNat_append, ← Nat.shiftLeft_add_eq_or_of_lt m.isLt,
    ← Nat.shiftLeft_add_eq_or_of_lt e.isLt, Nat.shiftLeft_eq, Nat.shiftLeft_eq, signUnit,
    exponentUnit]
  omega

/-- Bits are a sign and, below it, the two fields of the magnitude. -/
theorem toNat_eq_fields (b : BitVec 64) :
    ∃ (s : Sign) (e : BitVec 11) (m : BitVec 52),
      Sign.ofBitVec (@unpackSign Format.binary64 b) = s ∧
      @unpackExponent Format.binary64 b = e ∧ @unpackMantissa Format.binary64 b = m ∧
      b.toNat / signUnit = s.toBitVec.toNat ∧
      b.toNat % signUnit = e.toNat * exponentUnit + m.toNat := by
  refine ⟨_, _, _, rfl, rfl, rfl, ?_⟩
  have hfields := congrArg BitVec.toNat
    (@packComponents_unpackSign_unpackExponent_unpackMantissa Format.binary64 b)
  have he := (@unpackExponent Format.binary64 b).isLt
  have hm := (@unpackMantissa Format.binary64 b).isLt
  change _ < 2 ^ 11 at he
  change _ < 2 ^ 52 at hm
  rw [toNat_packComponents] at hfields
  rw [← hfields, signUnit, exponentUnit]
  omega

/-- Bits that stand for a number, or for an infinity, are valid. -/
theorem valid_of_magnitude_le {b : BitVec 64} (h : b.toNat % signUnit ≤ infinityMagnitude) :
    Format.binary64.Valid b := by
  obtain ⟨s, e, m, -, he, hm, -, hmagnitude⟩ := toNat_eq_fields b
  refine ⟨fun hexponent hmantissa => absurd ?_ hmantissa⟩
  have hones : e.toNat = 2047 := by rw [← he, hexponent]; rfl
  rw [hmagnitude, hones, infinityMagnitude] at h
  rw [hm]
  apply BitVec.eq_of_toNat_eq
  show m.toNat = 0
  omega

/-- Bits with the other sign. -/
def flipped (b : BitVec 64) : BitVec 64 :=
  packComponents Format.binary64 (-Sign.ofBitVec (@unpackSign Format.binary64 b))
    (@unpackExponent Format.binary64 b) (@unpackMantissa Format.binary64 b)

theorem neg_unpack (b : BitVec 64) :
    (unpack Format.binary64 b).neg = unpack Format.binary64 (flipped b) := by
  unfold unpack flipped
  simp only [unpackSign_packComponents, unpackExponent_packComponents,
    unpackMantissa_packComponents, Sign.ofBitVec_toBitVec]
  split_ifs <;> rfl

theorem toNat_flipped (b : BitVec 64) :
    (flipped b).toNat = (1 - b.toNat / signUnit) * signUnit + b.toNat % signUnit := by
  obtain ⟨s, e, m, hs, he, hm, hsign, hmagnitude⟩ := toNat_eq_fields b
  have hneg : (-s).toBitVec.toNat = 1 - s.toBitVec.toNat := by cases s <;> rfl
  rw [flipped, hs, he, hm, toNat_packComponents, hsign, hmagnitude, hneg]

theorem toBits_ofBits {b : UInt64} (h : b.toNat % signUnit ≤ infinityMagnitude) :
    (Float.ofBits b).toBits = b := by
  have hbits : (Float.ofBits b).toBits.toBitVec = b.toBitVec :=
    pack_unpack_of_valid (valid_of_magnitude_le h)
  exact UInt64.toBitVec_inj.1 hbits

theorem toNat_toBits_neg {x : Float} (h : magnitude x ≤ infinityMagnitude) :
    (-x).toBits.toNat = (1 - x.toBits.toNat / signUnit) * signUnit + magnitude x := by
  have hflipped := toNat_flipped x.toBits.toBitVec
  have hvalid : Format.binary64.Valid (flipped x.toBits.toBitVec) := by
    refine valid_of_magnitude_le ?_
    rw [hflipped, Nat.mul_add_mod_self_right, Nat.mod_mod]
    exact h
  have hbits : (-x).toBits.toBitVec = flipped x.toBits.toBitVec := by
    show pack Format.binary64 (unpack Format.binary64 x.toBits.toBitVec).neg = _
    rw [neg_unpack, pack_unpack_of_valid hvalid]
  exact (congrArg BitVec.toNat hbits).trans hflipped

theorem toNat_toBits_floatOfMagnitude {bits : Nat} (h : bits ≤ infinityMagnitude) :
    (floatOfMagnitude bits).toBits.toNat = bits := by
  have hlt : bits < 2 ^ 64 := Nat.lt_of_le_of_lt h (by decide)
  have hbits : (UInt64.ofNat bits).toNat = bits := UInt64.toNat_ofNat_of_lt hlt
  have hmagnitude : (UInt64.ofNat bits).toNat % signUnit ≤ infinityMagnitude := by
    rw [hbits]
    exact Nat.le_trans (Nat.mod_le _ _) h
  rw [floatOfMagnitude, toBits_ofBits hmagnitude, hbits]

theorem magnitude_floatOfMagnitude {bits : Nat} (h : bits ≤ infinityMagnitude) :
    magnitude (floatOfMagnitude bits) = bits := by
  rw [magnitude, toNat_toBits_floatOfMagnitude h]
  exact Nat.mod_eq_of_lt (Nat.lt_of_le_of_lt h (by decide))

theorem toNat_toBits_signedFloat (negative : Bool) {bits : Nat} (h : bits ≤ infinityMagnitude) :
    (signedFloat negative (floatOfMagnitude bits)).toBits.toNat =
      (if negative then signUnit else 0) + bits := by
  have hbits := toNat_toBits_floatOfMagnitude h
  have hmagnitude := magnitude_floatOfMagnitude h
  have hlt : bits < signUnit := Nat.lt_of_le_of_lt h (by decide)
  cases negative with
  | false => rw [signedFloat, if_neg (by decide), if_neg (by decide), hbits, Nat.zero_add]
  | true =>
    rw [signedFloat, if_pos rfl, if_pos rfl, toNat_toBits_neg (by rwa [hmagnitude]), hbits,
      hmagnitude, Nat.div_eq_of_lt hlt, Nat.sub_zero, Nat.one_mul]

theorem magnitude_signedFloat (negative : Bool) {bits : Nat} (h : bits ≤ infinityMagnitude) :
    magnitude (signedFloat negative (floatOfMagnitude bits)) = bits := by
  have hlt : bits < signUnit := Nat.lt_of_le_of_lt h (by decide)
  rw [magnitude, toNat_toBits_signedFloat negative h]
  cases negative with
  | false => rw [if_neg (by decide), Nat.zero_add, Nat.mod_eq_of_lt hlt]
  | true => rw [if_pos rfl, Nat.add_mod_left, Nat.mod_eq_of_lt hlt]

theorem isNegative_signedFloat (negative : Bool) {bits : Nat} (h : bits ≤ infinityMagnitude) :
    isNegative (signedFloat negative (floatOfMagnitude bits)) = negative := by
  have hlt : bits < signUnit := Nat.lt_of_le_of_lt h (by decide)
  unfold isNegative
  rw [toNat_toBits_signedFloat negative h]
  cases negative with
  | true =>
    rw [if_pos rfl, Nat.add_div_left _ (by decide), Nat.div_eq_of_lt hlt]
    rfl
  | false =>
    rw [if_neg Bool.false_ne_true, Nat.zero_add, Nat.div_eq_of_lt hlt]
    rfl

theorem isNaN_of_isFinite {x : Float} (h : isFinite x = true) : isNaN x = false := by
  have hlt : magnitude x < infinityMagnitude := of_decide_eq_true h
  exact decide_eq_false (by omega)

theorem isInfinite_of_isFinite {x : Float} (h : isFinite x = true) : isInfinite x = false := by
  have hlt : magnitude x < infinityMagnitude := of_decide_eq_true h
  exact beq_false_of_ne (by omega)

theorem signedFloat_magnitude {x : Float} (h : isFinite x = true) :
    signedFloat (isNegative x) (floatOfMagnitude (magnitude x)) = x := by
  have hbits : magnitude x ≤ infinityMagnitude := Nat.le_of_lt (of_decide_eq_true h)
  apply Float.toBits_inj.1
  apply UInt64.toNat_inj.1
  rw [toNat_toBits_signedFloat _ hbits]
  have hx := x.toBits.toNat_lt
  have hsplit := Nat.div_add_mod x.toBits.toNat signUnit
  have hsign : x.toBits.toNat / signUnit = 0 ∨ x.toBits.toNat / signUnit = 1 := by
    rw [signUnit]
    omega
  unfold isNegative magnitude
  rcases hsign with hzero | hone
  · rw [hzero] at hsplit ⊢
    rw [if_neg (by decide)]
    omega
  · rw [hone] at hsplit ⊢
    rw [if_pos (by decide)]
    omega

end TraceSearch.Decimal
