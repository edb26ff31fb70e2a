/-!
# The bits of a double

A double is a sign bit, eleven bits of a biased exponent and fifty-two bits of a fraction. The bits
below the sign are its magnitude: magnitudes are ordered as the sizes of the numbers they stand for,
with infinity above every finite one and not-a-number above infinity.

Source: `to_bits`, `from_bits`, `is_finite`, `is_infinite` and `is_nan` of f64.
-/

namespace TraceSearch.Decimal

/-- The value of the sign bit. -/
def signUnit : Nat := 9223372036854775808

/-- The value of the lowest bit of the exponent, which the fraction stays below. -/
def exponentUnit : Nat := 4503599627370496

/-- The magnitude of infinity: all bits of the exponent. -/
def infinityMagnitude : Nat := 2047 * exponentUnit

/-- The bits below the sign. -/
def magnitude (x : Float) : Nat := x.toBits.toNat % signUnit

def isNegative (x : Float) : Bool := x.toBits.toNat / signUnit == 1

def isFinite (x : Float) : Bool := magnitude x < infinityMagnitude

def isInfinite (x : Float) : Bool := magnitude x == infinityMagnitude

def isNaN (x : Float) : Bool := infinityMagnitude < magnitude x

/-- The double of a magnitude, without a sign. -/
def floatOfMagnitude (bits : Nat) : Float := Float.ofBits (UInt64.ofNat bits)

/-- A positive double `mantissa * 2 ^ exponent`. The gap to the double below is half the gap above
where the mantissa is the least of its exponent. -/
structure Binary where
  mantissa : Nat
  exponent : Int
  narrowBelow : Bool

def Binary.ofMagnitude (bits : Nat) : Binary :=
  let fraction := bits % exponentUnit
  let biased : Nat := bits / exponentUnit
  if biased = 0 then ⟨fraction, -1074, false⟩
  else ⟨exponentUnit + fraction, (biased : Int) - 1075, fraction == 0 && 1 < biased⟩

end TraceSearch.Decimal
