import TraceSearch.Decimal.Digits
import TraceSearch.Decimal.Nearest
import TraceSearch.Decimal.Shortest

/-!
# Arithmetic on doubles

Positive doubles are multiplied and divided as exact fractions and rounded once, so the operations
are those of the hardware. Operands and results are magnitudes. With these a decimal is read the
quick way, as the parser's `f64_from_parts` does it: the significand becomes a double and is
multiplied or divided by a power of ten that is a double too. Each step rounds, so the result is
close to the decimal but need not be the double nearest to it.

Source: `f64_from_parts` and `POW10` of serde_json without its `float_roundtrip`, and the products
and quotients of doubles it computes.
-/

namespace TraceSearch.Decimal

namespace Binary

def numerator (b : Binary) : Nat := b.mantissa <<< b.exponent.toNat

def denominator (b : Binary) : Nat := 1 <<< (-b.exponent).toNat

end Binary

/-- The product of two doubles, which may be infinite. -/
def product (x y : Nat) : Nat :=
  let a := Binary.ofMagnitude x
  let b := Binary.ofMagnitude y
  nearestMagnitude (a.numerator * b.numerator) (a.denominator * b.denominator)

/-- The quotient of two doubles. -/
def quotient (x y : Nat) : Nat :=
  let a := Binary.ofMagnitude x
  let b := Binary.ofMagnitude y
  nearestMagnitude (a.numerator * b.denominator) (a.denominator * b.numerator)

/-- The double nearest to a whole number. -/
def wholeDouble (n : Nat) : Nat := nearestMagnitude n 1

/-- The double nearest to `10 ^ n`. -/
def tenDouble (n : Nat) : Nat := wholeDouble (powerOfTen n)

/-- The greatest power of ten that is a double. -/
def greatestTen : Nat := 308

/-- A double divided by the greatest power of ten, a number of times or until it is zero. -/
def divideByGreatest : Nat → Nat → Nat
  | 0, x => x
  | times + 1, x =>
    if x = 0 then 0 else divideByGreatest times (quotient x (tenDouble greatestTen))

/-- A decimal read by arithmetic on doubles, unless it leaves their range. -/
def Scaled.magnitude? (x : Scaled) : Option Nat :=
  let whole := wholeDouble x.significand
  match x.exponent with
  | .ofNat n =>
    if n ≤ greatestTen then
      let result := product whole (tenDouble n)
      if result = infinityMagnitude then none else some result
    else if whole = 0 then some 0
    else none
  | .negSucc n =>
    let times := n / greatestTen
    some (quotient (divideByGreatest times whole) (tenDouble (n + 1 - times * greatestTen)))

end TraceSearch.Decimal
