import TraceSearch.Decimal.Bits
import TraceSearch.Decimal.Digits

/-!
# The shortest decimal of a binary fraction

A double holds a mantissa and a power of two, and stands for every real that rounds to it. Of the
decimals in that interval the one with the fewest digits is chosen, and of these the nearest. Each
grid of decimals is tested at the two neighbours of the value alone, in exact arithmetic; a tie goes
to the even significand.

Source: ryu's shortest decimal of a double.
-/

namespace TraceSearch.Decimal

/-- A positive number `significand * 10 ^ exponent`. -/
structure Scaled where
  significand : Nat
  exponent : Int
deriving DecidableEq

namespace Binary

/-- The lower end of the interval that rounds to the double, in quarters of the last mantissa bit.
-/
def lowerQuarters (b : Binary) : Nat := 4 * b.mantissa - (if b.narrowBelow then 1 else 2)

/-- The upper end of the interval that rounds to the double, in quarters of the last mantissa bit.
-/
def upperQuarters (b : Binary) : Nat := 4 * b.mantissa + 2

/-- A number of quarters of the last mantissa bit, in units shared with `gridStep`. -/
def quartersOn (b : Binary) (k : Int) (quarters : Nat) : Nat :=
  quarters <<< (b.exponent - 2).toNat * powerOfTen (-k).toNat

/-- The step of the grid of multiples of `10 ^ k`, in units shared with `quartersOn`. -/
def gridStep (b : Binary) (k : Int) : Nat := powerOfTen k.toNat <<< (2 - b.exponent).toNat

/-- Whether `d * 10 ^ k` rounds to the double; the ends of the interval do when the mantissa is
even. -/
def roundsFrom (b : Binary) (k : Int) (d : Nat) : Bool :=
  let lower := b.quartersOn k b.lowerQuarters
  let upper := b.quartersOn k b.upperQuarters
  let point := d * b.gridStep k
  if b.mantissa % 2 = 0 then lower ≤ point && point ≤ upper else lower < point && point < upper

/-- The multiple of `10 ^ k` nearest to the double, if one of its neighbours on that grid rounds to
it. -/
def onGrid (b : Binary) (k : Int) : Option Scaled :=
  let exact := b.quartersOn k (4 * b.mantissa)
  let step := b.gridStep k
  let below := exact / step
  let rest := exact % step
  match b.roundsFrom k below, b.roundsFrom k (below + 1) with
  | true, true =>
    if rest * 2 < step ∨ rest * 2 = step ∧ below % 2 = 0 then some ⟨below, k⟩
    else some ⟨below + 1, k⟩
  | true, false => some ⟨below, k⟩
  | false, true => some ⟨below + 1, k⟩
  | false, false => none

/-- The power of ten of the leading digit. -/
def leadingExponent (b : Binary) : Int :=
  let above := b.mantissa <<< b.exponent.toNat
  let below := 1 <<< (-b.exponent).toNat
  if below ≤ above then ((digits (above / below)).length : Int) - 1
  else -((digits ((below - 1) / above)).length : Int)

end Binary

namespace Scaled

/-- The same number with up to `n` zeros moved from the significand to the exponent. -/
def dropZeros : Nat → Scaled → Scaled
  | 0, x => x
  | n + 1, x =>
    if x.significand % 10 = 0 then dropZeros n ⟨x.significand / 10, x.exponent + 1⟩ else x

end Scaled

/-- The shortest decimal that rounds to a positive double; seventeen digits always suffice. -/
def shortest (b : Binary) : Scaled :=
  let top := b.leadingExponent
  let found := (List.range 17).findSome? fun i : Nat => b.onGrid (top - i)
  (found.getD ⟨0, 0⟩).dropZeros 17

end TraceSearch.Decimal
