import TraceSearch.Decimal.Bits

/-!
# Rounding fractions to doubles

A positive fraction is rounded to the nearest double in exact arithmetic. Doubles are multiples of
the least one, and from `2 ^ 53` of these on only multiples of a higher power of two, the step, so
that 53 bits are enough for the mantissa. A tie goes to the even mantissa.

Source: the rounding of IEEE 754, by which doubles are parsed and computed.
-/

namespace TraceSearch.Decimal

/-- The least double is `2 ^ -leastScale`. -/
def leastScale : Nat := 1074

/-- The integer nearest to `n / d`, a half going to the even one. -/
def roundHalfEven (n d : Nat) : Nat :=
  let below := n / d
  let rest := n % d
  if 2 * rest < d ∨ 2 * rest = d ∧ below % 2 = 0 then below else below + 1

/-- The exponent of the last mantissa bit of a double, counted from the least, for a number whose
whole part in units of the least double is `whole`. -/
def stepOf (whole : Nat) : Nat := whole.log2 - 52

/-- The magnitude of the double nearest to `n / d`, which is infinity if there is none so large. A
mantissa that is rounded up to 54 bits carries over into the exponent. -/
def nearestMagnitude (n d : Nat) : Nat :=
  let scaled := n <<< leastScale
  let step := stepOf (scaled / d)
  min infinityMagnitude (step * exponentUnit + roundHalfEven scaled (d <<< step))

end TraceSearch.Decimal
