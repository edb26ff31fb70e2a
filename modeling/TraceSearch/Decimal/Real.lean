import TraceSearch.Decimal.Digits
import TraceSearch.Decimal.Nearest

/-!
# Reading doubles

A decimal is read as the nearest double, a tie going to the even mantissa. Exponents may be of any
size: a number whose leading digit stands above `10 ^ 309` is infinite and one below `10 ^ -325` is
zero, so no huge power is ever formed. Free-standing text may also spell infinity and not-a-number.

Source: the standard library's parsing of f64, and its casts between doubles and integers.
-/

namespace TraceSearch.Decimal

/-- The double nearest to `significand * 10 ^ exponent`. -/
def nearestFloat (significand : Nat) (exponent : Int) : Float :=
  let leading := (digits significand).length + exponent
  floatOfMagnitude <|
    if significand = 0 ∨ leading < -325 then 0
    else if 310 < leading then infinityMagnitude
    else
      nearestMagnitude (significand * powerOfTen exponent.toNat) (powerOfTen (-exponent).toNat)

def signedFloat (negative : Bool) (x : Float) : Float := if negative then -x else x

/-- The double nearest to an integer. -/
def floatOfInt (n : Int) : Float := signedFloat (decide (n < 0)) (nearestFloat n.natAbs 0)

/-- The nearest integer, a half going away from zero, for a finite double. -/
def roundHalfAway (x : Float) : Int :=
  let b := Binary.ofMagnitude (magnitude x)
  let scaled := b.mantissa <<< b.exponent.toNat
  let unit := 1 <<< (-b.exponent).toNat
  let n : Nat := (2 * scaled + unit) / (2 * unit)
  if isNegative x then -n else n

/-- The greatest 64-bit unsigned integer. -/
def greatestUnsigned64 : Nat := 18446744073709551615

/-- The nearest 64-bit unsigned integer to a double; not-a-number counts as zero. -/
def saturateUnsigned64 (x : Float) : Nat :=
  if isNaN x then 0
  else if isInfinite x then (if isNegative x then 0 else greatestUnsigned64)
  else min greatestUnsigned64 (roundHalfAway x).toNat

/-- The exponent part of a number, if the text holds nothing else. -/
def readExponent : List Char → Option Int
  | [] => some 0
  | e :: rest =>
    if e = 'e' ∨ e = 'E' then
      let (negative, ds) := match rest with
        | '-' :: ds => (true, ds)
        | '+' :: ds => (false, ds)
        | ds => (false, ds)
      if ds.isEmpty || !ds.all Char.isDigit then none
      else some (if negative then -value ds else value ds)
    else none

/-- A double spelled by digits with an optional point and exponent part. -/
def readUnsignedFloat (s : List Char) : Option Float :=
  let (whole, rest) := splitDigits s
  let (fraction, rest) := match rest with
    | '.' :: rest => splitDigits rest
    | rest => ([], rest)
  if whole.isEmpty && fraction.isEmpty then none
  else (readExponent rest).map fun e =>
    nearestFloat (value (whole ++ fraction)) (e - fraction.length)

/-- A double in free-standing text: a number, or a spelling of infinity or not-a-number in any case,
with an optional sign. -/
def readFloat? (s : String) : Option Float :=
  let (negative, body) := match s.toList with
    | '-' :: rest => (true, rest)
    | '+' :: rest => (false, rest)
    | rest => (false, rest)
  let word := String.ofList (body.map Char.toLower)
  let magnitude :=
    if word = "inf" ∨ word = "infinity" then some (1 / 0)
    else if word = "nan" then some (0 / 0)
    else readUnsignedFloat body
  magnitude.map (signedFloat negative)

end TraceSearch.Decimal
