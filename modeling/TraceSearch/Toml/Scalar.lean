import TraceSearch.Decimal.Real
import TraceSearch.Duration.Basic
import TraceSearch.Json.Basic
import TraceSearch.Text.Reader
import TraceSearch.Toml.Moment

/-!
# Numbers and words in TOML

Truth values, integers in four bases, doubles, and moments. A single underscore may stand between
two digits. An integer must fit 64 bits, and a double that is written in digits must be finite.

Source: the numbers and words of toml.
-/

namespace TraceSearch.Toml

open Text (splitSign)

/-- The characters of numbers, words and moments. -/
def isScalarChar (c : Char) : Bool :=
  c.isAlphanum || c == '_' || c == '+' || c == '-' || c == '.' || c == ':'

/-- Digits without the underscores between them. -/
def ungrouped (isDigit : Char → Bool) : List Char → Option (List Char)
  | [] => none
  | [c] => if isDigit c then some [c] else none
  | c :: '_' :: rest => if isDigit c then (ungrouped isDigit rest).map (c :: ·) else none
  | c :: rest => if isDigit c then (ungrouped isDigit rest).map (c :: ·) else none

def readBased (base : Nat) (s : List Char) : Option Int := do
  let ds ← ungrouped (Text.isDigitOf base) s
  return Text.valueInBase base ds

/-- The digits of a whole number; a leading zero stands alone. -/
def readWhole (s : List Char) : Option (List Char) := do
  let ds ← ungrouped Char.isDigit s
  match ds with
  | '0' :: _ :: _ => none
  | ds => some ds

def readInteger (s : List Char) : Option Int :=
  match s with
  | '0' :: 'x' :: rest => readBased 16 rest
  | '0' :: 'o' :: rest => readBased 8 rest
  | '0' :: 'b' :: rest => readBased 2 rest
  | s => do
    let (negative, s) := splitSign s
    return Text.signedInt negative (Decimal.value (← readWhole s))

def readExponent (s : List Char) : Option Int := do
  let (negative, s) := splitSign s
  return Text.signedInt negative (Decimal.value (← ungrouped Char.isDigit s))

def isExponentMark (c : Char) : Bool := c == 'e' || c == 'E'

/-- A double without its sign. -/
def readMagnitude (s : List Char) : Option Float := do
  let mantissa := s.takeWhile fun c => !isExponentMark c
  let exponent ← match s.dropWhile fun c => !isExponentMark c with
    | [] => some 0
    | _ :: rest => readExponent rest
  let whole ← readWhole (mantissa.takeWhile (· != '.'))
  let fraction ← match mantissa.dropWhile (· != '.') with
    | [] => some []
    | _ :: rest => ungrouped Char.isDigit rest
  let x := Decimal.nearestFloat (Decimal.value (whole ++ fraction)) (exponent - fraction.length)
  if Decimal.isInfinite x then none else some x

def readDouble (s : List Char) : Option Float :=
  let (negative, s) := splitSign s
  let magnitude :=
    if s = ['i', 'n', 'f'] then some (1 / 0)
    else if s = ['n', 'a', 'n'] then some (0 / 0)
    else readMagnitude s
  magnitude.map (Decimal.signedFloat negative)

def readScalar (s : List Char) : Option Json :=
  if s = ['t', 'r', 'u', 'e'] then some (.bool true)
  else if s = ['f', 'a', 'l', 's', 'e'] then some (.bool false)
  else
    match readInteger s with
    | some n => if Duration.fits64 n then some (.int n) else none
    | none =>
      match readDouble s with
      | some x => some (.number (.real x))
      | none => (readMoment s).map fun text => .string (String.ofList text)

end TraceSearch.Toml
