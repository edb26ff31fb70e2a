import TraceSearch.Decimal.Digits
import TraceSearch.Decimal.Shortest

/-!
# Writing doubles

A double is written with the shortest digits that read back, laid out by a record of decisions: the
range of leading exponents written without an exponent part, and what marks a whole number. Two
records are in use, one for text shown to a reader and one for documents.

Source: `AnyValue::fmt`; the standard library's printing of f64, and ryu's, which serde_json prints
with.
-/

namespace TraceSearch.Decimal

/-- The decisions of a notation for doubles. -/
structure Layout where
  /-- The leading exponents written positionally. -/
  positional : Int → Bool
  /-- What follows a whole number written positionally. -/
  wholeMark : List Char

/-- Plain text: never an exponent part, and no point after a whole number. -/
def Layout.plain : Layout := ⟨fun _ => true, []⟩

/-- Documents: an exponent part from `10 ^ 16` on and below `10 ^ -5`, and a point in every number
without one. -/
def Layout.document : Layout := ⟨fun e => -5 ≤ e && e < 16, ['.', '0']⟩

def positionalText (l : Layout) (x : Scaled) : List Char :=
  let ds := digits x.significand
  let point := ds.length + x.exponent
  if 0 ≤ x.exponent then ds ++ List.replicate x.exponent.toNat '0' ++ l.wholeMark
  else if 0 < point then ds.take point.toNat ++ '.' :: ds.drop point.toNat
  else ['0', '.'] ++ List.replicate (-point).toNat '0' ++ ds

/-- A positive decimal with an exponent part, one digit before the point. -/
def exponentText (x : Scaled) : List Char :=
  let ds := digits x.significand
  let leading := ds.length - 1 + x.exponent
  ds.take 1 ++ (if ds.length = 1 then [] else '.' :: ds.drop 1) ++
    ['e', if leading < 0 then '-' else '+'] ++ digits leading.natAbs

def scaledText (l : Layout) (x : Scaled) : List Char :=
  if l.positional ((digits x.significand).length - 1 + x.exponent) then positionalText l x
  else exponentText x

def floatText (l : Layout) (x : Float) : List Char :=
  if isNaN x then ['N', 'a', 'N']
  else
    (if isNegative x then ['-'] else []) ++
      if isInfinite x then ['i', 'n', 'f']
      else if magnitude x = 0 then '0' :: l.wholeMark
      else scaledText l (shortest (Binary.ofMagnitude (magnitude x)))

def plainText (x : Float) : List Char := floatText .plain x

def documentText (x : Float) : List Char := floatText .document x

end TraceSearch.Decimal
