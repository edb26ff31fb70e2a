import TraceSearch.Decimal.Real
import TraceSearch.Json.Basic
import TraceSearch.Text.Reader

/-!
# The literals of RON

Blanks and nested comments, names, strings and characters, and numbers in four bases with
underscores between their digits. An integer must fit 64 bits, with or without a sign.

Source: ron, with which config reads files ending in .ron.
-/

namespace TraceSearch.Ron

open Text (Reader after? readCode splitSign signedInt)

def isBlank (c : Char) : Bool :=
  ('\t' ≤ c && c ≤ '\r') || c == ' ' || c == '\x85' || c == '\u200e' || c == '\u200f' ||
    c == '\u2028' || c == '\u2029'

/-- What follows a comment between slashes and asterisks, in which such comments may nest; the
number counts those that are open. -/
def afterComment? : Nat → List Char → Option (List Char)
  | 0, s => some s
  | _ + 1, [] => none
  | depth + 1, '*' :: '/' :: rest => afterComment? depth rest
  | depth + 1, '/' :: '*' :: rest => afterComment? (depth + 2) rest
  | depth + 1, _ :: rest => afterComment? (depth + 1) rest

/-- A text without the blanks and comments at its start; the number bounds the comments. -/
def skipComments : Nat → List Char → List Char
  | 0, s => s
  | bound + 1, s =>
    match s.dropWhile isBlank with
    | '/' :: '/' :: rest => skipComments bound (rest.dropWhile (· != '\n'))
    | '/' :: '*' :: rest =>
      match afterComment? 1 rest with
      | some rest => skipComments bound rest
      | none => '/' :: '*' :: rest
    | s => s

/-- A text without the blanks and comments at its start. -/
def skipGap (s : List Char) : List Char := skipComments (s.length + 1) s

/-- The characters a name may begin with; beyond ASCII every character but a blank. -/
def startsName (c : Char) : Bool := c.isAlpha || c == '_' || (0x7F < c.toNat && !isBlank c)

def isNameChar (c : Char) : Bool := startsName c || c.isDigit

/-- A name; one that is also a word of the notation may be marked as a name. -/
def readName : Reader String
  | 'r' :: '#' :: c :: rest =>
    if isNameChar c then
      some (String.ofList (c :: rest.takeWhile isNameChar), rest.dropWhile isNameChar)
    else none
  | c :: rest =>
    if startsName c then
      some (String.ofList (c :: rest.takeWhile isNameChar), rest.dropWhile isNameChar)
    else none
  | [] => none

def readEscape : Reader Char
  | '\'' :: rest => some ('\'', rest)
  | '"' :: rest => some ('"', rest)
  | '\\' :: rest => some ('\\', rest)
  | 'n' :: rest => some ('\n', rest)
  | 'r' :: rest => some ('\r', rest)
  | 't' :: rest => some ('\t', rest)
  | '0' :: rest => some ('\x00', rest)
  | 'x' :: rest => readCode 2 rest
  | 'u' :: '\x7b' :: rest =>
    let ds := rest.takeWhile (Text.isDigitOf 16)
    match rest.drop ds.length with
    | '\x7d' :: rest =>
      if 1 ≤ ds.length ∧ ds.length ≤ 6 then (Text.charOfHex? ds).map fun c => (c, rest) else none
    | _ => none
  | _ => none

/-- The rest of a string after its opening quote; `before` is what has been read, last first, and
the number bounds the characters. -/
def readStringRest : Nat → List Char → Reader String
  | 0, _, _ => none
  | _ + 1, before, '"' :: rest => some (String.ofList before.reverse, rest)
  | bound + 1, before, '\\' :: rest =>
    match readEscape rest with
    | some (c, rest) => readStringRest bound (c :: before) rest
    | none => none
  | bound + 1, before, c :: rest => readStringRest bound (c :: before) rest
  | _ + 1, _, [] => none

/-- The rest of a string without escapes after its opening quote; `closing` is what ends it. -/
def readRawRest (closing : List Char) : List Char → List Char → Option (String × List Char)
  | _, [] => none
  | before, c :: rest =>
    match after? closing (c :: rest) with
    | some rest => some (String.ofList before.reverse, rest)
    | none => readRawRest closing (c :: before) rest

def readString : Reader String
  | '"' :: rest => readStringRest (rest.length + 1) [] rest
  | 'r' :: rest =>
    let marks := rest.takeWhile (· == '#')
    match rest.drop marks.length with
    | '"' :: rest => readRawRest ('"' :: marks) [] rest
    | _ => none
  | _ => none

def readChar : Reader Char
  | '\'' :: '\\' :: rest =>
    match readEscape rest with
    | some (c, '\'' :: rest) => some (c, rest)
    | _ => none
  | '\'' :: c :: '\'' :: rest => some (c, rest)
  | _ => none

/-- The digits of a base with underscores among them, which do not count. -/
def splitGrouped (base : Nat) (s : List Char) : List Char × List Char :=
  let accepts (c : Char) : Bool := Text.isDigitOf base c || c == '_'
  ((s.takeWhile accepts).filter (· != '_'), s.dropWhile accepts)

/-- The number of an integer that fits 64 bits. -/
def ofInt (n : Int) : Option Json :=
  if -9223372036854775808 ≤ n ∧ n ≤ 18446744073709551615 then some (.int n) else none

def readBased (base : Nat) (negative : Bool) (s : List Char) : Option (Json × List Char) :=
  match splitGrouped base s with
  | ([], _) => none
  | (ds, rest) =>
    (ofInt (signedInt negative (Text.valueInBase base ds))).map fun j => (j, rest)

/-- An exponent, if there is one. -/
def readExponent (s : List Char) : Option (Option Int × List Char) :=
  match s with
  | e :: rest =>
    if e = 'e' ∨ e = 'E' then
      let (negative, rest) := splitSign rest
      match splitGrouped 10 rest with
      | ([], _) => none
      | (ds, rest) => some (some (signedInt negative (Decimal.value ds)), rest)
    else some (none, s)
  | [] => some (none, [])

/-- A fraction, if there is one. -/
def readFraction : List Char → Option (List Char) × List Char
  | '.' :: rest =>
    let (ds, rest) := splitGrouped 10 rest
    (some ds, rest)
  | s => (none, s)

def readDecimal (negative : Bool) (s : List Char) : Option (Json × List Char) := do
  let (whole, rest) := splitGrouped 10 s
  let (fraction, rest) := readFraction rest
  let ds := whole ++ fraction.getD []
  if ds.isEmpty then none
  let (exponent, rest) ← readExponent rest
  if fraction.isNone && exponent.isNone then
    (ofInt (signedInt negative (Decimal.value whole))).map fun j => (j, rest)
  else
    let scale : Int := exponent.getD 0 - (fraction.getD []).length
    let x := Decimal.signedFloat negative (Decimal.nearestFloat (Decimal.value ds) scale)
    some (.number (.real x), rest)

def readNumber (s : List Char) : Option (Json × List Char) :=
  let (negative, s) := splitSign s
  let real (x : Float) : Json := .number (.real (Decimal.signedFloat negative x))
  match after? ['i', 'n', 'f'] s, after? ['N', 'a', 'N'] s, s with
  | some rest, _, _ => some (real (1 / 0), rest)
  | _, some rest, _ => some (real (0 / 0), rest)
  | _, _, '0' :: 'x' :: rest => readBased 16 negative rest
  | _, _, '0' :: 'o' :: rest => readBased 8 negative rest
  | _, _, '0' :: 'b' :: rest => readBased 2 negative rest
  | _, _, s => readDecimal negative s

end TraceSearch.Ron
