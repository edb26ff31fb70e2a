import TraceSearch.Decimal.Real
import TraceSearch.Duration.Basic
import TraceSearch.Json.Basic
import TraceSearch.Text.Blank
import TraceSearch.Text.Hidden
import TraceSearch.Text.Reader

/-!
# The literals of JSON5

Blanks and comments, strings in either kind of quotes, numbers and the names of members. A number
written as an integer is one where it fits 64 bits, and everything else is a double.

Source: json5, with which config reads files ending in .json5.
-/

namespace TraceSearch.Json5

open Text (Reader after? readCode splitSign signedInt)

def endsLine (c : Char) : Bool := c == '\n' || c == '\r' || c == '\u2028' || c == '\u2029'

def isBlank (c : Char) : Bool := (Text.isBlank c && c != '\x85') || c == '\ufeff'

/-- What follows the end of a comment between slashes and asterisks. -/
def afterComment? : List Char → Option (List Char)
  | [] => none
  | '*' :: '/' :: rest => some rest
  | _ :: rest => afterComment? rest

/-- A text without the blanks and comments at its start; the number bounds the comments. -/
def skipComments : Nat → List Char → List Char
  | 0, s => s
  | bound + 1, s =>
    match s.dropWhile isBlank with
    | '/' :: '/' :: rest => skipComments bound (rest.dropWhile fun c => !endsLine c)
    | '/' :: '*' :: rest =>
      match afterComment? rest with
      | some rest => skipComments bound rest
      | none => '/' :: '*' :: rest
    | s => s

/-- A text without the blanks and comments at its start. -/
def skipGap (s : List Char) : List Char := skipComments (s.length + 1) s

/-- The character of an escape of one letter: any letter without a meaning stands for itself. -/
def escaped? (c : Char) : Option Char :=
  if c = 'b' then some '\x08'
  else if c = 'f' then some '\x0c'
  else if c = 'n' then some '\n'
  else if c = 'r' then some '\r'
  else if c = 't' then some '\t'
  else if c = 'v' then some '\x0b'
  else if c.isDigit then none
  else some c

/-- The characters of four hexadecimal digits, or of two such groups that form a pair. -/
def readUnits (s : List Char) : Option (Char × List Char) := do
  let unit ← if (s.take 4).length < 4 then none else Text.hexNumber? (s.take 4)
  if Json.isLeading unit then do
    let rest ← after? ['\\', 'u'] (s.drop 4)
    let next ← if (rest.take 4).length < 4 then none else Text.hexNumber? (rest.take 4)
    if Json.isTrailing next then some (Json.pairChar unit next, rest.drop 4) else none
  else (Text.charOfCode? unit).map fun c => (c, s.drop 4)

/-- An escape after its backslash. One at the end of a line stands for nothing. -/
def readEscape : Reader (List Char)
  | '\r' :: '\n' :: rest => some ([], rest)
  | 'x' :: rest => (readCode 2 rest).map fun (c, rest) => ([c], rest)
  | 'u' :: rest => (readUnits rest).map fun (c, rest) => ([c], rest)
  | '0' :: rest => if rest.head?.any Char.isDigit then none else some (['\x00'], rest)
  | c :: rest => if endsLine c then some ([], rest) else (escaped? c).map fun e => ([e], rest)
  | [] => none

/-- The rest of a string after its opening quote; `before` is what has been read, last first, and
the number bounds the characters. -/
def readStringRest (quote : Char) : Nat → List Char → Reader String
  | 0, _, _ => none
  | bound + 1, before, '\\' :: rest =>
    match readEscape rest with
    | some (chars, rest) => readStringRest quote bound (chars ++ before) rest
    | none => none
  | bound + 1, before, c :: rest =>
    if c = quote then some (String.ofList before.reverse, rest)
    else if endsLine c then none
    else readStringRest quote bound (c :: before) rest
  | _ + 1, _, [] => none

def readString : Reader String
  | '"' :: rest => readStringRest '"' (rest.length + 1) [] rest
  | '\'' :: rest => readStringRest '\'' (rest.length + 1) [] rest
  | _ => none

/-- The characters a name may begin with; beyond ASCII these are all that show. -/
def startsName (c : Char) : Bool :=
  c.isAlpha || c == '_' || c == '$' || (0x7F < c.toNat && !Text.isHidden c)

def isNameChar (c : Char) : Bool :=
  startsName c || c.isDigit || (0x7F < c.toNat && !Text.isBlank c)

/-- The characters of a name; the number bounds them. -/
def readNameChars (accepts : Char → Bool) : Nat → List Char → List Char → List Char × List Char
  | 0, before, s => (before.reverse, s)
  | bound + 1, before, '\\' :: 'u' :: rest =>
    match readCode 4 rest with
    | some (c, rest) => readNameChars isNameChar bound (c :: before) rest
    | none => (before.reverse, '\\' :: 'u' :: rest)
  | bound + 1, before, c :: rest =>
    if accepts c then readNameChars isNameChar bound (c :: before) rest
    else (before.reverse, c :: rest)
  | _ + 1, before, [] => (before.reverse, [])

/-- The name of a member, bare or in quotes. -/
def readName (s : List Char) : Option (String × List Char) :=
  match readString s with
  | some name => some name
  | none =>
    match readNameChars startsName (s.length + 1) [] s with
    | ([], _) => none
    | (name, rest) => some (String.ofList name, rest)

/-- An exponent, if there is one. -/
def readExponent (s : List Char) : Option (Option Int × List Char) :=
  match s with
  | e :: rest =>
    if e = 'e' ∨ e = 'E' then
      let (negative, rest) := splitSign rest
      match Decimal.splitDigits rest with
      | ([], _) => none
      | (ds, rest) => some (some (signedInt negative (Decimal.value ds)), rest)
    else some (none, s)
  | [] => some (none, [])

/-- A fraction, if there is one. -/
def readFraction : List Char → Option (List Char) × List Char
  | '.' :: rest =>
    let (ds, rest) := Decimal.splitDigits rest
    (some ds, rest)
  | s => (none, s)

/-- The number of an integer: a double where it does not fit 64 bits. -/
def ofInt (n : Int) : Json :=
  if Duration.fits64 n then .int n else .number (.real (Decimal.floatOfInt n))

/-- A number in decimal digits under a sign; a leading zero stands alone. -/
def readDecimal (negative : Bool) (s : List Char) : Option (Json × List Char) := do
  let (whole, rest) := match s with
    | '0' :: rest => (['0'], rest)
    | s => Decimal.splitDigits s
  let (fraction, rest) := readFraction rest
  let ds := whole ++ fraction.getD []
  if ds.isEmpty then none
  let (exponent, rest) ← readExponent rest
  if fraction.isNone && exponent.isNone then
    some (ofInt (signedInt negative (Decimal.value whole)), rest)
  else
    let scale : Int := exponent.getD 0 - (fraction.getD []).length
    let x := Decimal.signedFloat negative (Decimal.nearestFloat (Decimal.value ds) scale)
    some (.number (.real x), rest)

def readHexadecimal (negative : Bool) (s : List Char) : Option (Json × List Char) :=
  match s.takeWhile (Text.isDigitOf 16) with
  | [] => none
  | ds => some (ofInt (signedInt negative (Text.valueInBase 16 ds)), s.drop ds.length)

def readNumber (s : List Char) : Option (Json × List Char) :=
  let (negative, s) := splitSign s
  let real (x : Float) : Json := .number (.real (Decimal.signedFloat negative x))
  match after? "Infinity".toList s, after? "NaN".toList s, s with
  | some rest, _, _ => some (real (1 / 0), rest)
  | _, some rest, _ => some (real (0 / 0), rest)
  | _, _, '0' :: 'x' :: rest => readHexadecimal negative rest
  | _, _, '0' :: 'X' :: rest => readHexadecimal negative rest
  | _, _, s => readDecimal negative s

end TraceSearch.Json5
