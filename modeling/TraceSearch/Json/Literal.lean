import TraceSearch.Decimal.Arithmetic
import TraceSearch.Decimal.Real
import TraceSearch.Json.Error

/-!
# The literals of a document

Strings, numbers and words as they are spelled in a document. Each reader takes the text from the
first character of the literal and returns what follows it. A literal that is skipped rather than
kept is checked for form alone: the escapes of a skipped string need not pair up, and a skipped
number may have any size.

Source: `parse_str`, `parse_escape`, `parse_any_number` and `f64_from_parts` of serde_json.
-/

namespace TraceSearch.Json

def isBlank (c : Char) : Bool := c == ' ' || c == '\t' || c == '\n' || c == '\r'

/-- A text from its first character that is not blank. -/
def skipBlank (s : List Char) : List Char := s.dropWhile isBlank

/-- The rest of a word whose first letter has been read. -/
def readWord : List Char → List Char → Except Error (List Char)
  | [], rest => .ok rest
  | _ :: _, [] => .error .truncated
  | letter :: letters, c :: rest => if c = letter then readWord letters rest else .error .malformed

def hexValue? (c : Char) : Option Nat :=
  if '0' ≤ c ∧ c ≤ '9' then some (c.toNat - 48)
  else if 'a' ≤ c ∧ c ≤ 'f' then some (c.toNat - 87)
  else if 'A' ≤ c ∧ c ≤ 'F' then some (c.toNat - 55)
  else none

def codeUnit? (a b c d : Char) : Option Nat := do
  let a ← hexValue? a
  let b ← hexValue? b
  let c ← hexValue? c
  let d ← hexValue? d
  return ((a * 16 + b) * 16 + c) * 16 + d

/-- The error of an escape with fewer than four characters after it: the text ends early unless what
is left is four bytes long. -/
def shortEscape (rest : List Char) : Error :=
  if (rest.foldl (fun size c => size + c.utf8Size) 0) < 4 then .truncated else .malformed

def escaped? (c : Char) : Option Char :=
  if c = '"' ∨ c = '\\' ∨ c = '/' then some c
  else if c = 'b' then some '\x08'
  else if c = 'f' then some '\x0c'
  else if c = 'n' then some '\n'
  else if c = 'r' then some '\r'
  else if c = 't' then some '\t'
  else none

def isLeading (unit : Nat) : Bool := 0xD800 ≤ unit && unit ≤ 0xDBFF

def isTrailing (unit : Nat) : Bool := 0xDC00 ≤ unit && unit ≤ 0xDFFF

def pairChar (leading trailing : Nat) : Char :=
  Char.ofNat (0x10000 + (leading - 0xD800) * 1024 + (trailing - 0xDC00))

/-- The rest of a string after its opening quote; `before` is what has been read, last first. A kept
string may not hold an unpaired code unit. -/
def readStringRest (kept : Bool) (before : List Char) :
    List Char → Except Error (String × List Char)
  | [] => .error .truncated
  | '"' :: rest => .ok (String.ofList before.reverse, rest)
  | '\\' :: 'u' :: a :: b :: c :: d :: rest =>
    match codeUnit? a b c d with
    | none => .error .malformed
    | some unit =>
      if kept && isLeading unit then
        match rest with
        | '\\' :: 'u' :: e :: f :: g :: h :: rest =>
          match codeUnit? e f g h with
          | none => .error .malformed
          | some next =>
            if isTrailing next then readStringRest kept (pairChar unit next :: before) rest
            else .error .malformed
        | '\\' :: 'u' :: rest => .error (shortEscape rest)
        | ['\\'] => .error .truncated
        | [] => .error .truncated
        | _ => .error .malformed
      else if kept && isTrailing unit then .error .malformed
      else readStringRest kept (Char.ofNat unit :: before) rest
  | '\\' :: 'u' :: rest => .error (shortEscape rest)
  | '\\' :: c :: rest =>
    match escaped? c with
    | some e => readStringRest kept (e :: before) rest
    | none => .error .malformed
  | ['\\'] => .error .truncated
  | c :: rest => if c < ' ' then .error .malformed else readStringRest kept (c :: before) rest

/-- A number as written: sign, whole part, fraction and exponent. -/
structure NumberLiteral where
  negative : Bool
  whole : List Char
  fraction : Option (List Char)
  exponent : Option (Bool × List Char)

/-- The digits appended to a significand as long as it fits 64 bits, and how many of them do. -/
def appendDigits (significand : Nat) : List Char → Nat × Nat
  | [] => (significand, 0)
  | d :: ds =>
    let longer := significand * 10 + Decimal.value [d]
    if longer ≤ Decimal.greatestUnsigned64 then
      let (last, taken) := appendDigits longer ds
      (last, taken + 1)
    else (significand, 0)

namespace NumberLiteral

/-- The exponent that a literal states. -/
def power (l : NumberLiteral) : Int :=
  match l.exponent with
  | none => 0
  | some (false, ds) => Decimal.value ds
  | some (true, ds) => -Decimal.value ds

/-- What is kept of a literal: digits as far as 64 bits hold them. Of the rest, digits in front of
the point count as zeros and those behind it are ignored. -/
def decimal (l : NumberLiteral) : Decimal.Scaled :=
  let (front, taken) := appendDigits 0 l.whole
  let (significand, placed) := appendDigits front (l.fraction.getD [])
  ⟨significand, l.power + (l.whole.length - taken : Nat) - placed⟩

/-- The double a literal is read as, unless it is out of range. -/
def toFloat? (l : NumberLiteral) : Option Float :=
  l.decimal.magnitude?.map fun bits =>
    Decimal.signedFloat l.negative (Decimal.floatOfMagnitude bits)

def isInteger (l : NumberLiteral) : Bool := l.fraction.isNone && l.exponent.isNone

/-- The number of a literal: an integer if it is written as one and fits 64 bits, negative zero
excepted, and a double otherwise. -/
def toNumber? (l : NumberLiteral) : Option Number :=
  let size := Decimal.value l.whole
  if l.isInteger && !l.negative && Decimal.Range.unsigned64.contains size then
    some (.integer size)
  else if l.isInteger && l.negative && 0 < size && Decimal.Range.signed64.contains (-size) then
    some (.integer (-size))
  else l.toFloat?.map .real

end NumberLiteral

def readDigits (s : List Char) : Except Error (List Char × List Char) :=
  match Decimal.splitDigits s with
  | ([], []) => .error .truncated
  | ([], _) => .error .malformed
  | (ds, rest) => .ok (ds, rest)

/-- The whole part of a number; a zero stands alone. -/
def readWhole (s : List Char) : Except Error (List Char × List Char) :=
  match readDigits s with
  | .error e => .error e
  | .ok ('0' :: _ :: _, _) => .error .malformed
  | .ok r => .ok r

/-- The fraction of a number, if it has one. -/
def readFraction : List Char → Except Error (Option (List Char) × List Char)
  | '.' :: rest =>
    match readDigits rest with
    | .error e => .error e
    | .ok (ds, rest) => .ok (some ds, rest)
  | s => .ok (none, s)

/-- The exponent of a number, if it has one: its sign, true for a minus, and its digits. -/
def readExponent : List Char → Except Error (Option (Bool × List Char) × List Char)
  | c :: rest =>
    if c = 'e' ∨ c = 'E' then
      let (negative, rest) := match rest with
        | '-' :: rest => (true, rest)
        | '+' :: rest => (false, rest)
        | rest => (false, rest)
      match readDigits rest with
      | .error e => .error e
      | .ok (ds, rest) => .ok (some (negative, ds), rest)
    else .ok (none, c :: rest)
  | [] => .ok (none, [])

/-- The sign of a number, true for a minus. -/
def splitMinus : List Char → Bool × List Char
  | '-' :: rest => (true, rest)
  | s => (false, s)

def readNumberLiteral (s : List Char) : Except Error (NumberLiteral × List Char) := do
  let (negative, s) := splitMinus s
  let (whole, s) ← readWhole s
  let (fraction, s) ← readFraction s
  let (exponent, s) ← readExponent s
  return (⟨negative, whole, fraction, exponent⟩, s)

/-- A number; a kept one must be in range. A skipped number that is cut off counts as malformed. -/
def readNumber (kept : Bool) (s : List Char) : Except Error (Number × List Char) :=
  match readNumberLiteral s with
  | .error e => .error (if kept then e else .malformed)
  | .ok (l, rest) =>
    match l.toNumber? with
    | some n => .ok (n, rest)
    | none => if kept then .error .malformed else .ok (.integer 0, rest)

end TraceSearch.Json
