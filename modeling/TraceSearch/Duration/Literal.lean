import TraceSearch.Decimal.Digits
import TraceSearch.Duration.Basic
import TraceSearch.Text.Quoted

/-!
# Duration literals

A literal such as `300ms`, `1.5s` or `-2h45m` is an optional sign followed by groups, each a decimal
number with a unit; `0` needs no unit. A group counts whole nanoseconds, so a fraction is rounded
down, and only its first 18 digits count. Groups are read from the left and the first faulty one
decides the error.

Source: `parse_duration`, `split_digits` and `unit_scale`.
-/

namespace TraceSearch

/-- The units a literal may name. -/
inductive TimeUnit where
  | nanosecond | microsecond | millisecond | second | minute | hour
deriving DecidableEq

namespace TimeUnit

def nanoseconds : TimeUnit → Nat
  | nanosecond => 1
  | microsecond => 1000
  | millisecond => 1000000
  | second => 1000000000
  | minute => 60 * 1000000000
  | hour => 60 * 60 * 1000000000

/-- The unit a symbol names. Microseconds may be written with `u`, the micro sign U+00B5 or the
Greek letter U+03BC. -/
def ofSymbol? (symbol : List Char) : Option TimeUnit :=
  if symbol = ['n', 's'] then some nanosecond
  else if symbol = ['u', 's'] ∨ symbol = ['\u00b5', 's'] ∨ symbol = ['\u03bc', 's'] then
    some microsecond
  else if symbol = ['m', 's'] then some millisecond
  else if symbol = ['s'] then some second
  else if symbol = ['m'] then some minute
  else if symbol = ['h'] then some hour
  else none

end TimeUnit

namespace Duration

/-- What is wrong with a group of a literal. -/
inductive Fault where
  | noNumber
  | noUnit
  | unknownUnit (symbol : String)
  | outOfRange
deriving DecidableEq

/-- Why a literal is refused. Every refusal but that of the empty text keeps the literal. -/
inductive LiteralError where
  | empty
  | faulty (fault : Fault) (literal : String)
deriving DecidableEq

def LiteralError.message : LiteralError → String
  | empty => "empty duration literal"
  | faulty .noNumber literal => "invalid duration " ++ Text.quoted literal
  | faulty .noUnit literal => "missing unit in duration " ++ Text.quoted literal
  | faulty (.unknownUnit symbol) literal =>
    "unknown unit " ++ Text.quoted symbol ++ " in duration " ++ Text.quoted literal
  | faulty .outOfRange literal => "duration " ++ Text.quoted literal ++ " is out of range"

/-- One number with its unit, as written. -/
structure Group where
  whole : List Char
  fraction : List Char
  unit : TimeUnit

namespace Group

/-- How many digits of a fraction count. -/
def precision : Nat := 18

/-- The digits of the fraction that count. -/
def significant (g : Group) : List Char := g.fraction.take precision

def nanoseconds (g : Group) : Nat :=
  Decimal.value g.whole * g.unit.nanoseconds +
    Decimal.value g.significant * g.unit.nanoseconds / Decimal.powerOfTen g.significant.length

end Group

/-- The characters of a unit: all but digits and the point. -/
def isSymbolChar (c : Char) : Bool := !(c == '.' || c.isDigit)

/-- The fraction that follows a whole part, if a point does. -/
def splitFraction : List Char → List Char × List Char
  | '.' :: rest => Decimal.splitDigits rest
  | s => ([], s)

/-- The group at the start of a text, and what follows it. -/
def readGroup (s : List Char) : Except Fault (Group × List Char) :=
  let (whole, afterWhole) := Decimal.splitDigits s
  let (fraction, afterNumber) := splitFraction afterWhole
  let symbol := afterNumber.takeWhile isSymbolChar
  if whole.isEmpty && fraction.isEmpty then .error .noNumber
  else if symbol.isEmpty then .error .noUnit
  else
    match TimeUnit.ofSymbol? symbol with
    | none => .error (.unknownUnit (String.ofList symbol))
    | some unit => .ok (⟨whole, fraction, unit⟩, afterNumber.dropWhile isSymbolChar)

/-- The nanoseconds of the groups of a text added to `total`, which may not pass `limit` after any
of them. The first argument bounds the number of groups. -/
def addGroups (limit : Nat) : Nat → Nat → List Char → Except Fault Nat
  | _, total, [] => .ok total
  | 0, total, _ => .ok total
  | bound + 1, total, s =>
    match readGroup s with
    | .error fault => .error fault
    | .ok (group, rest) =>
      let total := total + group.nanoseconds
      if limit < total then .error .outOfRange else addGroups limit bound total rest

/-- The sign of a literal, true for a minus, and what follows it. -/
def splitSign : List Char → Bool × List Char
  | '-' :: rest => (true, rest)
  | '+' :: rest => (false, rest)
  | s => (false, s)

/-- The greatest number of nanoseconds a literal of either sign may denote. -/
def magnitudeLimit (negative : Bool) : Nat :=
  if negative then 9223372036854775808 else 9223372036854775807

def signed (negative : Bool) (magnitude : Nat) : Duration :=
  ⟨if negative then -magnitude else magnitude⟩

def readMagnitude (negative : Bool) (s : List Char) : Except Fault Nat :=
  if s = ['0'] then .ok 0
  else if s = [] then .error .noNumber
  else addGroups (magnitudeLimit negative) s.length 0 s

def ofLiteral (literal : String) : Except LiteralError Duration :=
  match literal.toList with
  | [] => .error .empty
  | s =>
    let (negative, body) := splitSign s
    match readMagnitude negative body with
    | .error fault => .error (.faulty fault literal)
    | .ok magnitude => .ok (signed negative magnitude)

end Duration

end TraceSearch
