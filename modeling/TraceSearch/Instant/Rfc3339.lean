import TraceSearch.Decimal.Digits
import TraceSearch.Instant.Basic
import TraceSearch.Instant.Calendar

/-!
# RFC 3339 timestamps

Reading and writing instants as `2024-01-01T12:00:00.5+02:00`. The text is read from the left, and
the first fault decides the error: the date, the time of day and the offset are each checked for
range when their turn comes. A second of 60 is a leap second at any time of day. Instants are
written in UTC, with the fewest of 0, 3, 6 or 9 fraction digits that are exact.

Source: `parse_timestamp`; chrono's `parse_from_rfc3339` and `to_rfc3339`, in the order of their
checks.
-/

namespace TraceSearch

namespace Instant

/-- Why a timestamp is refused. -/
inductive TimestampError where
  | tooShort
  | invalid
  | outOfRange
  | tooLong
deriving DecidableEq

def TimestampError.message : TimestampError → String
  | tooShort => "premature end of input"
  | invalid => "input contains invalid characters"
  | outOfRange => "input is out of range"
  | tooLong => "trailing input"

/-- A run of exactly `n` digits. -/
def readDigits (n : Nat) (s : List Char) : Except TimestampError (Nat × List Char) :=
  let ds := s.take n
  if ds.length = n ∧ ds.all Char.isDigit then .ok (Decimal.value ds, s.drop n) else .error .invalid

def readMark (accepts : Char → Bool) : List Char → Except TimestampError (Unit × List Char)
  | c :: rest => if accepts c then .ok ((), rest) else .error .invalid
  | [] => .error .invalid

def readDate (s : List Char) : Except TimestampError (Date × List Char) := do
  let (year, s) ← readDigits 4 s
  let ((), s) ← readMark (· == '-') s
  let (month, s) ← readDigits 2 s
  let ((), s) ← readMark (· == '-') s
  let (day, s) ← readDigits 2 s
  let date : Date := ⟨year, month, day⟩
  if date.isValid then .ok (date, s) else .error .outOfRange

/-- A fraction of a second in nanoseconds. Digits past the ninth are dropped, and a point without a
digit is a fault. -/
def readFraction : List Char → Except TimestampError (Nat × List Char)
  | '.' :: rest =>
    let (ds, after) := Decimal.splitDigits rest
    match ds, after with
    | [], [] => .error .tooShort
    | [], _ => .error .invalid
    | ds, after =>
      let kept := ds.take 9
      .ok (Decimal.value kept * Decimal.powerOfTen (9 - kept.length), after)
  | s => .ok (0, s)

/-- Two digits of an offset; the first must be at most `greatest`. -/
def readPair (greatest : Char) : List Char → Except TimestampError (Nat × List Char)
  | a :: b :: rest =>
    if a.isDigit && b.isDigit then
      if a ≤ greatest then .ok (Decimal.value [a, b], rest) else .error .outOfRange
    else .error .invalid
  | [c] => if c.utf8Size < 2 then .error .tooShort else .error .invalid
  | [] => .error .tooShort

def readColon : List Char → Except TimestampError (Unit × List Char)
  | ':' :: rest => .ok ((), rest)
  | _ :: _ => .error .invalid
  | [] => .error .tooShort

/-- The sign of an offset, true for west of UTC; the minus may be a hyphen or U+2212. -/
def readSign : List Char → Except TimestampError (Bool × List Char)
  | '+' :: rest => .ok (false, rest)
  | '-' :: rest => .ok (true, rest)
  | '\u2212' :: rest => .ok (true, rest)
  | _ :: _ => .error .invalid
  | [] => .error .tooShort

/-- An offset from UTC in seconds. -/
def readOffset (s : List Char) : Except TimestampError (Int × List Char) :=
  match s with
  | 'Z' :: rest => .ok (0, rest)
  | 'z' :: rest => .ok (0, rest)
  | _ => do
    let (west, s) ← readSign s
    let (hours, s) ← readPair '9' s
    let ((), s) ← readColon s
    let (minutes, s) ← readPair '5' s
    let seconds : Int := hours * 3600 + minutes * 60
    .ok (if west then -seconds else seconds, s)

def ofRfc3339 (text : String) : Except TimestampError Instant := do
  if text.utf8ByteSize < 19 then .error .tooShort
  let (date, s) ← readDate text.toList
  let ((), s) ← readMark (fun c => c == 'T' || c == 't' || c == ' ') s
  let (hour, s) ← readDigits 2 s
  let ((), s) ← readMark (· == ':') s
  let (minute, s) ← readDigits 2 s
  let ((), s) ← readMark (· == ':') s
  let (second, s) ← readDigits 2 s
  let (fraction, s) ← readFraction s
  if 23 < hour ∨ 59 < minute ∨ 60 < second then .error .outOfRange
  let (offset, s) ← readOffset s
  if s ≠ [] then .error .tooLong
  if 86400 ≤ offset.natAbs then .error .outOfRange
  let (second, nanos) := if second = 60 then (59, fraction + 1000000000) else (second, fraction)
  .ok ⟨date.toDays * 86400 + (hour * 3600 + minute * 60 + second : Nat) - offset, nanos⟩

/-- A fraction of a second, with its point, in the fewest of 0, 3, 6 or 9 digits that are exact. -/
def fractionText (nanos : Nat) : List Char :=
  if nanos = 0 then []
  else if nanos % 1000000 = 0 then '.' :: Decimal.padded 3 (nanos / 1000000)
  else if nanos % 1000 = 0 then '.' :: Decimal.padded 6 (nanos / 1000)
  else '.' :: Decimal.padded 9 nanos

/-- A year in at least four digits, with a sign outside 0 to 9999. -/
def yearText (year : Int) : List Char :=
  if year < 0 then '-' :: Decimal.padded 4 year.natAbs
  else if 9999 < year then '+' :: Decimal.padded 5 year.natAbs
  else Decimal.padded 4 year.natAbs

/-- An instant as a timestamp in UTC. -/
def rfc3339 (t : Instant) : String :=
  let date := Date.ofDays (t.seconds / 86400)
  let secondOfDay := (t.seconds % 86400).toNat
  let leap := if 1000000000 ≤ t.nanos then 1 else 0
  String.ofList <|
    yearText date.year ++ ['-'] ++ Decimal.padded 2 date.month ++ ['-'] ++
      Decimal.padded 2 date.day ++ ['T'] ++ Decimal.padded 2 (secondOfDay / 3600) ++ [':'] ++
      Decimal.padded 2 (secondOfDay / 60 % 60) ++ [':'] ++
      Decimal.padded 2 (secondOfDay % 60 + leap) ++ fractionText (t.nanos % 1000000000) ++
      ['+', '0', '0', ':', '0', '0']

end Instant

end TraceSearch
