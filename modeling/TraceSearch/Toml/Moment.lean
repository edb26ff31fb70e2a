import TraceSearch.Decimal.Digits
import TraceSearch.Instant.Calendar

/-!
# Dates and times in TOML

A date, a time of day, or both with an optional offset. Such a value is only ever used as text, so
it is checked and brought into one spelling: a capital `T` between date and time, a capital `Z` for
UTC, and a fraction of at most nine digits without zeros at its end, but not without a digit. The
seconds may be left out, and then so is the fraction.

Source: the dates and times of toml.
-/

namespace TraceSearch.Toml

/-- Exactly `n` digits with the number they spell. -/
def readFixedDigits (n : Nat) (s : List Char) : Option (Nat × List Char) :=
  let ds := s.take n
  if ds.length = n ∧ ds.all Char.isDigit then some (Decimal.value ds, s.drop n) else none

def readMark (mark : Char) : List Char → Option (List Char)
  | c :: rest => if c = mark then some rest else none
  | [] => none

def readDate (s : List Char) : Option (List Char × List Char) := do
  let (year, rest) ← readFixedDigits 4 s
  let rest ← readMark '-' rest
  let (month, rest) ← readFixedDigits 2 rest
  let rest ← readMark '-' rest
  let (day, rest) ← readFixedDigits 2 rest
  let date : Date := ⟨year, month, day⟩
  if date.isValid then some (s.take 10, rest) else none

def readFraction : List Char → Option (List Char × List Char)
  | '.' :: rest =>
    let (ds, rest) := Decimal.splitDigits rest
    let kept := Decimal.dropTrailingZeros (ds.take 9)
    if ds.isEmpty then none else some ('.' :: (if kept.isEmpty then ['0'] else kept), rest)
  | s => some ([], s)

/-- The seconds of a time of day with their colon, if they are given. -/
def readSeconds : List Char → Option (List Char × List Char)
  | ':' :: rest => do
    let (second, after) ← readFixedDigits 2 rest
    let (fraction, after) ← readFraction after
    if second ≤ 60 then some (':' :: rest.take 2 ++ fraction, after) else none
  | s => some ([], s)

def readTime (s : List Char) : Option (List Char × List Char) := do
  let (hour, rest) ← readFixedDigits 2 s
  let rest ← readMark ':' rest
  let (minute, rest) ← readFixedDigits 2 rest
  let (seconds, rest) ← readSeconds rest
  if hour ≤ 23 ∧ minute ≤ 59 then some (s.take 5 ++ seconds, rest) else none

/-- An offset from UTC, if there is one; one of zero is written with a plus. -/
def readOffset : List Char → Option (List Char)
  | [] => some []
  | ['Z'] => some ['Z']
  | ['z'] => some ['Z']
  | sign :: rest => do
    let (hour, after) ← readFixedDigits 2 rest
    let after ← readMark ':' after
    let (minute, after) ← readFixedDigits 2 after
    if after = [] ∧ (sign = '+' ∨ sign = '-') ∧ hour ≤ 23 ∧ minute ≤ 59 then
      some ((if hour = 0 ∧ minute = 0 then '+' else sign) :: rest)
    else none

/-- The one spelling of a date, a time or both. -/
def readMoment (s : List Char) : Option (List Char) :=
  match readTime s with
  | some (time, []) => some time
  | some _ => none
  | none => do
    let (date, rest) ← readDate s
    match rest with
    | [] => some date
    | mark :: rest =>
      if mark = 'T' ∨ mark = 't' ∨ mark = ' ' then do
        let (time, rest) ← readTime rest
        let offset ← readOffset rest
        some (date ++ 'T' :: time ++ offset)
      else none

end TraceSearch.Toml
