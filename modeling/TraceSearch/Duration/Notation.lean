import TraceSearch.Decimal.Digits
import TraceSearch.Duration.Basic

/-!
# Writing durations

A duration is written in the notation of literals: below a second as one group of nanoseconds,
microseconds or milliseconds, from a second on as hours, minutes and seconds, where leading zero
groups are left out. A duration beyond 64-bit nanoseconds is written to the microsecond, and one
beyond 64-bit microseconds as the greatest number of microseconds.

Source: `format_duration` and `fixed_point`.
-/

namespace TraceSearch.Duration

def shownNanoseconds (d : Duration) : Int :=
  if fits64 d.nanoseconds then d.nanoseconds
  else (if fits64 d.microseconds then d.microseconds else greatest64) * 1000

def magnitudeText (n : Nat) : List Char :=
  if n < 1000 then Decimal.digits n ++ ['n', 's']
  else if n < 1000000 then Decimal.fixedPoint n 3 ++ ['\u00b5', 's']
  else if n < 1000000000 then Decimal.fixedPoint n 6 ++ ['m', 's']
  else
    let hours := n / 3600000000000
    let minutes := n / 60000000000 % 60
    (if 0 < hours then Decimal.digits hours ++ ['h'] else []) ++
      (if 0 < hours ∨ 0 < minutes then Decimal.digits minutes ++ ['m'] else []) ++
      Decimal.fixedPoint (n % 60000000000) 9 ++ ['s']

def nanosecondsText (n : Int) : List Char :=
  if n = 0 then ['0', 's']
  else (if n < 0 then ['-'] else []) ++ magnitudeText n.natAbs

/-- A time span that is not negative in a single unit, the greatest that leaves a whole part. -/
def singleUnitText (n : Nat) : List Char :=
  if n < 1000 then Decimal.digits n ++ ['n', 's']
  else if n < 1000000 then Decimal.fixedPoint n 3 ++ ['\u00b5', 's']
  else if n < 1000000000 then Decimal.fixedPoint n 6 ++ ['m', 's']
  else Decimal.fixedPoint n 9 ++ ['s']

def format (d : Duration) : String := String.ofList (nanosecondsText d.shownNanoseconds)

end TraceSearch.Duration
