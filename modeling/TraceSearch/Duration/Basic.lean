/-!
# Durations

A duration is a signed count of nanoseconds. Three bounds matter: literals and span lengths stay
within 64-bit nanoseconds, and a duration of any other origin within 64-bit milliseconds. Narrower
counts (`milliseconds`, `microseconds`) round toward zero.

Source: `Span::duration`; chrono's `TimeDelta` with its bounds, `num_milliseconds` and
`num_microseconds`.
-/

namespace TraceSearch

/-- A signed length of time. -/
structure Duration where
  nanoseconds : Int
deriving DecidableEq, Inhabited

namespace Duration

/-- The least 64-bit signed integer. -/
def least64 : Int := -9223372036854775808

/-- The greatest 64-bit signed integer. -/
def greatest64 : Int := 9223372036854775807

/-- Membership in the 64-bit signed integers. -/
def fits64 (n : Int) : Bool := decide (least64 ≤ n ∧ n ≤ greatest64)

/-- The nearest 64-bit signed integer. -/
def clamp64 (n : Int) : Int := max least64 (min greatest64 n)

def zero : Duration := ⟨0⟩

instance : LE Duration := ⟨fun a b => a.nanoseconds ≤ b.nanoseconds⟩

instance : LT Duration := ⟨fun a b => a.nanoseconds < b.nanoseconds⟩

instance (a b : Duration) : Decidable (a ≤ b) :=
  inferInstanceAs (Decidable (a.nanoseconds ≤ b.nanoseconds))

instance (a b : Duration) : Decidable (a < b) :=
  inferInstanceAs (Decidable (a.nanoseconds < b.nanoseconds))

/-- Whole milliseconds, rounded toward zero. -/
def milliseconds (d : Duration) : Int := d.nanoseconds.tdiv 1000000

/-- Whole microseconds, rounded toward zero. -/
def microseconds (d : Duration) : Int := d.nanoseconds.tdiv 1000

/-- The durations a clock can express: at most `2 ^ 63 - 1` milliseconds either way. -/
def inRange (d : Duration) : Bool := decide ((d.nanoseconds.natAbs : Int) ≤ greatest64 * 1000000)

/-- `seconds` plus `nanos` nanoseconds, where `nanos` is less than a second and the sum is a
duration a clock can express. -/
def ofParts? (seconds : Int) (nanos : Nat) : Option Duration :=
  if nanos < 1000000000 then
    let d : Duration := ⟨seconds * 1000000000 + nanos⟩
    if d.inRange then some d else none
  else none

theorem fits64_clamp64 (n : Int) : fits64 (clamp64 n) = true := by
  refine decide_eq_true ?_
  simp only [clamp64, greatest64, least64]
  omega

end Duration

end TraceSearch
