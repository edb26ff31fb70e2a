import TraceSearch.Duration.Basic

/-!
# Instants

A point in time, as whole seconds since 1970-01-01T00:00:00Z and nanoseconds after that second. In a
leap second the nanoseconds run past one second, so instants are ordered by seconds first and by
nanoseconds second. Main facts: `le_total` and `le_trans`, and `unixNanos_ofUnixNanos`.

Source: `nanos_to_datetime`; the order, the nanoseconds and the differences of chrono's `DateTime`.
-/

namespace TraceSearch

/-- A point in time. -/
structure Instant where
  seconds : Int
  nanos : Nat
deriving DecidableEq, Inhabited

namespace Instant

instance : LE Instant :=
  ⟨fun a b => a.seconds < b.seconds ∨ a.seconds = b.seconds ∧ a.nanos ≤ b.nanos⟩

instance (a b : Instant) : Decidable (a ≤ b) :=
  inferInstanceAs (Decidable (a.seconds < b.seconds ∨ a.seconds = b.seconds ∧ a.nanos ≤ b.nanos))

@[grind =]
theorem le_def {a b : Instant} :
    a ≤ b ↔ a.seconds < b.seconds ∨ a.seconds = b.seconds ∧ a.nanos ≤ b.nanos :=
  Iff.rfl

theorem le_total (a b : Instant) : a ≤ b ∨ b ≤ a := by
  simp only [le_def]
  omega

theorem le_trans {a b c : Instant} (hab : a ≤ b) (hbc : b ≤ c) : a ≤ c := by
  simp only [le_def] at *
  omega

def ofUnixNanos (n : Int) : Instant := ⟨n / 1000000000, (n % 1000000000).toNat⟩

/-- The nanoseconds from the epoch to an instant outside leap seconds. -/
def unixNanos (t : Instant) : Int := t.seconds * 1000000000 + t.nanos

@[simp] theorem unixNanos_ofUnixNanos (n : Int) : (ofUnixNanos n).unixNanos = n := by
  simp only [ofUnixNanos, unixNanos]
  omega

/-- The time from one instant to a later one, for instants outside leap seconds. -/
def since (later earlier : Instant) : Duration := ⟨later.unixNanos - earlier.unixNanos⟩

end Instant

end TraceSearch
