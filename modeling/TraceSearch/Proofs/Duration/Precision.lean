import TraceSearch.Proofs.Duration.Fraction
import TraceSearch.Proofs.Duration.Notation

/-!
# The precision of written durations

A duration is written to the nanosecond where 64 bits hold its nanoseconds, or else to the
microsecond. Main fact: `writes_format`, what the groups of the text state is exactly the duration
at that precision, and a duration above 64-bit microseconds is written as the greatest of them.
-/

namespace TraceSearch

namespace Duration

theorem Group.amount_of_dvd {g : Group} (h : 10 ^ g.fraction.length ∣ g.unit.nanoseconds) :
    g.amount = g.nanoseconds := by
  have hle : 10 ^ g.fraction.length ≤ 10 ^ 18 :=
    (Nat.le_of_dvd g.unit.nanoseconds_pos h).trans g.unit.nanoseconds_le
  have hlength : g.fraction.length ≤ 18 := (Nat.pow_le_pow_iff_right (by decide)).1 hle
  obtain ⟨places, hplaces⟩ := h
  have hwhole : g.amount = ((Decimal.value g.whole * g.unit.nanoseconds +
      Decimal.value g.fraction * places : ℕ) : ℚ) := by
    unfold Group.amount
    rw [hplaces]
    push_cast
    field_simp
  rw [g.nanoseconds_eq, Group.cut_of_length_le hlength, hwhole, Nat.floor_natCast]

theorem sum_amount {groups : List Group}
    (h : ∀ g ∈ groups, 10 ^ g.fraction.length ∣ g.unit.nanoseconds) :
    (groups.map Group.amount).sum = total groups := by
  induction groups with
  | nil => rfl
  | cons g groups ih =>
    have hfirst := Group.amount_of_dvd (h g List.mem_cons_self)
    have hothers := ih fun f hf => h f (List.mem_cons_of_mem g hf)
    rw [List.map_cons, List.sum_cons, hfirst, hothers, total_cons, Nat.cast_add]

/-- A text writes a number of nanoseconds: it starts with a minus exactly if the number is negative,
and all digits counted, its groups state the magnitude of the number. -/
structure Writes (text : List Char) (n : Int) : Prop where
  sign : text.head? = some '-' ↔ n < 0
  spelled : ∃ groups, Spelled groups (splitSign text).2
  exact : ∀ groups, Spelled groups (splitSign text).2 →
    groups.map Group.unit ∈ layouts ∧ (groups.map Group.amount).sum = n.natAbs

theorem Writes.natAbs_eq {text : List Char} {m n : Int} (hm : Writes text m) (hn : Writes text n) :
    m.natAbs = n.natAbs := by
  obtain ⟨groups, hspelled⟩ := hm.spelled
  have hsum := (hm.exact groups hspelled).2.symm.trans (hn.exact groups hspelled).2
  exact Nat.cast_inj.1 hsum

section Shows

variable {units : List TimeUnit} {text : List Char} {n : Nat}

theorem Shows.exact (h : Shows units text n) (hunits : units ∈ layouts) {groups : List Group}
    (hspelled : Spelled groups text) :
    groups.map Group.unit ∈ layouts ∧ (groups.map Group.amount).sum = n := by
  obtain ⟨others, hothers, rfl, hdvd, rfl⟩ := h
  cases hspelled.unique hothers
  exact ⟨hunits, sum_amount hdvd⟩

theorem Shows.head (h : Shows units text n) : ∀ c ∈ text.head?, isSymbolChar c = false := by
  obtain ⟨groups, hspelled, -⟩ := h
  exact hspelled.head

theorem Shows.writes (h : Shows units text n) (hunits : units ∈ layouts) : Writes text n := by
  have hsplit : splitSign text = (false, text) := splitSign_append List.mem_cons_self h.head
  refine ⟨?_, ?_, ?_⟩
  · refine iff_of_false (fun hminus => ?_) (by omega)
    have hsymbol := h.head '-' hminus
    contradiction
  · obtain ⟨groups, hspelled, -⟩ := h
    exact ⟨groups, by rwa [hsplit]⟩
  · intro groups hspelled
    rw [hsplit] at hspelled
    exact h.exact hunits hspelled

theorem Shows.writes_neg (h : Shows units text n) (hunits : units ∈ layouts) (hpos : 0 < n) :
    Writes ('-' :: text) (-n) := by
  refine ⟨iff_of_true rfl (by omega), ?_, ?_⟩
  · obtain ⟨groups, hspelled, -⟩ := h
    exact ⟨groups, hspelled⟩
  · intro groups hspelled
    rw [Int.natAbs_neg]
    exact h.exact hunits hspelled

end Shows

theorem writes_nanosecondsText (n : Int) : Writes (nanosecondsText n) n := by
  obtain ⟨units, hunits, hshows⟩ := shows_magnitudeText n.natAbs
  unfold nanosecondsText
  by_cases hzero : n = 0
  · have hsymbol : ['s'] ∈ TimeUnit.second.symbols := by decide
    have hnone := shows_digits hsymbol 0
    rw [Nat.zero_mul] at hnone
    rw [if_pos hzero, hzero]
    exact hnone.writes (by decide)
  rw [if_neg hzero]
  by_cases hneg : n < 0
  · have hpos : 0 < n.natAbs := Int.natAbs_pos.2 hzero
    have hwrites := hshows.writes_neg hunits hpos
    rw [if_pos hneg]
    rwa [Int.ofNat_natAbs_of_nonpos (Int.le_of_lt hneg), Int.neg_neg] at hwrites
  · have hwrites := hshows.writes hunits
    rw [if_neg hneg]
    rwa [Int.natAbs_of_nonneg (Int.not_lt.1 hneg)] at hwrites

/-- A duration is written exactly, to the nanosecond where 64 bits hold it and else rounded toward
zero to the microsecond, and the greatest 64-bit number of microseconds stands for any above. -/
theorem writes_format {d : Duration} (h : -2 ^ 63 ≤ d.microseconds) :
    Writes d.format.toList
      (if -2 ^ 63 ≤ d.nanoseconds ∧ d.nanoseconds ≤ 2 ^ 63 - 1 then d.nanoseconds
      else 1000 * min d.microseconds (2 ^ 63 - 1)) := by
  have hshown : d.shownNanoseconds =
      if -2 ^ 63 ≤ d.nanoseconds ∧ d.nanoseconds ≤ 2 ^ 63 - 1 then d.nanoseconds
      else 1000 * min d.microseconds (2 ^ 63 - 1) := by
    unfold shownNanoseconds
    simp only [fits64_iff]
    split
    · rfl
    · simp only [h, true_and, greatest64]
      omega
  rw [← hshown, format, String.toList_ofList]
  exact writes_nanosecondsText d.shownNanoseconds

/-- A nanosecond below the least 64-bit number of nanoseconds. -/
def belowNanoseconds : Duration := ⟨-9223372036854775809⟩

theorem writes_format_belowNanoseconds :
    -2 ^ 63 ≤ belowNanoseconds.microseconds ∧
      Writes belowNanoseconds.format.toList
        (if -2 ^ 63 ≤ belowNanoseconds.nanoseconds ∧ belowNanoseconds.nanoseconds ≤ 2 ^ 63 - 1 then
          belowNanoseconds.nanoseconds
        else 1000 * min belowNanoseconds.microseconds (2 ^ 63 - 1)) := by
  have h : -2 ^ 63 ≤ belowNanoseconds.microseconds := by decide
  exact ⟨h, writes_format h⟩

/-- A microsecond above the greatest 64-bit number of microseconds. -/
def aboveMicroseconds : Duration := ⟨9223372036854775808000⟩

/-- A duration within the range of clocks that is written as another number of microseconds. -/
theorem not_writes_aboveMicroseconds :
    aboveMicroseconds.inRange = true ∧
      ¬ Writes aboveMicroseconds.format.toList
        (if -2 ^ 63 ≤ aboveMicroseconds.nanoseconds ∧
            aboveMicroseconds.nanoseconds ≤ 2 ^ 63 - 1 then
          aboveMicroseconds.nanoseconds
        else 1000 * aboveMicroseconds.microseconds) := by
  refine ⟨by decide, fun hwrites => ?_⟩
  have hshown : aboveMicroseconds.shownNanoseconds = 9223372036854775807000 := by decide
  rw [format, String.toList_ofList, hshown] at hwrites
  have hsame := hwrites.natAbs_eq (writes_nanosecondsText 9223372036854775807000)
  revert hsame
  decide

end Duration

end TraceSearch
