import TraceSearch.Duration.Notation
import TraceSearch.Intent.Validation
import TraceSearch.Proofs.Duration.Grammar
import TraceSearch.Query.Basic

/-!
# Written durations read back

A duration is written by groups that add up to it, each with no more digits than its unit has
nanoseconds. Main facts: `ofLiteral_format`, a duration of 64-bit nanoseconds is read as it was
written, and `written_durations_restate`, so that a literal of an intent may be replaced by the one
its value is written as.
-/

namespace TraceSearch

namespace Duration

theorem Spelled.append {groups others : List Group} {text rest : List Char}
    (h : Spelled groups text) (hothers : Spelled others rest) :
    Spelled (groups ++ others) (text ++ rest) := by
  induction h with
  | nil => exact hothers
  | cons first _ ih =>
    rw [List.cons_append, List.append_assoc]
    exact .cons first ih

theorem total_append (groups others : List Group) :
    total (groups ++ others) = total groups + total others := by
  induction groups with
  | nil => exact (Nat.zero_add _).symm
  | cons g groups ih => rw [List.cons_append, total_cons, total_cons, ih, Nat.add_assoc]

@[simp] theorem total_nil : total [] = 0 := rfl

theorem total_singleton (g : Group) : total [g] = g.nanoseconds := by
  rw [total_cons, total_nil, Nat.add_zero]

theorem Spelled.singleton {g : Group} {text : List Char} (h : g.Spelled text) :
    Spelled [g] text := by
  rw [← List.append_nil text]
  exact .cons h .nil

/-- The zeros that a fraction drops at its end are the power of ten that its digits lack. -/
theorem fraction_of_padded {places rest : Nat} (hpos : 0 < places)
    (hlt : rest < Decimal.powerOfTen places) :
    ∃ fraction, Decimal.dropTrailingZeros (Decimal.padded places rest) = fraction ∧
      (∀ c ∈ fraction, c.isDigit = true) ∧ fraction.length ≤ places ∧
      Decimal.value fraction * Decimal.powerOfTen places / Decimal.powerOfTen fraction.length =
        rest := by
  obtain ⟨zeros, hzeros⟩ := Decimal.dropTrailingZeros_append (Decimal.padded places rest)
  generalize hfraction : Decimal.dropTrailingZeros (Decimal.padded places rest) = fraction at hzeros
  have hlength : fraction.length + zeros = places := by
    rw [← Decimal.length_padded hpos hlt, ← hzeros, List.length_append, List.length_replicate]
  have hvalue : Decimal.value fraction * Decimal.powerOfTen zeros = rest := by
    rw [← Decimal.value_padded places rest, ← hzeros, Decimal.value_append, Decimal.value_zeros,
      List.length_replicate, Nat.add_zero]
  refine ⟨fraction, rfl, ?_, by omega, ?_⟩
  · intro c hc
    have hpadded : c ∈ Decimal.padded places rest := hzeros ▸ List.mem_append_left _ hc
    exact Decimal.isDigit_of_mem_padded hpadded
  · rw [← hlength, Decimal.powerOfTen_add, Nat.mul_left_comm, hvalue, Nat.mul_comm,
      Nat.mul_div_cancel _ (Decimal.powerOfTen_pos _)]

/-- A text shows a number of nanoseconds in units: it spells groups of them that add up to the
number, and no fraction has more digits than its unit has places. -/
def Shows (units : List TimeUnit) (text : List Char) (n : Nat) : Prop :=
  ∃ groups, Spelled groups text ∧ groups.map Group.unit = units ∧
    (∀ g ∈ groups, 10 ^ g.fraction.length ∣ g.unit.nanoseconds) ∧ total groups = n

theorem Shows.nil : Shows [] [] 0 := ⟨[], .nil, rfl, nofun, rfl⟩

theorem Shows.singleton {g : Group} {text : List Char} (h : g.Spelled text)
    (hexact : 10 ^ g.fraction.length ∣ g.unit.nanoseconds) : Shows [g.unit] text g.nanoseconds := by
  refine ⟨[g], .singleton h, rfl, ?_, total_singleton g⟩
  intro f hf
  rw [List.mem_singleton.1 hf]
  exact hexact

theorem Shows.append {units more : List TimeUnit} {text rest : List Char} {m n : Nat}
    (h : Shows units text m) (hmore : Shows more rest n) :
    Shows (units ++ more) (text ++ rest) (m + n) := by
  obtain ⟨groups, hspelled, rfl, hexact, rfl⟩ := h
  obtain ⟨others, hothers, rfl, hexact', rfl⟩ := hmore
  refine ⟨groups ++ others, hspelled.append hothers, List.map_append, ?_, total_append _ _⟩
  intro g hg
  rcases List.mem_append.1 hg with hg | hg
  · exact hexact g hg
  · exact hexact' g hg

section Groups

variable {unit : TimeUnit} {symbol : List Char} (hsymbol : symbol ∈ unit.symbols)

include hsymbol

theorem shows_digits (n : Nat) :
    Shows [unit] (Decimal.digits n ++ symbol) (n * unit.nanoseconds) := by
  have hdigits : ∀ c ∈ Decimal.digits n, c.isDigit = true := fun c => Decimal.isDigit_of_mem_digits
  have hspelled := Group.Spelled.whole (Decimal.digits_ne_nil n) hdigits hsymbol
  have hvalue : (⟨Decimal.digits n, [], unit⟩ : Group).nanoseconds = n * unit.nanoseconds := by
    have hnone : Decimal.value [] = 0 := rfl
    simp [Group.nanoseconds, Group.significant, hnone]
  rw [← hvalue]
  exact .singleton hspelled (one_dvd _)

/-- A number in fixed-point notation counts the nanoseconds it was made from if its places are those
of the unit and all of them count. -/
theorem shows_fixedPoint (places : Nat) (hscale : unit.nanoseconds = Decimal.powerOfTen places)
    (hpos : 0 < places) (hle : places ≤ Group.precision) (n : Nat) :
    Shows [unit] (Decimal.fixedPoint n places ++ symbol) n := by
  have hdivided : n / Decimal.powerOfTen places * Decimal.powerOfTen places +
      n % Decimal.powerOfTen places = n := Nat.div_add_mod' n (Decimal.powerOfTen places)
  unfold Decimal.fixedPoint
  by_cases hrest : n % Decimal.powerOfTen places = 0
  · have hwhole := shows_digits hsymbol (n / Decimal.powerOfTen places)
    rw [hrest, Nat.add_zero] at hdivided
    rw [hscale, hdivided] at hwhole
    rwa [if_pos hrest]
  · obtain ⟨fraction, htext, hfraction, hlength, hexact⟩ :=
      fraction_of_padded hpos (Nat.mod_lt n (Decimal.powerOfTen_pos places))
    generalize n / Decimal.powerOfTen places = whole at hdivided ⊢
    have hdigits : ∀ c ∈ Decimal.digits whole ++ fraction, c.isDigit = true := by
      intro c hc
      rcases List.mem_append.1 hc with hc | hc
      · exact Decimal.isDigit_of_mem_digits hc
      · exact hfraction c hc
    have hne : Decimal.digits whole ++ fraction ≠ [] := by simp
    have hspelled := Group.Spelled.pointed hne hdigits hsymbol
    have hall : fraction.take Group.precision = fraction :=
      List.take_of_length_le (Nat.le_trans hlength hle)
    have hvalue : (⟨Decimal.digits whole, fraction, unit⟩ : Group).nanoseconds = n := by
      simp only [Group.nanoseconds, Group.significant, hall, Decimal.value_digits, hscale, hexact]
      exact hdivided
    have hdvd : 10 ^ fraction.length ∣ unit.nanoseconds := by
      rw [hscale]
      exact Nat.pow_dvd_pow 10 hlength
    have hshows := Shows.singleton hspelled hdvd
    rw [hvalue] at hshows
    rwa [if_neg hrest, htext]

/-- A group that is left out where it counts nothing. -/
theorem shows_optional {shown : Prop} [Decidable shown] {n : Nat} (h : ¬ shown → n = 0) :
    Shows (if shown then [unit] else []) (if shown then Decimal.digits n ++ symbol else [])
      (n * unit.nanoseconds) := by
  by_cases hshown : shown
  · rw [if_pos hshown, if_pos hshown]
    exact shows_digits hsymbol n
  · rw [if_neg hshown, if_neg hshown, h hshown, Nat.zero_mul]
    exact .nil

end Groups

/-- The units a duration is written in, hours and minutes never without what they divide into. -/
def layouts : List (List TimeUnit) :=
  [[.nanosecond], [.microsecond], [.millisecond], [.second], [.minute, .second],
    [.hour, .minute, .second]]

theorem shows_magnitudeText (n : Nat) : ∃ units ∈ layouts, Shows units (magnitudeText n) n := by
  unfold magnitudeText
  split
  · have hsymbol : ['n', 's'] ∈ TimeUnit.nanosecond.symbols := by decide
    have hshows := shows_digits hsymbol n
    rw [TimeUnit.nanoseconds, Nat.mul_one] at hshows
    exact ⟨_, by decide, hshows⟩
  split
  · have hsymbol : ['\u00b5', 's'] ∈ TimeUnit.microsecond.symbols := by decide
    exact ⟨_, by decide, shows_fixedPoint hsymbol 3 rfl (by decide) (by decide) n⟩
  split
  · have hsymbol : ['m', 's'] ∈ TimeUnit.millisecond.symbols := by decide
    exact ⟨_, by decide, shows_fixedPoint hsymbol 6 rfl (by decide) (by decide) n⟩
  · have hhour : ['h'] ∈ TimeUnit.hour.symbols := by decide
    have hminute : ['m'] ∈ TimeUnit.minute.symbols := by decide
    have hsecond : ['s'] ∈ TimeUnit.second.symbols := by decide
    have hnoHours : ¬0 < n / 3600000000000 → n / 3600000000000 = 0 := by omega
    have hnoMinutes : ¬(0 < n / 3600000000000 ∨ 0 < n / 60000000000 % 60) →
        n / 60000000000 % 60 = 0 := by omega
    have hseconds := shows_fixedPoint hsecond 9 rfl (by decide) (by decide) (n % 60000000000)
    have hshows := ((shows_optional hhour hnoHours).append
      (shows_optional hminute hnoMinutes)).append hseconds
    have hvalue : n / 3600000000000 * TimeUnit.hour.nanoseconds +
        n / 60000000000 % 60 * TimeUnit.minute.nanoseconds + n % 60000000000 = n := by
      simp only [TimeUnit.nanoseconds]
      omega
    rw [hvalue, ← List.append_assoc] at hshows
    refine ⟨_, ?_, hshows⟩
    by_cases hhours : 0 < n / 3600000000000
    · simp [hhours, layouts]
    by_cases hminutes : 0 < n / 60000000000 % 60
    · simp [hhours, hminutes, layouts]
    · simp [hhours, hminutes, layouts]

theorem magnitudeText_spelled (n : Nat) :
    ∃ groups, groups ≠ [] ∧ Spelled groups (magnitudeText n) ∧ total groups = n := by
  obtain ⟨units, hunits, groups, hspelled, rfl, -, htotal⟩ := shows_magnitudeText n
  refine ⟨groups, ?_, hspelled, htotal⟩
  rintro rfl
  contradiction

@[simp] theorem fits64_iff {n : Int} : fits64 n = true ↔ -2 ^ 63 ≤ n ∧ n ≤ 2 ^ 63 - 1 :=
  decide_eq_true_iff

theorem denotes_nanosecondsText {n : Int} (h : fits64 n = true) :
    Denotes (nanosecondsText n) ⟨n⟩ := by
  have hfits := fits64_iff.1 h
  obtain ⟨groups, hne, hspelled, htotal⟩ := magnitudeText_spelled n.natAbs
  unfold nanosecondsText
  by_cases hzero : n = 0
  · have hsymbol : ['s'] ∈ TimeUnit.second.symbols := by decide
    obtain ⟨groups, hspelled, hunits, -, htotal⟩ := shows_digits hsymbol 0
    rw [Nat.zero_mul] at htotal
    have hne : groups ≠ [] := by
      rintro rfl
      contradiction
    have hzeroes : Denotes ([] ++ (Decimal.digits 0 ++ ['s'])) ⟨total groups⟩ :=
      .positive List.mem_cons_self hne hspelled (by omega)
    rw [if_pos hzero, hzero]
    rwa [htotal] at hzeroes
  rw [if_neg hzero]
  by_cases hneg : n < 0
  · have hvalue : n = -(total groups : Int) := by omega
    have hbounded : total groups ≤ 2 ^ 63 := by omega
    rw [if_pos hneg]
    rw [hvalue] at hspelled ⊢
    exact .negative hne hspelled hbounded
  · have hvalue : n = (total groups : Int) := by omega
    have hbounded : total groups ≤ 2 ^ 63 - 1 := by omega
    rw [if_neg hneg]
    rw [hvalue] at hspelled ⊢
    exact .positive List.mem_cons_self hne hspelled hbounded

theorem fits64_of_denotes {text : List Char} {d : Duration} (h : Denotes text d) :
    fits64 d.nanoseconds = true := by
  rw [fits64_iff]
  cases h with
  | zero => decide
  | positive _ _ _ hbounded => dsimp only; omega
  | negative _ _ hbounded => dsimp only; omega

/-- A duration of 64-bit nanoseconds is read as it was written. -/
theorem ofLiteral_format {d : Duration} (h : fits64 d.nanoseconds = true) :
    ofLiteral d.format = .ok d := by
  refine ofLiteral_of_denotes ?_
  rw [format, String.toList_ofList, shownNanoseconds, if_pos h]
  exact denotes_nanosecondsText h

/-- What a literal denotes is read again after it has been written. -/
theorem ofLiteral_format_of_ofLiteral {literal : String} {d : Duration}
    (h : ofLiteral literal = .ok d) : ofLiteral d.format = .ok d :=
  ofLiteral_format (fits64_of_denotes (denotes_of_ofLiteral h))

end Duration

namespace Intent

/-- A duration part as it was, or with its literal replaced by the one its value is written as. -/
inductive Restated : Option String → Option String → Prop where
  | same (part : Option String) : Restated part part
  | written {literal : String} {d : Duration} (read : Duration.ofLiteral literal = .ok d) :
      Restated (some literal) (some d.format)

theorem Restated.checkDuration_eq {before after : Option String} (h : Restated before after)
    (part : Part) : checkDuration part after = checkDuration part before := by
  cases h with
  | same => rfl
  | written hread =>
    simp only [checkDuration, hread, Duration.ofLiteral_format_of_ofLiteral hread]

theorem Restated.durationBound_eq {before after : Option String} (h : Restated before after)
    (part : Part) : Query.durationBound part after = Query.durationBound part before := by
  cases h with
  | same => rfl
  | written hread =>
    simp only [Query.durationBound, hread, Duration.ofLiteral_format_of_ofLiteral hread]

end Intent

/-- Every duration of 64-bit nanoseconds is read as it was written, so no two are written alike, and
an intent whose duration literals are written anew passes or fails validation as before and states
the same query. -/
theorem written_durations_restate :
    (∀ n : Int64, Duration.ofLiteral (Duration.format ⟨n.toInt⟩) = .ok ⟨n.toInt⟩) ∧
    (Function.Injective fun n : Int64 => Duration.format ⟨n.toInt⟩) ∧
    ∀ (i : Intent) (least greatest : Option String), Intent.Restated i.minDuration least →
      Intent.Restated i.maxDuration greatest →
        ({ i with minDuration := least, maxDuration := greatest } : Intent).validate = i.validate ∧
        Query.ofIntent { i with minDuration := least, maxDuration := greatest } =
          Query.ofIntent i := by
  have hread (n : Int64) :
      Duration.ofLiteral (Duration.format ⟨n.toInt⟩) = .ok ⟨n.toInt⟩ := by
    have hlt := n.toInt_lt
    exact Duration.ofLiteral_format (Duration.fits64_iff.2 ⟨n.le_toInt, Int.le_sub_one_of_lt hlt⟩)
  refine ⟨hread, ?_, ?_⟩
  · intro a b hformat
    have hsame := (hread a).symm.trans ((congrArg Duration.ofLiteral hformat).trans (hread b))
    exact Int64.toInt_inj.1 (congrArg Duration.nanoseconds (Except.ok.inj hsame))
  · intro i least greatest hleast hgreatest
    constructor
    · simp only [Intent.validate, hleast.checkDuration_eq, hgreatest.checkDuration_eq]
    · simp only [Query.ofIntent, hleast.durationBound_eq, hgreatest.durationBound_eq]

/-- An intent with two spellings of hours that are not how hours are written. -/
def spelledHours : Intent :=
  { Intent.empty with minDuration := some "+.5h", maxDuration := some "90m0.000000001s" }

theorem written_durations_restate_spelledHours :
    Intent.Restated spelledHours.minDuration (some "30m0s") ∧
      Intent.Restated spelledHours.maxDuration (some "1h30m0.000000001s") ∧
      { spelledHours with
        minDuration := some "30m0s"
        maxDuration := some "1h30m0.000000001s" : Intent }.validate = spelledHours.validate ∧
      Query.ofIntent
        { spelledHours with
          minDuration := some "30m0s"
          maxDuration := some "1h30m0.000000001s" } = Query.ofIntent spelledHours := by
  have hleast : Intent.Restated (some "+.5h") (some "30m0s") :=
    Intent.Restated.written (d := ⟨1800000000000⟩) (by decide +kernel)
  have hgreatest : Intent.Restated (some "90m0.000000001s") (some "1h30m0.000000001s") :=
    Intent.Restated.written (d := ⟨5400000000001⟩) (by decide +kernel)
  obtain ⟨-, -, hrestate⟩ := written_durations_restate
  exact ⟨hleast, hgreatest, hrestate spelledHours _ _ hleast hgreatest⟩

end TraceSearch
