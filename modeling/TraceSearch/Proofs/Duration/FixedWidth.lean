import TraceSearch.Proofs.Duration.Count
import TraceSearch.Proofs.Duration.Refusal

/-!
# Reading literals in fixed width

The reader of duration literals on a machine: a text is cut at offsets, the total is a word of 128
bits, the result is one of 64. The limit is made and a sign is put without a check. Main fact:
`ofLiteral_never_traps`, the reader reads every literal as the one with unbounded numbers does, and
what holds wherever its loop comes round says why: the total is within the limit, the products are
words, and less text is left.
-/

namespace TraceSearch.Duration.FixedWidth

section Definitions

/-- A total with a count added, within the limit of the sign. -/
def addCount (negative : Bool) (total nanos : Word) : Exec Word := do
  let total ← requireRange (checkedAdd total nanos)
  let limit ← add 9223372036854775807 (if negative then 1 else 0)
  refuseIf (limit < total) .outOfRange
  return total

/-- Where the loop over the groups comes round: the total so far and the text that is left. -/
structure Head where
  total : Word
  rest : List Char
deriving DecidableEq

def round (negative : Bool) (head : Head) : Exec Head := do
  let (group, rest) ← cutGroup head.rest
  let total ← addCount negative head.total (← count group)
  return ⟨total, rest⟩

/-- The total with its sign in 64 bits. -/
def finish (negative : Bool) (total : Word) : Exec (BitVec 64) := do
  let signed ← if negative then negate total else .ok total
  requireRange (narrow signed)

/-- The sign of a text that is not empty, read off its first byte, and what follows it. -/
def cutSign (s : List Char) : Exec (Bool × List Char) := do
  let byte ← firstByte s
  if byte = 0x2D then return (true, (← splitAt 1 s).2)
  else if byte = 0x2B then return (false, (← splitAt 1 s).2)
  else return (false, s)

end Definitions

section Loop

variable {negative : Bool}

theorem magnitudeLimit_le (negative : Bool) : magnitudeLimit negative ≤ 2 ^ 63 := by
  cases negative <;> decide

/-- The limit is made without a check: the sum is far below the end of a word. -/
theorem limit_eq (negative : Bool) :
    add 9223372036854775807 (if negative then 1 else 0) =
      .ok (BitVec.ofNat 128 (magnitudeLimit negative)) := by
  cases negative <;> rfl

theorem addCount_checked {total n : ℕ} (htotal : total ≤ magnitudeLimit negative)
    (hn : n < 2 ^ 128) :
    addCount negative (BitVec.ofNat 128 total) (BitVec.ofNat 128 n) =
      if magnitudeLimit negative < total + n then .error (.fault .outOfRange)
      else .ok (BitVec.ofNat 128 (total + n)) := by
  have hlimit := magnitudeLimit_le negative
  have hword : total < 2 ^ 128 := by omega
  simp only [addCount, checkedAdd_eq, toNat_ofNat_of_lt hword, toNat_ofNat_of_lt hn, limit_eq, bind,
    Except.bind]
  rcases Nat.lt_or_ge (total + n) (2 ^ 128) with hfits | hbeyond
  · have hless : BitVec.ofNat 128 (magnitudeLimit negative) < BitVec.ofNat 128 (total + n) ↔
        magnitudeLimit negative < total + n := by
      rw [BitVec.lt_def, toNat_ofNat_of_lt (by omega), toNat_ofNat_of_lt hfits]
    rw [checked_of_lt hfits]
    simp only [requireRange, require, refuseIf, hless, decide_eq_true_eq]
    by_cases hover : magnitudeLimit negative < total + n
    · rw [if_pos hover, if_pos hover]
    · rw [if_neg hover, if_neg hover]
      rfl
  · rw [checked_of_le hbeyond, if_pos (by omega)]
    rfl

/-- A round from a total within the limit reads a group and adds its nanoseconds, or fails as the
reader with unbounded numbers does. -/
theorem round_eq {total : ℕ} (htotal : total ≤ magnitudeLimit negative) (s : List Char) :
    round negative ⟨BitVec.ofNat 128 total, s⟩ =
      match readGroup s with
      | .error fault => .error (.fault fault)
      | .ok (group, rest) =>
        if magnitudeLimit negative < total + group.nanoseconds then .error (.fault .outOfRange)
        else .ok ⟨BitVec.ofNat 128 (total + group.nanoseconds), rest⟩ := by
  have hlimit := magnitudeLimit_le negative
  simp only [round, cutGroup_eq, bind, Except.bind]
  cases hread : readGroup s with
  | error fault => rfl
  | ok read =>
    obtain ⟨g, rest⟩ := read
    obtain ⟨hwhole, hfraction⟩ := digits_of_readGroup hread
    dsimp only [Except.mapError]
    rw [count_eq hwhole hfraction]
    rcases Nat.lt_or_ge g.nanoseconds (2 ^ 128) with hfits | hbeyond
    · rw [checked_of_lt hfits]
      dsimp only [requireRange, require]
      rw [addCount_checked htotal hfits]
      by_cases hover : magnitudeLimit negative < total + g.nanoseconds
      · rw [if_pos hover, if_pos hover]
      · rw [if_neg hover, if_neg hover]
        rfl
    · rw [checked_of_le hbeyond, if_pos (by omega)]
      rfl

/-- A round consumes text, whatever its total. -/
theorem exists_consumed_of_round {head next : Head} (h : round negative head = .ok next) :
    ∃ consumed, consumed ≠ [] ∧ head.rest = consumed ++ next.rest := by
  simp only [round, cutGroup_eq, bind, Except.bind] at h
  cases hread : readGroup head.rest with
  | error fault =>
    rw [hread] at h
    cases h
  | ok read =>
    obtain ⟨g, rest⟩ := read
    obtain ⟨text, hspelled, htext⟩ := spelled_of_readGroup hread
    rw [hread] at h
    dsimp only [Except.mapError] at h
    split at h
    · cases h
    · split at h
      · cases h
      · cases h
        exact ⟨text, List.ne_nil_of_length_pos hspelled.length_pos, htext⟩

theorem length_lt_of_round {head next : Head} (h : round negative head = .ok next) :
    next.rest.length < head.rest.length := by
  obtain ⟨consumed, hne, hrest⟩ := exists_consumed_of_round h
  have hpos := List.length_pos_of_ne_nil hne
  rw [hrest, List.length_append]
  omega

/-- The total of the groups of a text. -/
def loop (negative : Bool) (head : Head) : Exec Word :=
  if head.rest = [] then .ok head.total
  else
    match _h : round negative head with
    | .error halt => .error halt
    | .ok next => loop negative next
termination_by head.rest.length
decreasing_by exact length_lt_of_round _h

theorem loop_of_ne_nil {head : Head} (h : head.rest ≠ []) :
    loop negative head =
      match round negative head with
      | .error halt => .error halt
      | .ok next => loop negative next := by
  rw [loop, if_neg h]
  split <;> simp only [*]

/-- The loop adds up what the reader with unbounded numbers adds up, in words. -/
theorem loop_eq {total bound : ℕ} {s : List Char} (hbound : s.length ≤ bound)
    (htotal : total ≤ magnitudeLimit negative) :
    loop negative ⟨BitVec.ofNat 128 total, s⟩ =
      match addGroups (magnitudeLimit negative) bound total s with
      | .error fault => .error (.fault fault)
      | .ok n => .ok (BitVec.ofNat 128 n) := by
  induction bound generalizing total s with
  | zero =>
    obtain rfl := List.length_eq_zero_iff.1 (Nat.le_zero.1 hbound)
    rw [loop, if_pos rfl, addGroups_nil]
  | succ bound ih =>
    by_cases hnil : s = []
    · rw [hnil, loop, if_pos rfl, addGroups_nil]
    rw [loop_of_ne_nil hnil, addGroups_of_ne_nil hnil, round_eq htotal]
    cases hread : readGroup s with
    | error fault => rfl
    | ok read =>
      obtain ⟨g, rest⟩ := read
      obtain ⟨text, hspelled, htext⟩ := spelled_of_readGroup hread
      have hpos := hspelled.length_pos
      rw [htext, List.length_append] at hbound
      dsimp only
      by_cases hover : magnitudeLimit negative < total + g.nanoseconds
      · rw [if_pos hover, if_pos hover]
      · rw [if_neg hover, if_neg hover]
        exact ih (by omega) (Nat.not_lt.1 hover)

end Loop

section Literal

variable {negative : Bool}

/-- The first byte is there, and a sign is a character of its own. -/
theorem cutSign_eq {s : List Char} (hne : s ≠ []) : cutSign s = .ok (splitSign s) := by
  obtain ⟨c, s, rfl⟩ := List.exists_cons_of_ne_nil hne
  obtain ⟨byte, hbyte, hascii⟩ := firstByte_cons c s
  have hminus : byte = 0x2D ↔ c = '-' := hascii '-' (by decide)
  have hplus : byte = 0x2B ↔ c = '+' := hascii '+' (by decide)
  simp only [cutSign, hbyte, hminus, hplus, bind, Except.bind]
  by_cases hc : c = '-'
  · have hcut : splitAt 1 ('-' :: s) = .ok (['-'], s) := splitAt_size ['-'] s
    rw [if_pos hc, hc, hcut]
    rfl
  rw [if_neg hc]
  by_cases hd : c = '+'
  · have hcut : splitAt 1 ('+' :: s) = .ok (['+'], s) := splitAt_size ['+'] s
    rw [if_pos hd, hd, hcut]
    rfl
  · rw [if_neg hd, splitSign]
    · rfl
    · rintro rest ⟨⟩
      exact hc rfl
    · rintro rest ⟨⟩
      exact hd rfl

/-- A total within the limit of its sign has a negative, and 64 bits hold it with the sign. -/
theorem finish_eq {total : ℕ} (htotal : total ≤ magnitudeLimit negative) :
    ∃ n, finish negative (BitVec.ofNat 128 total) = .ok n ∧
      n.toInt = if negative then -(total : ℤ) else total := by
  have hlimit := magnitudeLimit_le negative
  have hint : (BitVec.ofNat 128 total).toInt = total := toInt_ofNat_of_lt (by omega)
  cases negative with
  | false =>
    have hwithin : total ≤ 9223372036854775807 := htotal
    have hfits : fits64 (BitVec.ofNat 128 total).toInt = true := by
      rw [hint, fits64_iff]
      omega
    obtain ⟨n, hnarrow, hsame⟩ := narrow_of_fits hfits
    refine ⟨n, ?_, hsame.trans hint⟩
    simp only [finish, Bool.false_eq_true, if_false, bind, Except.bind, hnarrow]
    rfl
  | true =>
    have hnegates : (BitVec.ofNat 128 total).negOverflow = false := by
      rw [BitVec.negOverflow, hint]
      exact beq_false_of_ne (by omega)
    have hneg : (-(BitVec.ofNat 128 total)).toInt = -total := by
      rw [BitVec.toInt_neg_of_not_negOverflow (by rw [hnegates]; decide), hint]
    have hfits : fits64 (-(BitVec.ofNat 128 total)).toInt = true := by
      rw [hneg, fits64_iff]
      omega
    obtain ⟨n, hnarrow, hsame⟩ := narrow_of_fits hfits
    refine ⟨n, ?_, hsame.trans hneg⟩
    simp only [finish, if_true, negate, hnegates, Bool.false_eq_true, if_false, bind, Except.bind,
      hnarrow]
    rfl

theorem readMagnitude_le {s : List Char} {n : ℕ} (h : readMagnitude negative s = .ok n) :
    n ≤ magnitudeLimit negative := by
  unfold readMagnitude at h
  split at h
  · cases h
    exact Nat.zero_le _
  · split at h
    · cases h
    · exact (spelled_of_addGroups (Nat.le_refl _) (Nat.zero_le _) h).1

/-- The signed nanoseconds of a text that is not empty. -/
def nanoseconds (s : List Char) : Exec (BitVec 64) := do
  let (negative, body) ← cutSign s
  if body = ['0'] then return 0
  refuseIf body.isEmpty .noNumber
  finish negative (← loop negative ⟨0, body⟩)

theorem nanoseconds_eq {s body : List Char} (hne : s ≠ [])
    (hsign : splitSign s = (negative, body)) :
    nanoseconds s =
      match readMagnitude negative body with
      | .error fault => .error (.fault fault)
      | .ok n => finish negative (BitVec.ofNat 128 n) := by
  simp only [nanoseconds, cutSign_eq hne, hsign, refuseIf, bind, Except.bind]
  by_cases hzero : body = ['0']
  · rw [if_pos hzero, hzero]
    cases negative <;> rfl
  rw [if_neg hzero, readMagnitude, if_neg hzero]
  by_cases hnil : body = []
  · rw [hnil]
    rfl
  have hloop : loop negative ⟨0, body⟩ = _ := loop_eq (Nat.le_refl body.length) (Nat.zero_le _)
  rw [if_neg (by rwa [List.isEmpty_iff]), if_neg hnil, hloop]
  cases addGroups (magnitudeLimit negative) body.length 0 body <;> rfl

/-- The duration that a literal denotes. -/
def ofLiteral (literal : String) : Except Trap (Except LiteralError Duration) :=
  if literal = "" then .ok (.error .empty)
  else
    match nanoseconds literal.toList with
    | .error (.trap trap) => .error trap
    | .error (.fault fault) => .ok (.error (.faulty fault literal))
    | .ok n => .ok (.ok ⟨n.toInt⟩)

theorem ofLiteral_eq (literal : String) : ofLiteral literal = .ok (Duration.ofLiteral literal) := by
  by_cases hempty : literal = ""
  · rw [ofLiteral, if_pos hempty, ofLiteral_eq_empty_iff.2 hempty]
  have hne : literal.toList ≠ [] := by rwa [Ne, String.toList_eq_nil_iff]
  rcases hsign : splitSign literal.toList with ⟨negative, body⟩
  rw [ofLiteral, if_neg hempty, nanoseconds_eq hne hsign, ofLiteral_of_ne_empty hempty, hsign]
  dsimp only
  cases hread : readMagnitude negative body with
  | error fault => rfl
  | ok magnitude =>
    obtain ⟨n, hfinish, hsigned⟩ := finish_eq (readMagnitude_le hread)
    dsimp only
    rw [hfinish, signed, ← hsigned]

end Literal

section Run

variable {negative : Bool} {head : Head} {body : List Char} {rounds : ℕ}

/-- The loop over the groups of a text comes round here after a number of rounds. -/
inductive Reaches (negative : Bool) (body : List Char) : ℕ → Head → Prop where
  | start : Reaches negative body 0 ⟨0, body⟩
  | again {rounds : ℕ} {head next : Head} (before : Reaches negative body rounds head)
      (more : head.rest ≠ []) (step : round negative head = .ok next) :
      Reaches negative body (rounds + 1) next

/-- What holds wherever the loop comes round: no arithmetic and no cut goes wrong there, be it in
the round that follows or, if it ends there, in giving the total its sign. -/
structure Sound (negative : Bool) (head : Head) : Prop where
  total_le : head.total.toNat ≤ if negative then 2 ^ 63 else 2 ^ 63 - 1
  fraction_fits : ∀ g rest, cutGroup head.rest = .ok (g, rest) → FractionFits g
  never_traps : ∀ trap, round negative head ≠ .error (.trap trap)
  consumes : ∀ next, round negative head = .ok next →
    ∃ consumed, consumed ≠ [] ∧ head.rest = consumed ++ next.rest
  finishes : ∃ n, finish negative head.total = .ok n ∧
    n.toInt = if negative then -(head.total.toNat : ℤ) else head.total.toNat

theorem Head.eq_ofNat (head : Head) : head = ⟨BitVec.ofNat 128 head.total.toNat, head.rest⟩ := by
  rw [BitVec.ofNat_toNat, BitVec.setWidth_eq]

/-- A round from a total within the limit ends with one, or at a fault. -/
theorem round_cases (hle : head.total.toNat ≤ magnitudeLimit negative) :
    (∃ fault, round negative head = .error (.fault fault)) ∨
      ∃ next, round negative head = .ok next ∧ next.total.toNat ≤ magnitudeLimit negative := by
  have hlimit := magnitudeLimit_le negative
  rw [head.eq_ofNat, round_eq hle]
  cases readGroup head.rest with
  | error fault => exact Or.inl ⟨fault, rfl⟩
  | ok read =>
    obtain ⟨g, rest⟩ := read
    dsimp only
    by_cases hover : magnitudeLimit negative < head.total.toNat + g.nanoseconds
    · exact Or.inl ⟨.outOfRange, if_pos hover⟩
    · refine Or.inr ⟨_, if_neg hover, ?_⟩
      rw [toNat_ofNat_of_lt (by omega)]
      exact Nat.not_lt.1 hover

/-- A total within the limit is all that a head needs. -/
theorem sound_of_total_le (hle : head.total.toNat ≤ magnitudeLimit negative) :
    Sound negative head where
  total_le := by rwa [← magnitudeLimit_eq]
  fraction_fits := fun _ _ => fractionFits_of_cutGroup
  never_traps := by
    intro trap htrap
    rcases round_cases hle with ⟨fault, hround⟩ | ⟨next, hround, -⟩
    · rw [hround] at htrap
      cases htrap
    · rw [hround] at htrap
      cases htrap
  consumes := fun _ => exists_consumed_of_round
  finishes := by
    have hfinish := finish_eq hle
    rwa [BitVec.ofNat_toNat, BitVec.setWidth_eq] at hfinish

theorem Reaches.total_le (h : Reaches negative body rounds head) :
    head.total.toNat ≤ magnitudeLimit negative := by
  induction h with
  | start => exact Nat.zero_le _
  | again before more step ih =>
    rcases round_cases ih with ⟨fault, hround⟩ | ⟨next, hround, hle⟩
    · rw [hround] at step
      cases step
    · rw [hround] at step
      cases step
      exact hle

theorem Reaches.rounds_le (h : Reaches negative body rounds head) :
    rounds + head.rest.length ≤ body.length := by
  induction h with
  | start => exact Nat.le_of_eq (Nat.zero_add _)
  | again before more step ih =>
    have hless := length_lt_of_round step
    omega

/-- Every literal is read in fixed width as it is with unbounded numbers, without a trap. Wherever
the loop comes round, the total is within the limit of the sign, so that neither the round that
follows nor the last step can go wrong, and every round has taken a character at least. -/
theorem ofLiteral_never_traps (literal : String) :
    ofLiteral literal = .ok (Duration.ofLiteral literal) ∧
      ∀ negative body, cutSign literal.toList = .ok (negative, body) →
        ∀ rounds head, Reaches negative body rounds head →
          rounds + head.rest.length ≤ body.length ∧ Sound negative head :=
  ⟨ofLiteral_eq literal, fun _ _ _ _ _ h => ⟨h.rounds_le, sound_of_total_le h.total_le⟩⟩

/-- The least duration of 64-bit nanoseconds, in a unit of two characters and three bytes. -/
def leastLiteral : String := "-9223372036854775.808µs"

def leastBody : List Char := "9223372036854775.808µs".toList

theorem ofLiteral_never_traps_least :
    ofLiteral leastLiteral = .ok (Duration.ofLiteral leastLiteral) ∧
      Reaches true leastBody 1 ⟨BitVec.ofNat 128 (2 ^ 63), []⟩ ∧
      Sound true ⟨BitVec.ofNat 128 (2 ^ 63), []⟩ := by
  have hsign : cutSign leastLiteral.toList = .ok (true, leastBody) := by decide +kernel
  have hround : round true ⟨0, leastBody⟩ = .ok ⟨BitVec.ofNat 128 (2 ^ 63), []⟩ := by
    decide +kernel
  have hreaches : Reaches true leastBody 1 ⟨BitVec.ofNat 128 (2 ^ 63), []⟩ :=
    .again .start (by decide +kernel) hround
  obtain ⟨hread, hheads⟩ := ofLiteral_never_traps leastLiteral
  exact ⟨hread, hreaches, (hheads true leastBody hsign 1 _ hreaches).2⟩

end Run

end TraceSearch.Duration.FixedWidth
