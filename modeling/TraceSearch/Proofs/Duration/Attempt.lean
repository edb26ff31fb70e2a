import TraceSearch.Proofs.Duration.Grammar

/-!
# Attempts at a group

Wherever a group of a literal is expected there is an attempt at one: digits, perhaps digits behind
a point, and a symbol. Main facts: `exists_attempt`, every text starts with an attempt, and
`Attempt.readGroup_text`, what is read at an attempt depends on the attempt alone.
-/

namespace TraceSearch

namespace Duration

/-- What stands where a group is expected: digits, perhaps digits behind a point, and characters of
a unit, each as far as they go. -/
structure Attempt where
  whole : List Char
  fraction : Option (List Char)
  symbol : List Char
  whole_digits : ∀ c ∈ whole, c.isDigit = true
  fraction_digits : ∀ ds ∈ fraction, ∀ c ∈ ds, c.isDigit = true
  symbol_chars : ∀ c ∈ symbol, isSymbolChar c = true

namespace Attempt

def text (a : Attempt) : List Char :=
  a.whole ++ (a.fraction.elim [] ('.' :: ·) ++ a.symbol)

def HasNumber (a : Attempt) : Prop := a.whole ≠ [] ∨ a.fraction.getD [] ≠ []

def group (a : Attempt) (unit : TimeUnit) : Group := ⟨a.whole, a.fraction.getD [], unit⟩

/-- An attempt starts as a group does, with a digit or a point. -/
def Opens (a : Attempt) : Prop := a.whole ≠ [] ∨ a.fraction ≠ none

/-- A text that continues none of the parts of an attempt. -/
def EndsBefore (a : Attempt) (rest : List Char) : Prop :=
  ∀ c ∈ rest.head?, isSymbolChar c = false ∧ (a.symbol = [] → c = '.' ∧ a.fraction ≠ none)

/-- What is wrong with an attempt after groups of `before` nanoseconds. -/
inductive Fails (limit before : Nat) (a : Attempt) : Fault → Prop where
  | noNumber (none : ¬ a.HasNumber) : Fails limit before a .noNumber
  | noUnit (number : a.HasNumber) (none : a.symbol = []) : Fails limit before a .noUnit
  | unknownUnit (number : a.HasNumber) (some : a.symbol ≠ [])
      (unknown : ∀ unit : TimeUnit, a.symbol ∉ unit.symbols) :
      Fails limit before a (.unknownUnit (String.ofList a.symbol))
  | outOfRange {unit : TimeUnit} (number : a.HasNumber) (known : a.symbol ∈ unit.symbols)
      (beyond : limit < before + (a.group unit).nanoseconds) : Fails limit before a .outOfRange

end Attempt

theorem not_isDigit_of_isSymbolChar {c : Char} (h : isSymbolChar c = true) :
    c.isDigit = false ∧ c ≠ '.' := by
  simp only [isSymbolChar, Bool.not_eq_true', Bool.or_eq_false_iff, beq_eq_false_iff_ne] at h
  exact ⟨h.2, h.1⟩

namespace Attempt

variable {a : Attempt} {rest : List Char}

theorem EndsBefore.symbol_append (h : a.EndsBefore rest) {c : Char}
    (hc : c ∈ (a.symbol ++ rest).head?) : c.isDigit = false ∧ (a.fraction = none → c ≠ '.') := by
  cases hsymbol : a.symbol with
  | nil =>
    rw [hsymbol, List.nil_append] at hc
    obtain ⟨rfl, hpointed⟩ := (h c hc).2 hsymbol
    exact ⟨rfl, fun hnone => absurd hnone hpointed⟩
  | cons d ds =>
    rw [hsymbol] at hc
    cases hc
    have hd := a.symbol_chars c (hsymbol ▸ List.mem_cons_self)
    obtain ⟨hdigit, hpoint⟩ := not_isDigit_of_isSymbolChar hd
    exact ⟨hdigit, fun _ => hpoint⟩

theorem EndsBefore.symbol_eq_nil_iff (h : a.EndsBefore rest) :
    a.symbol = [] ↔ ∀ c ∈ (a.symbol ++ rest).head?, c = '.' := by
  constructor
  · intro hnone c hc
    rw [hnone, List.nil_append] at hc
    exact ((h c hc).2 hnone).1
  · intro hpoint
    cases hsymbol : a.symbol with
    | nil => rfl
    | cons d ds =>
      have hd := a.symbol_chars d (hsymbol ▸ List.mem_cons_self)
      rw [hpoint d (by rw [hsymbol]; rfl)] at hd
      contradiction

/-- The parts of an attempt are what the reader of a group takes a text apart into. -/
theorem EndsBefore.split (h : a.EndsBefore rest) :
    Decimal.splitDigits (a.text ++ rest) =
        (a.whole, a.fraction.elim [] ('.' :: ·) ++ (a.symbol ++ rest)) ∧
      splitFraction (a.fraction.elim [] ('.' :: ·) ++ (a.symbol ++ rest)) =
        (a.fraction.getD [], a.symbol ++ rest) := by
  rw [text, List.append_assoc, List.append_assoc]
  cases hfraction : a.fraction with
  | none =>
    have hdigit : ∀ c ∈ (a.symbol ++ rest).head?, c.isDigit = false :=
      fun c hc => (h.symbol_append hc).1
    refine ⟨Decimal.splitDigits_of_all a.whole_digits _ hdigit, ?_⟩
    show splitFraction (a.symbol ++ rest) = ([], a.symbol ++ rest)
    rw [splitFraction]
    intro tail htail
    exact (h.symbol_append (c := '.') (by rw [htail]; rfl)).2 hfraction rfl
  | some ds =>
    constructor
    · refine Decimal.splitDigits_of_all a.whole_digits _ ?_
      intro c hc
      cases hc
      rfl
    · exact Decimal.splitDigits_of_all (a.fraction_digits ds hfraction) _
        fun c hc => (h.symbol_append hc).1

theorem EndsBefore.symbolRun (h : a.EndsBefore rest) :
    (a.symbol ++ rest).takeWhile isSymbolChar = a.symbol ∧
      (a.symbol ++ rest).dropWhile isSymbolChar = rest :=
  symbolRun_append a.symbol_chars fun c hc => (h c hc).1

theorem readGroup_text (h : a.EndsBefore rest) :
    readGroup (a.text ++ rest) =
      if a.whole.isEmpty && (a.fraction.getD []).isEmpty then .error .noNumber
      else if a.symbol.isEmpty then .error .noUnit
      else
        match TimeUnit.ofSymbol? a.symbol with
        | none => .error (.unknownUnit (String.ofList a.symbol))
        | some unit => .ok (a.group unit, rest) := by
  obtain ⟨hwhole, hfraction⟩ := h.split
  obtain ⟨htake, hdrop⟩ := h.symbolRun
  simp only [readGroup, hwhole, hfraction, htake, hdrop]
  rfl

theorem hasNumber_iff :
    a.HasNumber ↔ (a.whole.isEmpty && (a.fraction.getD []).isEmpty) = false := by
  rw [HasNumber, ← Bool.not_eq_true, Bool.and_eq_true, List.isEmpty_iff, List.isEmpty_iff,
    not_and_or]

theorem readGroup_noNumber (h : a.EndsBefore rest) (hnone : ¬ a.HasNumber) :
    readGroup (a.text ++ rest) = .error .noNumber := by
  rw [hasNumber_iff, Bool.not_eq_false] at hnone
  rw [readGroup_text h, if_pos hnone]

theorem readGroup_noUnit (h : a.EndsBefore rest) (hnumber : a.HasNumber) (hnone : a.symbol = []) :
    readGroup (a.text ++ rest) = .error .noUnit := by
  rw [hasNumber_iff] at hnumber
  rw [readGroup_text h, hnumber, hnone]
  rfl

theorem readGroup_unknownUnit (h : a.EndsBefore rest) (hnumber : a.HasNumber)
    (hsome : a.symbol ≠ []) (hunknown : ∀ unit : TimeUnit, a.symbol ∉ unit.symbols) :
    readGroup (a.text ++ rest) = .error (.unknownUnit (String.ofList a.symbol)) := by
  have hnone : TimeUnit.ofSymbol? a.symbol = none := by
    cases hunit : TimeUnit.ofSymbol? a.symbol with
    | none => rfl
    | some unit => exact absurd (TimeUnit.mem_symbols_of_ofSymbol? hunit) (hunknown unit)
  rw [hasNumber_iff] at hnumber
  rw [readGroup_text h, hnumber, hnone]
  simp [hsome]

theorem spelled {unit : TimeUnit} (hnumber : a.HasNumber) (hknown : a.symbol ∈ unit.symbols) :
    (a.group unit).Spelled a.text := by
  unfold group text
  unfold HasNumber at hnumber
  cases hfraction : a.fraction with
  | none =>
    rw [hfraction] at hnumber
    have hne : a.whole ≠ [] := hnumber.resolve_right fun h => h rfl
    exact .whole hne a.whole_digits hknown
  | some ds =>
    rw [hfraction] at hnumber
    have hne : a.whole ++ ds ≠ [] := by
      rw [Ne, List.append_eq_nil_iff, not_and_or]
      exact hnumber
    have hdigits : ∀ c ∈ a.whole ++ ds, c.isDigit = true := by
      intro c hc
      rcases List.mem_append.1 hc with hc | hc
      · exact a.whole_digits c hc
      · exact a.fraction_digits ds hfraction c hc
    have hpointed := Group.Spelled.pointed hne hdigits hknown
    rw [List.append_assoc] at hpointed
    exact hpointed

theorem readGroup_known (h : a.EndsBefore rest) (hnumber : a.HasNumber) {unit : TimeUnit}
    (hknown : a.symbol ∈ unit.symbols) : readGroup (a.text ++ rest) = .ok (a.group unit, rest) :=
  readGroup_append (a.spelled hnumber hknown) fun c hc => (h c hc).1

section Fails

variable {limit before : Nat} {fault : Fault}

theorem Fails.unique {other : Fault} (h : a.Fails limit before fault)
    (hother : a.Fails limit before other) : fault = other := by
  cases h with
  | noNumber hnone =>
    cases hother with
    | noNumber => rfl
    | noUnit hnumber => contradiction
    | unknownUnit hnumber => contradiction
    | outOfRange hnumber => contradiction
  | noUnit hnumber hnone =>
    cases hother with
    | noNumber => contradiction
    | noUnit => rfl
    | unknownUnit _ hsome => contradiction
    | outOfRange _ hknown => exact absurd hnone (isSymbolChar_of_mem hknown).1
  | unknownUnit hnumber hsome hunknown =>
    cases hother with
    | noNumber => contradiction
    | noUnit => contradiction
    | unknownUnit => rfl
    | outOfRange _ hknown => exact absurd hknown (hunknown _)
  | outOfRange hnumber hknown =>
    cases hother with
    | noNumber => contradiction
    | noUnit _ hnone => exact absurd hnone (isSymbolChar_of_mem hknown).1
    | unknownUnit _ _ hunknown => exact absurd hknown (hunknown _)
    | outOfRange => rfl

theorem Fails.beyond {unit : TimeUnit} (h : a.Fails limit before fault) (hnumber : a.HasNumber)
    (hknown : a.symbol ∈ unit.symbols) : limit < before + (a.group unit).nanoseconds := by
  cases h with
  | noNumber hnone => contradiction
  | noUnit _ hnone => exact absurd hnone (isSymbolChar_of_mem hknown).1
  | unknownUnit _ _ hunknown => exact absurd hknown (hunknown unit)
  | outOfRange _ hother hbeyond =>
    have hunit := (TimeUnit.ofSymbol?_of_mem hother).symm.trans (TimeUnit.ofSymbol?_of_mem hknown)
    cases hunit
    exact hbeyond

theorem Fails.eq_noNumber_iff (h : a.Fails limit before fault) :
    fault = .noNumber ↔ ¬ a.HasNumber := by
  refine ⟨?_, fun hnone => h.unique (.noNumber hnone)⟩
  rintro rfl
  cases h
  assumption

theorem Fails.eq_noUnit_iff (h : a.Fails limit before fault) :
    fault = .noUnit ↔ a.HasNumber ∧ a.symbol = [] := by
  refine ⟨?_, fun ⟨hnumber, hnone⟩ => h.unique (.noUnit hnumber hnone)⟩
  rintro rfl
  cases h with
  | noUnit hnumber hnone => exact ⟨hnumber, hnone⟩

theorem Fails.eq_unknownUnit_iff {symbol : String} (h : a.Fails limit before fault) :
    fault = .unknownUnit symbol ↔
      a.HasNumber ∧ a.symbol ≠ [] ∧ (∀ unit : TimeUnit, a.symbol ∉ unit.symbols) ∧
        symbol = String.ofList a.symbol := by
  constructor
  · rintro rfl
    cases h with
    | unknownUnit hnumber hsome hunknown => exact ⟨hnumber, hsome, hunknown, rfl⟩
  · rintro ⟨hnumber, hsome, hunknown, rfl⟩
    exact h.unique (.unknownUnit hnumber hsome hunknown)

theorem Fails.eq_outOfRange_iff (h : a.Fails limit before fault) :
    fault = .outOfRange ↔ ∃ unit : TimeUnit, a.HasNumber ∧ a.symbol ∈ unit.symbols ∧
      limit < before + (a.group unit).nanoseconds := by
  constructor
  · rintro rfl
    cases h with
    | outOfRange hnumber hknown hbeyond => exact ⟨_, hnumber, hknown, hbeyond⟩
  · rintro ⟨unit, hnumber, hknown, hbeyond⟩
    exact h.unique (.outOfRange hnumber hknown hbeyond)

end Fails

/-- An attempt without a fault is a group that stays within the limit. -/
theorem fails_or_sound (a : Attempt) (limit before : Nat) :
    (∃ fault, a.Fails limit before fault) ∨
      ∃ unit : TimeUnit, a.HasNumber ∧ a.symbol ∈ unit.symbols ∧
        before + (a.group unit).nanoseconds ≤ limit := by
  by_cases hnumber : a.HasNumber
  swap
  · exact Or.inl ⟨_, .noNumber hnumber⟩
  by_cases hnone : a.symbol = []
  · exact Or.inl ⟨_, .noUnit hnumber hnone⟩
  by_cases hunknown : ∀ unit : TimeUnit, a.symbol ∉ unit.symbols
  · exact Or.inl ⟨_, .unknownUnit hnumber hnone hunknown⟩
  obtain ⟨unit, hknown⟩ := not_forall_not.1 hunknown
  rcases Nat.lt_or_ge limit (before + (a.group unit).nanoseconds) with hbeyond | hwithin
  · exact Or.inl ⟨_, .outOfRange hnumber hknown hbeyond⟩
  · exact Or.inr ⟨unit, hnumber, hknown, hwithin⟩

theorem opens_of_head (h : a.EndsBefore rest) (hne : a.text ++ rest ≠ [])
    (hhead : ∀ c ∈ (a.text ++ rest).head?, isSymbolChar c = false) : a.Opens := by
  by_contra hclosed
  obtain ⟨hwhole, hfraction⟩ := not_or.1 hclosed
  have htext : a.text = a.symbol := by
    rw [text, not_not.1 hwhole, not_not.1 hfraction]
    rfl
  rw [htext] at hne hhead
  cases hsymbol : a.symbol with
  | nil =>
    rw [hsymbol, List.nil_append] at hne
    obtain ⟨c, cs, rfl⟩ := List.exists_cons_of_ne_nil hne
    exact hfraction ((h c rfl).2 hsymbol).2
  | cons c cs =>
    rw [hsymbol] at hhead
    have hc := hhead c rfl
    rw [a.symbol_chars c (hsymbol ▸ List.mem_cons_self)] at hc
    contradiction

theorem Opens.head (h : a.Opens) (rest : List Char) :
    ∃ c tail, a.text ++ rest = c :: tail ∧ isSymbolChar c = false := by
  unfold text
  cases hwhole : a.whole with
  | nil =>
    cases hfraction : a.fraction with
    | none => exact absurd h (not_or.2 ⟨not_not.2 hwhole, not_not.2 hfraction⟩)
    | some ds => exact ⟨'.', _, rfl, rfl⟩
  | cons d ds =>
    have hd := a.whole_digits d (hwhole ▸ List.mem_cons_self)
    exact ⟨d, _, rfl, by simp [isSymbolChar, hd]⟩

theorem HasNumber.opens (h : a.HasNumber) : a.Opens := by
  refine h.imp_right fun hfraction hnone => hfraction ?_
  rw [hnone]
  rfl

end Attempt

theorem head?_dropWhile {p : Char → Bool} {s : List Char} :
    ∀ c ∈ (s.dropWhile p).head?, p c = false := by
  intro c hc
  have h := List.head?_dropWhile_not p s
  rw [Option.mem_def.1 hc] at h
  simpa using h

/-- Behind digits without a symbol there is a point or nothing. -/
theorem head?_of_bare {u : List Char} (hnone : u.takeWhile isSymbolChar = [])
    (hhead : ∀ c ∈ u.head?, c.isDigit = false) :
    u.dropWhile isSymbolChar = u ∧ ∀ c ∈ u.head?, c = '.' := by
  have hall : u.dropWhile isSymbolChar = u := by
    have hparts := List.takeWhile_append_dropWhile (p := isSymbolChar) (l := u)
    rwa [hnone, List.nil_append] at hparts
  refine ⟨hall, ?_⟩
  intro c hc
  have hsymbol := head?_dropWhile (p := isSymbolChar) c (hall.symm ▸ hc)
  rw [isSymbolChar, hhead c hc, Bool.or_false, Bool.not_eq_false'] at hsymbol
  exact eq_of_beq hsymbol

/-- Every text starts with an attempt, which may be empty. -/
theorem exists_attempt (s : List Char) :
    ∃ (a : Attempt) (rest : List Char), s = a.text ++ rest ∧ a.EndsBefore rest := by
  have hrun (p : Char → Bool) (u : List Char) : ∀ c ∈ u.takeWhile p, p c = true :=
    fun c hc => List.mem_takeWhile_imp hc
  have hparts (p : Char → Bool) (u : List Char) : u.takeWhile p ++ u.dropWhile p = u :=
    List.takeWhile_append_dropWhile
  by_cases hpointed : ∃ tail, s.dropWhile Char.isDigit = '.' :: tail
  · obtain ⟨tail, htail⟩ := hpointed
    have hfraction : ∀ ds ∈ some (tail.takeWhile Char.isDigit), ∀ c ∈ ds, c.isDigit = true := by
      rintro ds ⟨⟩
      exact hrun Char.isDigit tail
    refine ⟨⟨s.takeWhile Char.isDigit, some (tail.takeWhile Char.isDigit),
      (tail.dropWhile Char.isDigit).takeWhile isSymbolChar, hrun _ s, hfraction, hrun _ _⟩,
      (tail.dropWhile Char.isDigit).dropWhile isSymbolChar, ?_, ?_⟩
    · simp only [Attempt.text, Option.elim_some, List.cons_append, List.append_assoc, hparts]
      rw [← htail, hparts]
    · refine fun c hc => ⟨head?_dropWhile c hc, fun hnone => ⟨?_, nofun⟩⟩
      obtain ⟨hall, hpoint⟩ := head?_of_bare hnone head?_dropWhile
      rw [hall] at hc
      exact hpoint c hc
  · refine ⟨⟨s.takeWhile Char.isDigit, none, (s.dropWhile Char.isDigit).takeWhile isSymbolChar,
      hrun _ s, nofun, hrun _ _⟩, (s.dropWhile Char.isDigit).dropWhile isSymbolChar, ?_, ?_⟩
    · simp only [Attempt.text, Option.elim_none, List.nil_append, List.append_assoc, hparts]
    · refine fun c hc => ⟨head?_dropWhile c hc, fun hnone => absurd ?_ hpointed⟩
      obtain ⟨hall, hpoint⟩ := head?_of_bare hnone head?_dropWhile
      rw [hall] at hc
      obtain ⟨tail, htail⟩ := List.head?_eq_some_iff.1 hc
      exact ⟨tail, htail.trans (by rw [hpoint c hc])⟩

end Duration

end TraceSearch
