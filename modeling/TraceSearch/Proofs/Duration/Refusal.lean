import TraceSearch.Proofs.Duration.Attempt
import TraceSearch.Proofs.Duration.Notation

/-!
# Refused durations

A literal is read group by group up to the first attempt that is no group or leaves the limit of its
sign. Main fact: `refused_by_first_fault`, that attempt decides the refusal, and nothing behind it
has a part in it.
-/

namespace TraceSearch

namespace Duration

theorem head?_append_of {p : Char → Prop} {s t : List Char} (hs : ∀ c ∈ s.head?, p c)
    (ht : s = [] → ∀ c ∈ t.head?, p c) : ∀ c ∈ (s ++ t).head?, p c := by
  cases s with
  | nil => exact ht rfl
  | cons d s => exact hs

theorem addGroups_of_ne_nil {limit bound before : Nat} {s : List Char} (h : s ≠ []) :
    addGroups limit (bound + 1) before s =
      match readGroup s with
      | .error fault => .error fault
      | .ok (group, rest) =>
        if limit < before + group.nanoseconds then .error .outOfRange
        else addGroups limit bound (before + group.nanoseconds) rest := by
  cases s with
  | nil => contradiction
  | cons c s => rfl

theorem exists_bound {s : List Char} {bound : Nat} (hne : s ≠ []) (hbound : s.length ≤ bound) :
    ∃ remaining, bound = remaining + 1 :=
  Nat.exists_eq_add_one.2 (Nat.lt_of_lt_of_le (List.length_pos_of_ne_nil hne) hbound)

/-- Groups within the limit are added up, and reading goes on behind them. -/
theorem addGroups_append {limit before bound : Nat} {groups : List Group} {text rest : List Char}
    (h : Spelled groups text) (hrest : groups ≠ [] → ∀ c ∈ rest.head?, isSymbolChar c = false)
    (hbound : (text ++ rest).length ≤ bound) (hlimit : before + total groups ≤ limit) :
    ∃ remaining, rest.length ≤ remaining ∧
      addGroups limit bound before (text ++ rest) =
        addGroups limit remaining (before + total groups) rest := by
  induction h generalizing before bound with
  | nil => exact ⟨bound, hbound, rfl⟩
  | @cons g groups text others first spelled ih =>
    have hhead : ∀ c ∈ (others ++ rest).head?, isSymbolChar c = false :=
      head?_append_of spelled.head fun _ => hrest (List.cons_ne_nil g groups)
    have hread := readGroup_append first hhead
    have hpos := first.length_pos
    have hne : text ++ (others ++ rest) ≠ [] := by
      intro hnil
      rw [(List.append_eq_nil_iff.1 hnil).1] at hpos
      contradiction
    rw [total_cons, ← Nat.add_assoc] at hlimit ⊢
    rw [List.append_assoc] at hbound ⊢
    obtain ⟨bound, rfl⟩ := exists_bound hne hbound
    rw [List.length_append] at hbound
    have hshort : (others ++ rest).length ≤ bound := by omega
    obtain ⟨remaining, hremaining, hadd⟩ :=
      ih (fun _ => hrest (List.cons_ne_nil g groups)) hshort hlimit
    refine ⟨remaining, hremaining, ?_⟩
    rw [addGroups_of_ne_nil hne, hread]
    dsimp only
    rw [if_neg (by omega), hadd]

/-- A faulty attempt ends the reading, whatever follows it. -/
theorem addGroups_of_fails {a : Attempt} {limit before bound : Nat} {rest : List Char}
    {fault : Fault} (hends : a.EndsBefore rest) (hne : a.text ++ rest ≠ [])
    (hbound : (a.text ++ rest).length ≤ bound) (h : a.Fails limit before fault) :
    addGroups limit bound before (a.text ++ rest) = .error fault := by
  obtain ⟨bound, rfl⟩ := exists_bound hne hbound
  rw [addGroups_of_ne_nil hne]
  cases h with
  | noNumber hnone => rw [Attempt.readGroup_noNumber hends hnone]
  | noUnit hnumber hnone => rw [Attempt.readGroup_noUnit hends hnumber hnone]
  | unknownUnit hnumber hsome hunknown =>
    rw [Attempt.readGroup_unknownUnit hends hnumber hsome hunknown]
  | outOfRange hnumber hknown hbeyond =>
    rw [Attempt.readGroup_known hends hnumber hknown]
    exact if_pos hbeyond

/-- A text is read as groups, an attempt, and what follows the attempt. -/
structure Reading (groups : List Group) (a : Attempt) (rest body : List Char) : Prop where
  spelled : ∃ text, Spelled groups text ∧ body = text ++ (a.text ++ rest)
  opens : groups ≠ [] → a.Opens
  ends : a.EndsBefore rest

theorem Reading.first {a : Attempt} {rest : List Char} (h : a.EndsBefore rest) :
    Reading [] a rest (a.text ++ rest) :=
  ⟨⟨[], .nil, rfl⟩, fun hne => absurd rfl hne, h⟩

theorem Reading.cons {groups : List Group} {a b : Attempt} {rest tail : List Char} {unit : TimeUnit}
    (hends : b.EndsBefore tail) (hnumber : b.HasNumber) (hknown : b.symbol ∈ unit.symbols)
    (hne : tail ≠ []) (h : Reading groups a rest tail) :
    Reading (b.group unit :: groups) a rest (b.text ++ tail) := by
  obtain ⟨text, hspelled, htail⟩ := h.spelled
  refine ⟨⟨b.text ++ text, .cons (b.spelled hnumber hknown) hspelled, ?_⟩, fun _ => ?_, h.ends⟩
  · rw [htail, List.append_assoc]
  · cases hspelled with
    | nil =>
      rw [List.nil_append] at htail
      rw [htail] at hne hends
      exact a.opens_of_head h.ends hne fun c hc => (hends c hc).1
    | cons => exact h.opens (List.cons_ne_nil _ _)

/-- A sum that fails does so at the first attempt that fails. -/
theorem reading_of_addGroups {limit bound before : Nat} {s : List Char} {fault : Fault}
    (hbound : s.length ≤ bound) (hbefore : before ≤ limit)
    (h : addGroups limit bound before s = .error fault) :
    ∃ groups a rest, Reading groups a rest s ∧ before + total groups ≤ limit ∧
      a.Fails limit (before + total groups) fault := by
  induction bound generalizing before s with
  | zero =>
    obtain rfl := List.length_eq_zero_iff.1 (Nat.le_zero.1 hbound)
    contradiction
  | succ bound ih =>
    by_cases hne : s = []
    · subst hne
      contradiction
    obtain ⟨a, rest, rfl, hends⟩ := exists_attempt s
    rcases a.fails_or_sound limit before with ⟨other, hfails⟩ | ⟨unit, hnumber, hknown, hwithin⟩
    · rw [addGroups_of_fails hends hne hbound hfails] at h
      cases h
      exact ⟨[], a, rest, .first hends, hbefore, hfails⟩
    · rw [addGroups_of_ne_nil hne, Attempt.readGroup_known hends hnumber hknown] at h
      dsimp only at h
      rw [if_neg (Nat.not_lt.2 hwithin)] at h
      have hpos := (a.spelled hnumber hknown).length_pos
      rw [List.length_append] at hbound
      obtain ⟨groups, b, tail, hreading, hlimit, hfails⟩ := ih (by omega) hwithin h
      have hrest : rest ≠ [] := by
        rintro rfl
        rw [addGroups_nil] at h
        contradiction
      rw [Nat.add_assoc, ← total_cons] at hlimit hfails
      exact ⟨a.group unit :: groups, b, tail, hreading.cons hends hnumber hknown hrest, hlimit,
        hfails⟩

theorem Reading.not_hasNumber {groups : List Group} {a : Attempt} {rest : List Char}
    (h : Reading groups a rest []) : ¬ a.HasNumber := by
  intro hnumber
  obtain ⟨text, -, hbody⟩ := h.spelled
  obtain ⟨c, tail, htext, -⟩ := hnumber.opens.head rest
  rw [htext] at hbody
  simp at hbody

theorem Reading.attempt_ne_nil {groups : List Group} {a : Attempt} {rest body : List Char}
    (h : Reading groups a rest body) (hbody : body ≠ []) : a.text ++ rest ≠ [] := by
  obtain ⟨text, hspelled, rfl⟩ := h.spelled
  cases hspelled with
  | nil => exact hbody
  | cons =>
    obtain ⟨c, tail, htext, -⟩ := (h.opens (List.cons_ne_nil _ _)).head rest
    rw [htext]
    exact List.cons_ne_nil c tail

theorem readMagnitude_of_reading {negative : Bool} {groups : List Group} {a : Attempt}
    {rest body : List Char} {fault : Fault} (h : Reading groups a rest body) (hzero : body ≠ ['0'])
    (hlimit : total groups ≤ magnitudeLimit negative)
    (hfails : a.Fails (magnitudeLimit negative) (total groups) fault) :
    readMagnitude negative body = .error fault := by
  rw [readMagnitude, if_neg hzero]
  split
  · rename_i hempty
    subst hempty
    rw [hfails.unique (.noNumber h.not_hasNumber)]
  · rename_i hne
    have hrest : groups ≠ [] → ∀ c ∈ (a.text ++ rest).head?, isSymbolChar c = false := by
      intro hsome c hc
      obtain ⟨d, tail, htext, hd⟩ := (h.opens hsome).head rest
      rw [htext] at hc
      cases hc
      exact hd
    have hmore := h.attempt_ne_nil hne
    obtain ⟨text, hspelled, rfl⟩ := h.spelled
    rw [← Nat.zero_add (total groups)] at hlimit hfails
    obtain ⟨remaining, hremaining, hadd⟩ := addGroups_append hspelled hrest (Nat.le_refl _) hlimit
    rw [hadd]
    exact addGroups_of_fails h.ends hmore hremaining hfails

theorem reading_of_readMagnitude {negative : Bool} {body : List Char} {fault : Fault}
    (h : readMagnitude negative body = .error fault) :
    body ≠ ['0'] ∧ ∃ groups a rest, Reading groups a rest body ∧
      total groups ≤ magnitudeLimit negative ∧
      a.Fails (magnitudeLimit negative) (total groups) fault := by
  unfold readMagnitude at h
  split at h
  · contradiction
  rename_i hzero
  refine ⟨hzero, ?_⟩
  split at h
  · rename_i hempty
    cases h
    subst hempty
    obtain ⟨a, rest, hbody, hends⟩ := exists_attempt []
    have hreading : Reading [] a rest [] := hbody ▸ Reading.first hends
    exact ⟨[], a, rest, hreading, Nat.zero_le _, .noNumber hreading.not_hasNumber⟩
  · obtain ⟨groups, a, rest, hreading, hlimit, hfails⟩ :=
      reading_of_addGroups (Nat.le_refl _) (Nat.zero_le _) h
    rw [Nat.zero_add] at hlimit hfails
    exact ⟨groups, a, rest, hreading, hlimit, hfails⟩

/-- A literal whose first faulty group is `a`: the groups before it stay within the limit of the
sign, and `a` has no number, or no known unit, or leaves the limit. -/
structure FirstFault (literal : String) (negative : Bool) (groups : List Group) (a : Attempt)
    (rest : List Char) : Prop where
  given : literal ≠ ""
  reading : ∃ body, splitSign literal.toList = (negative, body) ∧ body ≠ ['0'] ∧
    Reading groups a rest body
  within : total groups ≤ if negative then 2 ^ 63 else 2 ^ 63 - 1
  faulty : ¬ ∃ unit : TimeUnit, a.HasNumber ∧ a.symbol ∈ unit.symbols ∧
    total (groups ++ [a.group unit]) ≤ if negative then 2 ^ 63 else 2 ^ 63 - 1

theorem magnitudeLimit_eq (negative : Bool) :
    magnitudeLimit negative = if negative then 2 ^ 63 else 2 ^ 63 - 1 := by
  cases negative <;> rfl

theorem ofLiteral_of_firstFault {literal : String} {negative : Bool} {groups : List Group}
    {a : Attempt} {rest : List Char} {fault : Fault}
    (h : FirstFault literal negative groups a rest)
    (hfails : a.Fails (magnitudeLimit negative) (total groups) fault) :
    ofLiteral literal = .error (.faulty fault literal) := by
  obtain ⟨body, hsplit, hzero, hreading⟩ := h.reading
  have hlimit := h.within
  rw [← magnitudeLimit_eq] at hlimit
  rw [ofLiteral_of_ne_empty h.given, hsplit]
  simp only [readMagnitude_of_reading hreading hzero hlimit hfails]

theorem firstFault_of_ofLiteral {literal kept : String} {fault : Fault}
    (h : ofLiteral literal = .error (.faulty fault kept)) :
    kept = literal ∧ ∃ negative groups a rest, FirstFault literal negative groups a rest := by
  have hne : literal ≠ "" := by
    intro hempty
    rw [ofLiteral_eq_empty_iff.2 hempty] at h
    cases h
  rw [ofLiteral_of_ne_empty hne] at h
  cases hread : readMagnitude (splitSign literal.toList).1 (splitSign literal.toList).2 with
  | ok n => simp [hread] at h
  | error other =>
    simp only [hread, Except.error.injEq, LiteralError.faulty.injEq] at h
    obtain ⟨hzero, groups, a, rest, hreading, hlimit, hfails⟩ := reading_of_readMagnitude hread
    rw [magnitudeLimit_eq] at hlimit
    refine ⟨h.2.symm, (splitSign literal.toList).1, groups, a, rest, hne,
      ⟨(splitSign literal.toList).2, rfl, hzero, hreading⟩, hlimit, ?_⟩
    rintro ⟨unit, hnumber, hknown, hwithin⟩
    rw [← magnitudeLimit_eq, total_append, total_singleton] at hwithin
    have hbeyond := hfails.beyond hnumber hknown
    omega

/-- Only the empty text is refused as empty. Any other refusal keeps the literal and comes from the
first faulty group: from what is written there and from the total before it, never from the text
behind it. -/
theorem refused_by_first_fault :
    (∀ literal, ofLiteral literal = .error .empty ↔ literal = "") ∧
    (∀ literal fault kept, ofLiteral literal = .error (.faulty fault kept) →
      kept = literal ∧ ∃ negative groups a rest, FirstFault literal negative groups a rest) ∧
    ∀ negative groups a, ∃ fault, ∀ literal rest, FirstFault literal negative groups a rest →
      ofLiteral literal = .error (.faulty fault literal) ∧
      (fault = .noNumber ↔ ¬ a.HasNumber) ∧
      (fault = .noUnit ↔ a.HasNumber ∧ ∀ c ∈ (a.symbol ++ rest).head?, c = '.') ∧
      (∀ symbol, fault = .unknownUnit symbol ↔
        a.HasNumber ∧ a.symbol ≠ [] ∧ (∀ unit : TimeUnit, a.symbol ∉ unit.symbols) ∧
          symbol = String.ofList a.symbol) ∧
      (fault = .outOfRange ↔ ∃ unit : TimeUnit, a.HasNumber ∧ a.symbol ∈ unit.symbols ∧
        (if negative then 2 ^ 63 else 2 ^ 63 - 1) < total (groups ++ [a.group unit])) := by
  refine ⟨fun literal => ofLiteral_eq_empty_iff,
    fun literal fault kept => firstFault_of_ofLiteral, ?_⟩
  intro negative groups a
  rcases a.fails_or_sound (magnitudeLimit negative) (total groups) with
    ⟨fault, hfails⟩ | ⟨unit, hnumber, hknown, hwithin⟩
  · refine ⟨fault, fun literal rest h => ?_⟩
    obtain ⟨body, -, -, hreading⟩ := h.reading
    refine ⟨ofLiteral_of_firstFault h hfails, hfails.eq_noNumber_iff, ?_,
      fun symbol => hfails.eq_unknownUnit_iff, ?_⟩
    · rw [← hreading.ends.symbol_eq_nil_iff]
      exact hfails.eq_noUnit_iff
    · simp only [total_append, total_singleton, ← magnitudeLimit_eq]
      exact hfails.eq_outOfRange_iff
  · refine ⟨.noNumber, fun literal rest h => absurd ?_ h.faulty⟩
    rw [← magnitudeLimit_eq]
    refine ⟨unit, hnumber, hknown, ?_⟩
    rwa [total_append, total_singleton]

/-- Two hours, then weeks too many to count. -/
def weeksLiteral : String := "-2h99999999999999999999.5weeks.7"

def weeks : Attempt where
  whole := List.replicate 20 '9'
  fraction := some ['5']
  symbol := ['w', 'e', 'e', 'k', 's']
  whole_digits := List.all_eq_true.1 rfl
  fraction_digits := by
    rintro ds ⟨⟩
    exact List.all_eq_true.1 rfl
  symbol_chars := List.all_eq_true.1 rfl

theorem refused_by_first_fault_weeks :
    FirstFault weeksLiteral true [⟨['2'], [], .hour⟩] weeks ['.', '7'] ∧
      ofLiteral weeksLiteral = .error (.faulty (.unknownUnit "weeks") weeksLiteral) ∧
      ∃ negative groups a rest, FirstFault weeksLiteral negative groups a rest := by
  have hunknown : ∀ unit : TimeUnit, weeks.symbol ∉ unit.symbols := by
    intro unit
    cases unit <;> decide
  have hspelled : Spelled [⟨['2'], [], .hour⟩] (['2'] ++ ['h'] ++ []) :=
    .cons (.whole (List.cons_ne_nil _ _) (List.all_eq_true.1 rfl) (by decide)) .nil
  have hends : weeks.EndsBefore ['.', '7'] := by
    rintro c ⟨⟩
    exact ⟨rfl, nofun⟩
  have hreading : Reading [⟨['2'], [], .hour⟩] weeks ['.', '7']
      (['2'] ++ ['h'] ++ [] ++ (weeks.text ++ ['.', '7'])) :=
    ⟨⟨_, hspelled, rfl⟩, fun _ => Or.inl (List.cons_ne_nil _ _), hends⟩
  have hfault : FirstFault weeksLiteral true [⟨['2'], [], .hour⟩] weeks ['.', '7'] :=
    ⟨by decide +kernel, ⟨_, by decide +kernel, by decide, hreading⟩, by decide,
      fun ⟨unit, _, hknown, _⟩ => hunknown unit hknown⟩
  obtain ⟨-, hkept, hkinds⟩ := refused_by_first_fault
  obtain ⟨fault, hkind⟩ := hkinds true [⟨['2'], [], .hour⟩] weeks
  obtain ⟨hrefused, -, -, hsymbol, -⟩ := hkind weeksLiteral ['.', '7'] hfault
  have hweeks : fault = .unknownUnit "weeks" :=
    (hsymbol "weeks").2 ⟨Or.inl (List.cons_ne_nil _ _), List.cons_ne_nil _ _, hunknown, rfl⟩
  rw [hweeks] at hrefused
  exact ⟨hfault, hrefused, (hkept _ _ _ hrefused).2⟩

end Duration

end TraceSearch
