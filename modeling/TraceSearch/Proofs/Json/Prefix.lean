import TraceSearch.Proofs.Json.Literal

/-!
# Numbers are read as far as they go

A number may be spelled in many ways: with zeros behind its point, with an exponent of either case
and any sign. However it is spelled, it is read as far as it goes, so it is the same number alone
and inside a document. Main fact: `readNumber_append`.
-/

namespace TraceSearch.Json

open Decimal

section Append

variable {rest : List Char}

theorem splitDigits_append_rest (s : List Char) (hrest : ∀ c ∈ rest.head?, c.isDigit = false) :
    splitDigits (s ++ rest) = ((splitDigits s).1, (splitDigits s).2 ++ rest) := by
  induction s with
  | nil => exact splitDigits_of_all (List.forall_mem_nil _) rest hrest
  | cons c s ih =>
    simp only [splitDigits, Prod.mk.injEq] at ih
    by_cases hc : c.isDigit = true
    · simp [splitDigits, hc, ih.1, ih.2]
    · simp [splitDigits, hc]

theorem readDigits_append {s ds left : List Char} (h : readDigits s = .ok (ds, left))
    (hrest : ∀ c ∈ rest.head?, c.isDigit = false) :
    readDigits (s ++ rest) = .ok (ds, left ++ rest) := by
  unfold readDigits at h ⊢
  rw [splitDigits_append_rest s hrest]
  generalize splitDigits s = split at h ⊢
  obtain ⟨run, after⟩ := split
  cases run with
  | nil => cases after <;> cases h
  | cons d run =>
    cases h
    rfl

theorem readWhole_eq_ok_iff {s ds left : List Char} :
    readWhole s = .ok (ds, left) ↔
      readDigits s = .ok (ds, left) ∧ ∀ d es, ds ≠ '0' :: d :: es := by
  unfold readWhole
  cases readDigits s with
  | error e => simp
  | ok r =>
    obtain ⟨run, after⟩ := r
    split
    · rename_i heq
      cases heq
    · rename_i d es after heq
      cases heq
      refine ⟨fun h => (nomatch h), fun ⟨h, hleading⟩ => ?_⟩
      cases h
      exact absurd rfl (hleading d es)
    · rename_i hleading heq
      cases heq
      refine ⟨fun h => ⟨h, fun d es hds => ?_⟩, And.left⟩
      cases h
      exact hleading d es left (by rw [hds])

theorem readWhole_append {s ds left : List Char} (h : readWhole s = .ok (ds, left))
    (hrest : ∀ c ∈ rest.head?, c.isDigit = false) :
    readWhole (s ++ rest) = .ok (ds, left ++ rest) := by
  obtain ⟨hdigits, hleading⟩ := readWhole_eq_ok_iff.1 h
  exact readWhole_eq_ok_iff.2 ⟨readDigits_append hdigits hrest, hleading⟩

/-- The sign of an exponent, true for a minus. -/
def splitSign : List Char → Bool × List Char
  | '-' :: s => (true, s)
  | '+' :: s => (false, s)
  | s => (false, s)

theorem splitSign_append {s : List Char} (hs : s ≠ []) (rest : List Char) :
    splitSign (s ++ rest) = ((splitSign s).1, (splitSign s).2 ++ rest) := by
  cases s with
  | nil => exact absurd rfl hs
  | cons c s =>
    by_cases hminus : c = '-'
    · subst hminus
      rfl
    · by_cases hplus : c = '+'
      · subst hplus
        rfl
      · simp [splitSign, hminus, hplus]

theorem splitMinus_append {s : List Char} (hs : s ≠ []) (rest : List Char) :
    splitMinus (s ++ rest) = ((splitMinus s).1, (splitMinus s).2 ++ rest) := by
  cases s with
  | nil => exact absurd rfl hs
  | cons c s =>
    by_cases hminus : c = '-'
    · subst hminus
      rfl
    · simp [splitMinus, hminus]

variable (hrest : EndsNumber rest)

include hrest

theorem readFraction_append {s left : List Char} {f : Option (List Char)}
    (h : readFraction s = .ok (f, left)) : readFraction (s ++ rest) = .ok (f, left ++ rest) := by
  unfold readFraction at h
  split at h
  · rename_i s
    cases hdigits : readDigits s with
    | error e =>
      rw [hdigits] at h
      cases h
    | ok r =>
      rw [hdigits] at h
      cases h
      rw [List.cons_append, readFraction, readDigits_append hdigits fun c hc => (hrest c hc).1]
  · rename_i hpoint
    cases h
    cases s with
    | nil => exact readFraction_chars (f := none) (by simp) fun c hc =>
        ⟨(hrest c hc).1, (hrest c hc).2.1⟩
    | cons c s =>
      rw [List.cons_append, readFraction]
      rintro t heq
      cases heq
      exact hpoint s rfl

omit hrest in
theorem readExponent_cons (c : Char) (s : List Char) :
    readExponent (c :: s) =
      if c = 'e' ∨ c = 'E' then
        (readDigits (splitSign s).2).map fun (ds, left) => (some ((splitSign s).1, ds), left)
      else .ok (none, c :: s) := by
  let tagged : List Char × List Char → Option (Bool × List Char) × List Char :=
    fun (ds, left) => (some ((splitSign s).1, ds), left)
  rw [readExponent.eq_def]
  dsimp only
  congr 1
  split <;> rename_i heq <;> exact (congrArg (Except.map tagged) heq).symm

theorem readExponent_append {s left : List Char} {e : Option (Bool × List Char)}
    (h : readExponent s = .ok (e, left)) : readExponent (s ++ rest) = .ok (e, left ++ rest) := by
  cases s with
  | nil =>
    cases h
    exact readExponent_chars (e := none) (by simp) hrest
  | cons c s =>
    rw [readExponent_cons] at h
    rw [List.cons_append, readExponent_cons]
    by_cases hc : c = 'e' ∨ c = 'E'
    · rw [if_pos hc] at h ⊢
      obtain ⟨⟨ds, after⟩, hdigits, heq⟩ := map_eq_ok_iff.1 h
      cases heq
      have hs : s ≠ [] := by
        rintro rfl
        cases hdigits
      rw [splitSign_append hs rest, readDigits_append hdigits fun c hc => (hrest c hc).1]
      rfl
    · rw [if_neg hc] at h ⊢
      cases h
      rfl

theorem readNumberLiteral_append {s left : List Char} {l : NumberLiteral}
    (h : readNumberLiteral s = .ok (l, left)) :
    readNumberLiteral (s ++ rest) = .ok (l, left ++ rest) := by
  unfold readNumberLiteral at h ⊢
  have hs : s ≠ [] := by
    rintro rfl
    cases h
  rw [splitMinus_append hs rest]
  dsimp only [bind, Except.bind] at h ⊢
  split at h
  · contradiction
  rename_i hwhole
  split at h
  · contradiction
  rename_i hfraction
  split at h
  · contradiction
  rename_i hexponent
  cases h
  have hwhole := readWhole_append hwhole fun c hc => (hrest c hc).1
  have hfraction := readFraction_append hrest hfraction
  have hexponent := readExponent_append hrest hexponent
  simp only [hwhole, hfraction, hexponent]
  rfl

/-- A number is read alike whatever follows it. -/
theorem readNumber_append {s left : List Char} {n : Number}
    (h : readNumber true s = .ok (n, left)) :
    readNumber true (s ++ rest) = .ok (n, left ++ rest) := by
  unfold readNumber at h ⊢
  cases hliteral : readNumberLiteral s with
  | error e =>
    rw [hliteral] at h
    cases h
  | ok r =>
    obtain ⟨l, after⟩ := r
    rw [hliteral] at h
    rw [readNumberLiteral_append hrest hliteral]
    dsimp only at h ⊢
    cases hnumber : l.toNumber? with
    | none =>
      rw [hnumber] at h
      cases h
    | some m =>
      rw [hnumber] at h
      cases h
      rfl

end Append

/-- A skipped number is read as a kept one, if it can be kept. -/
theorem readNumber_kept {s : List Char} {r : Number × List Char} (h : readNumber true s = .ok r)
    (kept : Bool) : readNumber kept s = .ok r := by
  unfold readNumber at h ⊢
  cases hliteral : readNumberLiteral s with
  | error e =>
    rw [hliteral] at h
    cases h
  | ok result =>
    obtain ⟨l, after⟩ := result
    rw [hliteral] at h
    dsimp only at h ⊢
    cases hn : l.toNumber? with
    | none =>
      rw [hn] at h
      cases h
    | some m =>
      rw [hn] at h
      exact h

def StartsNumber (c : Char) : Prop := c = '-' ∨ c.isDigit = true

instance : DecidablePred StartsNumber := fun c =>
  inferInstanceAs (Decidable (c = '-' ∨ c.isDigit = true))

/-- What spells a number starts as one. -/
theorem startsNumber_of_readNumber {s left : List Char} {n : Number}
    (h : readNumber true s = .ok (n, left)) : ∃ c cs, s = c :: cs ∧ StartsNumber c := by
  cases s with
  | nil => cases h
  | cons c cs =>
    refine ⟨c, cs, rfl, ?_⟩
    refine Decidable.byContradiction fun hc => ?_
    obtain ⟨hminus, hdigit⟩ := not_or.1 hc
    have hsplit : splitDigits (c :: cs) = ([], c :: cs) := by simp [splitDigits, hdigit]
    simp [readNumber, readNumberLiteral, splitMinus, hminus, readWhole, readDigits, hsplit, bind,
      Except.bind] at h

end TraceSearch.Json
