import TraceSearch.Proofs.Search.Outcome

/-!
# Validation agrees with mapping

Validation and mapping are two passes over the same literals, each with an order and errors of its
own. Main fact: they stop at the same literal with the same cause, so what is validated is mapped,
and an intent that is mapped can only break a rule about the values of its parts.
-/

namespace TraceSearch

theorem bind_eq_error_iff {ε α β : Type} {x : Except ε α} {f : α → Except ε β} {e : ε} :
    x >>= f = .error e ↔ x = .error e ∨ ∃ a, x = .ok a ∧ f a = .error e := by
  cases x with
  | error cause =>
    constructor
    · intro h
      cases h
      exact Or.inl rfl
    · rintro (h | ⟨a, hx, -⟩)
      · cases h
        rfl
      · cases hx
  | ok a =>
    constructor
    · intro h
      exact Or.inr ⟨a, rfl, h⟩
    · rintro (h | ⟨b, hx, hf⟩)
      · cases h
      · cases hx
        exact hf

namespace Intent

/-- The error of mapping that a violation stands for: a literal that does not parse. The other
violations are about texts, tags and parsed values, which mapping does not look at. -/
def ValidationError.mappingError? : ValidationError → Option Query.MappingError
  | invalidDuration part cause => some (.duration part cause)
  | invalidTimestamp part cause => some (.timestamp part cause)
  | emptyField _ | negativeDuration _ | invertedDurations | emptyTag _ => none

theorem ValidationError.mappingError?_eq_none_iff {v : ValidationError} :
    v.mappingError? = none ↔
      (∃ part, v = .emptyField part) ∨ (∃ part, v = .negativeDuration part) ∨
        v = .invertedDurations ∨ ∃ key, v = .emptyTag key := by
  cases v <;> simp [mappingError?]

section Checks

variable {part : Part} {v : ValidationError}

theorem mappingError?_of_checkText {text : Option String} (h : checkText part text = .error v) :
    v.mappingError? = none := by
  unfold checkText at h
  split at h
  · cases h
    rfl
  · contradiction

theorem mappingError?_of_checkOrder {least greatest : Option Duration}
    (h : checkOrder least greatest = .error v) : v.mappingError? = none := by
  unfold checkOrder at h
  split at h
  · split at h
    · cases h
      rfl
    · contradiction
  · contradiction

theorem mappingError?_of_checkTags {tags : List (String × String)}
    (h : checkTags tags = .error v) : v.mappingError? = none := by
  induction tags with
  | nil => cases h
  | cons tag rest ih =>
    unfold checkTags at h
    split at h
    · cases h
      rfl
    · exact ih h

theorem durationBound_of_checkDuration_error {literal : Option String}
    (h : checkDuration part literal = .error v) :
    ∀ e ∈ v.mappingError?, Query.durationBound part literal = .error e := by
  intro e he
  cases literal with
  | none => cases h
  | some text =>
    cases hd : Duration.ofLiteral text with
    | error cause =>
      simp only [checkDuration, hd] at h
      cases h
      cases he
      rw [Query.durationBound, hd]
      rfl
    | ok d =>
      simp only [checkDuration, hd] at h
      split at h
      · cases h
        cases he
      · contradiction

theorem timeBound_of_checkTimestamp_error {literal : Option String}
    (h : checkTimestamp part literal = .error v) :
    ∀ e ∈ v.mappingError?, Query.timeBound part literal = .error e := by
  intro e he
  cases literal with
  | none => cases h
  | some text =>
    cases ht : Instant.ofRfc3339 text with
    | error cause =>
      simp only [checkTimestamp, ht] at h
      cases h
      cases he
      rw [Query.timeBound, ht]
    | ok t =>
      simp only [checkTimestamp, ht] at h
      contradiction

end Checks

variable {i : Intent} {v : ValidationError}

/-- Each check before the failed one has passed, so mapping gets as far as the same literal. -/
theorem ofIntent_of_invalid (h : i.validate = .error v) :
    ∀ e ∈ v.mappingError?, Query.ofIntent i = .error e := by
  intro e he
  have rule {w : ValidationError} (hw : w.mappingError? = none) (hv : w = v) :
      Query.ofIntent i = .error e := by
    rw [hv, Option.mem_def.1 he] at hw
    contradiction
  unfold validate at h
  rcases bind_eq_error_iff.1 h with h | ⟨-, -, h⟩
  · exact rule (mappingError?_of_checkText h) rfl
  rcases bind_eq_error_iff.1 h with h | ⟨-, -, h⟩
  · exact rule (mappingError?_of_checkText h) rfl
  rcases bind_eq_error_iff.1 h with h | ⟨least, hleast, h⟩
  · rw [Query.ofIntent, durationBound_of_checkDuration_error h e he]
    rfl
  obtain ⟨-, hleast⟩ := durationBound_of_checkDuration hleast
  rcases bind_eq_error_iff.1 h with h | ⟨greatest, hgreatest, h⟩
  · rw [Query.ofIntent, hleast, durationBound_of_checkDuration_error h e he]
    rfl
  obtain ⟨-, hgreatest⟩ := durationBound_of_checkDuration hgreatest
  rcases bind_eq_error_iff.1 h with h | ⟨-, -, h⟩
  · exact rule (mappingError?_of_checkOrder h) rfl
  rcases bind_eq_error_iff.1 h with h | ⟨⟨⟩, hstart, h⟩
  · rw [Query.ofIntent, hleast, hgreatest, timeBound_of_checkTimestamp_error h e he]
    rfl
  rcases bind_eq_error_iff.1 h with h | ⟨⟨⟩, hend, h⟩
  · rw [Query.ofIntent, hleast, hgreatest, timeBound_of_checkTimestamp hstart,
      timeBound_of_checkTimestamp_error h e he]
    rfl
  · exact rule (mappingError?_of_checkTags h) rfl

theorem invalid_of_ofIntent {e : Query.MappingError} (h : Query.ofIntent i = .error e) :
    ∃ v, i.validate = .error v := by
  cases hv : i.validate with
  | error v => exact ⟨v, rfl⟩
  | ok u =>
    rw [ofIntent_of_validated (validated hv)] at h
    contradiction

end Intent

namespace Service

variable {m : Type → Type} (s : Service m) (schedule : Schedule)

theorem outcome_ne_mapping (answer : Except ExtractionError Intent) (e : Query.MappingError) :
    s.outcome schedule answer ≠ .error (.mapping e) := by
  intro h
  cases answer with
  | error cause => cases h
  | ok i =>
    cases hv : i.validate with
    | error v =>
      rw [outcome, plan_of_invalid hv] at h
      cases h
    | ok u =>
      rw [outcome_of_valid hv] at h
      cases hcollect : Scan.collect schedule s.corpus { i.query with limit := s.maxResults } with
      | error cause =>
        rw [hcollect] at h
        cases h
      | ok traces =>
        rw [hcollect] at h
        cases h

end Service

namespace Intent

/-- Validation and mapping agree on every intent. What passes validation is mapped, so no search
fails in mapping; a literal that validation refuses is the one that mapping refuses, for the same
cause; what is not mapped is not valid; and what is mapped but not valid breaks a rule about an
empty text, a negative duration, the order of the durations or an empty tag. -/
theorem validation_agrees_with_mapping (i : Intent) :
    (i.validate = .ok () → ∃ q, Query.ofIntent i = .ok q) ∧
    (∀ {m : Type → Type} [Monad m] [LawfulMonad m] (s : Service m) (schedule : Schedule)
      (text : String), s.search schedule text = s.outcome schedule <$> s.assistant.extract text ∧
        ∀ answer e, s.outcome schedule answer ≠ .error (.mapping e)) ∧
    (∀ part cause, i.validate = .error (.invalidDuration part cause) →
      Query.ofIntent i = .error (.duration part cause)) ∧
    (∀ part cause, i.validate = .error (.invalidTimestamp part cause) →
      Query.ofIntent i = .error (.timestamp part cause)) ∧
    (∀ e, Query.ofIntent i = .error e → ∃ v, i.validate = .error v) ∧
    (∀ q v, Query.ofIntent i = .ok q → i.validate = .error v →
      (∃ part, v = .emptyField part) ∨ (∃ part, v = .negativeDuration part) ∨
        v = .invertedDurations ∨ ∃ key, v = .emptyTag key) := by
  refine ⟨?_, ?_, ?_, ?_, ?_, ?_⟩
  · intro h
    exact ⟨i.query, ofIntent_of_validated (validated h)⟩
  · intro m _ _ s schedule text
    exact ⟨s.search_eq_map schedule text, s.outcome_ne_mapping schedule⟩
  · intro part cause h
    exact ofIntent_of_invalid h _ rfl
  · intro part cause h
    exact ofIntent_of_invalid h _ rfl
  · intro e h
    exact invalid_of_ofIntent h
  · intro q v hq hv
    refine ValidationError.mappingError?_eq_none_iff.1 (Option.eq_none_iff_forall_not_mem.2 ?_)
    intro e he
    have herror := ofIntent_of_invalid hv e he
    rw [hq] at herror
    contradiction

/-- An intent with a fault in two literals and an empty tag. -/
def faulty : Intent :=
  { empty with
    minDuration := some "1s"
    maxDuration := some "soon"
    startTime := some "yesterday"
    tags := ⟨[("error", "")], List.pairwise_singleton _ _⟩ }

theorem validation_agrees_with_mapping_faulty :
    ∃ cause, faulty.validate = .error (.invalidDuration .maxDuration cause) ∧
      Query.ofIntent faulty = .error (.duration .maxDuration cause) := by
  have hfault : faulty.validate =
      .error (.invalidDuration .maxDuration (.faulty .noNumber "soon")) := by decide +kernel
  obtain ⟨-, -, hduration, -⟩ := validation_agrees_with_mapping faulty
  exact ⟨_, hfault, hduration _ _ hfault⟩

end Intent

end TraceSearch
