import TraceSearch.Intent.Validation
import TraceSearch.Query.Basic

/-!
# Validated intents have a query

Validation and mapping read the same literals one after the other, each in its own way. Main fact:
an intent that passes validation is mapped, and its query states what the literals denote, with the
unconstrained value where a part is absent.
-/

namespace TraceSearch

theorem bind_eq_ok_iff {ε α β : Type} {x : Except ε α} {f : α → Except ε β} {b : β} :
    x >>= f = .ok b ↔ ∃ a, x = .ok a ∧ f a = .ok b := by
  cases x with
  | error e => exact ⟨nofun, fun ⟨_, h, _⟩ => nomatch h⟩
  | ok a => exact ⟨fun h => ⟨a, rfl, h⟩, fun ⟨_, h, hf⟩ => by cases h; exact hf⟩

namespace Intent

/-- The duration that a part denotes, if it is present and well-formed. -/
def duration? (literal : Option String) : Option Duration :=
  literal.bind fun text => (Duration.ofLiteral text).toOption

/-- The instant that a part denotes, if it is present and well-formed. -/
def time? (literal : Option String) : Option Instant :=
  literal.bind fun text => (Instant.ofRfc3339 text).toOption

/-- The query that an intent states, its literals taken for well-formed. -/
def query (i : Intent) : Query where
  service := i.service.getD ""
  operation := i.operation.getD ""
  attributes := Attributes.ofStrings i.tags.entries
  startMin := time? i.startTime
  startMax := time? i.endTime
  durationMin := (duration? i.minDuration).getD Duration.zero
  durationMax := (duration? i.maxDuration).getD Duration.zero
  limit := 0

theorem durationBound_of_checkDuration {part : Part} {literal : Option String}
    {checked : Option Duration} (h : checkDuration part literal = .ok checked) :
    checked = duration? literal ∧
      Query.durationBound part literal = .ok ((duration? literal).getD Duration.zero) := by
  cases literal with
  | none =>
    cases h
    exact ⟨rfl, rfl⟩
  | some text =>
    unfold checkDuration at h
    cases hd : Duration.ofLiteral text with
    | error e => simp [hd] at h
    | ok d =>
      have hread : duration? (some text) = some d := by simp [duration?, hd, Except.toOption]
      simp only [hd] at h
      split at h
      · contradiction
      · cases h
        refine ⟨hread.symm, ?_⟩
        rw [hread, Query.durationBound, hd]
        rfl

theorem duration?_of_checkDuration {part : Part} {text : String} {d : Option Duration}
    (h : checkDuration part (some text) = .ok d) : ∃ parsed, d = some parsed := by
  unfold checkDuration at h
  cases hd : Duration.ofLiteral text with
  | error e => simp [hd] at h
  | ok parsed =>
    simp only [hd] at h
    split at h
    · contradiction
    · cases h
      exact ⟨parsed, rfl⟩

theorem timeBound_of_checkTimestamp {part : Part} {literal : Option String}
    (h : checkTimestamp part literal = .ok ()) :
    Query.timeBound part literal = .ok (time? literal) := by
  cases literal with
  | none => rfl
  | some text =>
    unfold checkTimestamp at h
    cases ht : Instant.ofRfc3339 text with
    | error e => simp [ht] at h
    | ok t => simp [Query.timeBound, time?, ht, Except.toOption]

theorem time?_eq_none_iff {part : Part} {literal : Option String}
    (h : checkTimestamp part literal = .ok ()) : time? literal = none ↔ literal = none := by
  cases literal with
  | none => simp [time?]
  | some text =>
    unfold checkTimestamp at h
    cases ht : Instant.ofRfc3339 text with
    | error e => simp [ht] at h
    | ok t => simp [time?, ht, Except.toOption]

theorem ne_empty_of_checkText {part : Part} {text : Option String}
    (h : checkText part text = .ok ()) : text ≠ some "" := by
  intro hempty
  rw [checkText, if_pos hempty] at h
  contradiction

theorem eq_none_of_getD_eq_empty {text : Option String} (h : text ≠ some "")
    (hempty : text.getD "" = "") : text = none := by
  cases text with
  | none => rfl
  | some name => exact absurd (congrArg some hempty) h

/-- The checks that an accepted intent has passed. -/
structure Validated (i : Intent) : Prop where
  service : checkText .service i.service = .ok ()
  operation : checkText .operation i.operation = .ok ()
  minDuration : checkDuration .minDuration i.minDuration = .ok (duration? i.minDuration)
  maxDuration : checkDuration .maxDuration i.maxDuration = .ok (duration? i.maxDuration)
  order : checkOrder (duration? i.minDuration) (duration? i.maxDuration) = .ok ()
  startTime : checkTimestamp .startTime i.startTime = .ok ()
  endTime : checkTimestamp .endTime i.endTime = .ok ()
  tags : checkTags i.tags.entries = .ok ()

theorem validated {i : Intent} (h : i.validate = .ok ()) : Validated i := by
  unfold validate at h
  obtain ⟨⟨⟩, hservice, h⟩ := bind_eq_ok_iff.1 h
  obtain ⟨⟨⟩, hoperation, h⟩ := bind_eq_ok_iff.1 h
  obtain ⟨least, hleast, h⟩ := bind_eq_ok_iff.1 h
  obtain ⟨greatest, hgreatest, h⟩ := bind_eq_ok_iff.1 h
  obtain ⟨⟨⟩, horder, h⟩ := bind_eq_ok_iff.1 h
  obtain ⟨⟨⟩, hstart, h⟩ := bind_eq_ok_iff.1 h
  obtain ⟨⟨⟩, hend, htags⟩ := bind_eq_ok_iff.1 h
  obtain ⟨rfl, -⟩ := durationBound_of_checkDuration hleast
  obtain ⟨rfl, -⟩ := durationBound_of_checkDuration hgreatest
  exact ⟨hservice, hoperation, hleast, hgreatest, horder, hstart, hend, htags⟩

/-- A validated intent is mapped, so mapping never fails in a search. -/
theorem ofIntent_of_validated {i : Intent} (h : Validated i) : Query.ofIntent i = .ok i.query := by
  rw [Query.ofIntent, (durationBound_of_checkDuration h.minDuration).2,
    (durationBound_of_checkDuration h.maxDuration).2, timeBound_of_checkTimestamp h.startTime,
    timeBound_of_checkTimestamp h.endTime]
  rfl

end Intent

end TraceSearch
