import Mathlib.Data.List.TakeWhile
import TraceSearch.Model.Assistant

/-!
# What completions yield

A completion may be silent, it may have nothing to decode, or it yields an intent. Main facts:
`unusable_or_yields`, every completion is one or the other, and `completedIntent_of_unusable` and
`completedIntent_of_yields`, an intent is extracted from those that yield it and from no others.
-/

namespace TraceSearch

namespace Model

/-- A completion without a text: a failure of the model, or blanks only. -/
inductive Silent : Except ModelError String → Prop where
  | failed (e : ModelError) : Silent (.error e)
  | blank {text : String} (h : Text.isBlankText text = true) : Silent (.ok text)

/-- A completion that no intent can be read from: it has no text, nothing in its block, or a
document there that cannot be decoded. -/
inductive Unusable : Except ModelError String → Prop where
  | silent {completion : Except ModelError String} (h : Silent completion) : Unusable completion
  | emptyBlock {text : String} (h : jsonBlock (Text.trim text) = "") : Unusable (.ok text)
  | undecodable {text : String} {e : Json.Error}
      (h : Intent.read (jsonBlock (Text.trim text)) = .error e) : Unusable (.ok text)

/-- A completion whose block is decoded to an intent; parts that are empty count as absent. -/
inductive Yields : Except ModelError String → Intent → Prop where
  | decoded {text : String} {i : Intent} (filled : Text.isBlankText text = false)
      (block : jsonBlock (Text.trim text) ≠ "")
      (read : Intent.read (jsonBlock (Text.trim text)) = .ok i) : Yields (.ok text) i.dropEmptyParts

section Completion

variable {completion : Except ModelError String} {text : String} {i : Intent}

theorem completionText_of_silent (h : Silent completion) :
    ∃ e, completionText completion = .error e := by
  cases h with
  | failed e => cases e <;> exact ⟨_, rfl⟩
  | blank h => exact ⟨.emptyResponse, by rw [completionText, if_pos h]⟩

theorem completionText_of_filled (h : Text.isBlankText text = false) :
    completionText (.ok text) = .ok (Text.trim text) := by
  rw [completionText, h]
  rfl

theorem silent_or_filled (completion : Except ModelError String) :
    Silent completion ∨ ∃ text, completion = .ok text ∧ Text.isBlankText text = false := by
  cases completion with
  | error e => exact .inl (.failed e)
  | ok text =>
    cases h : Text.isBlankText text with
    | true => exact .inl (.blank h)
    | false => exact .inr ⟨text, rfl, h⟩

theorem completedIntent_of_filled (h : Text.isBlankText text = false) :
    completedIntent (.ok text) = statedIntent (jsonBlock (Text.trim text)) := by
  rw [completedIntent, completionText_of_filled h]

theorem completedIntent_of_yields (h : Yields completion i) :
    completedIntent completion = .ok i := by
  cases h with
  | decoded filled block read =>
    rw [completedIntent_of_filled filled, statedIntent, if_neg block, read]

theorem completedIntent_of_undecodable {e : Json.Error} (filled : Text.isBlankText text = false)
    (block : jsonBlock (Text.trim text) ≠ "")
    (h : Intent.read (jsonBlock (Text.trim text)) = .error e) :
    completedIntent (.ok text) = .error (.invalidJson e) := by
  rw [completedIntent_of_filled filled, statedIntent, if_neg block, h]

theorem completedIntent_of_unusable (h : Unusable completion) :
    ∃ e, completedIntent completion = .error e := by
  rcases silent_or_filled completion with hsilent | ⟨text, rfl, hfilled⟩
  · obtain ⟨e, he⟩ := completionText_of_silent hsilent
    exact ⟨e, by rw [completedIntent, he]⟩
  · rw [completedIntent_of_filled hfilled, statedIntent]
    cases h with
    | silent h =>
      cases h with
      | blank h =>
        rw [hfilled] at h
        contradiction
    | emptyBlock h => exact ⟨.emptyResponse, if_pos h⟩
    | undecodable h =>
      split
      · exact ⟨_, rfl⟩
      · rw [h]
        exact ⟨_, rfl⟩

theorem unusable_or_yields (completion : Except ModelError String) :
    Unusable completion ∨ ∃ i, Yields completion i := by
  rcases silent_or_filled completion with hsilent | ⟨text, rfl, hfilled⟩
  · exact .inl (.silent hsilent)
  · by_cases hblock : jsonBlock (Text.trim text) = ""
    · exact .inl (.emptyBlock hblock)
    · cases hread : Intent.read (jsonBlock (Text.trim text)) with
      | error e => exact .inl (.undecodable hread)
      | ok i => exact .inr ⟨_, .decoded hfilled hblock hread⟩

theorem trim_of_isBlankText (h : Text.isBlankText text = true) : Text.trim text = "" := by
  have hblank : text.toList.dropWhile Text.isBlank = [] :=
    List.dropWhile_eq_nil_iff.2 (List.all_eq_true.1 h)
  rw [Text.trim, Text.trimChars, hblank]
  rfl

/-- Nothing is read from a blank completion or an empty block. -/
theorem yields_of_read (h : Intent.read (jsonBlock (Text.trim text)) = .ok i) :
    Yields (.ok text) i.dropEmptyParts := by
  have hnothing : Intent.read "" = .error .truncated := rfl
  have hblock : jsonBlock (Text.trim text) ≠ "" := by
    intro hempty
    rw [hempty] at h
    cases hnothing.symm.trans h
  cases hblank : Text.isBlankText text with
  | true => exact absurd (congrArg jsonBlock (trim_of_isBlankText hblank)) hblock
  | false => exact .decoded hblank hblock h

theorem Yields.not_unusable (h : Yields completion i) : ¬Unusable completion := by
  intro hunusable
  obtain ⟨e, he⟩ := completedIntent_of_unusable hunusable
  rw [completedIntent_of_yields h] at he
  cases he

theorem Yields.eq {j : Intent} (h : Yields completion i) (hj : Yields completion j) : j = i :=
  Except.ok.inj ((completedIntent_of_yields hj).symm.trans (completedIntent_of_yields h))

end Completion

end Model

end TraceSearch
