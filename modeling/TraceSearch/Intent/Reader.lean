import TraceSearch.Intent.Basic
import TraceSearch.Json.Record

/-!
# Reading intents

An intent is read from a document as a model writes it. Parts may be missing or `null`, and a
duration may stand under its name with the ending `_ms`. The value of a tag is a scalar: a number or
truth value becomes its text and `null` the empty text, which validation then refuses, so that no
malformed tag is ever dropped.

Source: `SearchIR` and `deserialize_tags`; the streaming decoder that serde derives for `SearchIR`.
-/

namespace TraceSearch.Intent

open Json (Error TextField)

def tagText (key : String) : Json → Except Error String
  | .null => .ok ""
  | .string s => .ok s
  | .bool b => .ok (if b then "true" else "false")
  | .number n => .ok (String.ofList n.text)
  | j => .error (.mismatch (.nestedTag key j.compact))

/-- The texts of tags, one by one. -/
def tagTexts : List (String × Json) → Except Error (List (String × String))
  | [] => .ok []
  | (key, value) :: rest =>
    match tagText key value with
    | .error e => .error e
    | .ok text => (tagTexts rest).map ((key, text) :: ·)

theorem keys_tagTexts {members : List (String × Json)} {entries : List (String × String)}
    (h : tagTexts members = .ok entries) : entries.map Prod.fst = members.map Prod.fst := by
  induction members generalizing entries with
  | nil => cases h; rfl
  | cons member rest ih =>
    obtain ⟨key, value⟩ := member
    unfold tagTexts at h
    split at h
    · contradiction
    · cases hr : tagTexts rest with
      | error e => simp [hr, Except.map] at h
      | ok texts =>
        simp only [hr, Except.map, Except.ok.injEq] at h
        rw [← h, List.map_cons, List.map_cons, ih hr]

/-- The tags that the members of an object state; the last value of a repeated key counts. -/
def statedTags (members : List (String × Json)) : Except Error Tags :=
  match h : tagTexts (Json.ofMembers members) with
  | .error e => .error e
  | .ok entries => .ok ⟨entries, keys_tagTexts h ▸ Json.ascending_ofMembers members⟩

theorem statedTags_eq_ok_iff {members : List (String × Json)} {tags : Tags} :
    statedTags members = .ok tags ↔ tagTexts (Json.ofMembers members) = .ok tags.entries := by
  unfold statedTags
  split
  · rename_i h
    simp [h]
  · rename_i entries h
    constructor
    · intro heq
      cases heq
      exact h
    · intro heq
      obtain ⟨stated, ascending⟩ := tags
      have hs : entries = stated := Except.ok.inj (h.symm.trans heq)
      subst hs
      rfl

/-- How many brackets the value of a tag may open: two are open around it. -/
def tagNesting : Nat := Json.nestingLimit - 2

/-- The tags of an intent; `null` is no tags. -/
def readTags (s : List Char) : Except Error (Tags × List Char) :=
  match Json.skipBlank s with
  | 'n' :: rest => (Json.readWord ['u', 'l', 'l'] rest).map fun rest => (Tags.empty, rest)
  | '\x7b' :: rest =>
    match Json.readObject true (Json.readValue true tagNesting) rest with
    | .error e => .error e
    | .ok (members, rest) => (statedTags members).map fun tags => (tags, rest)
  | s => .error (Json.wrongTypeAt .map s)

def partField (part : Part) (aliases : List String) (put : Intent → Option String → Intent) :
    TextField Intent :=
  .of part.name aliases Json.readString? put

def fields : List (TextField Intent) :=
  [partField .service [] fun i x => { i with service := x },
   partField .operation [] fun i x => { i with operation := x },
   partField .minDuration ["min_duration_ms"] fun i x => { i with minDuration := x },
   partField .maxDuration ["max_duration_ms"] fun i x => { i with maxDuration := x },
   partField .startTime [] fun i x => { i with startTime := x },
   partField .endTime [] fun i x => { i with endTime := x },
   .of "tags" [] readTags fun i x => { i with tags := x }]

def read (text : String) : Except Error Intent :=
  Json.complete (Json.readRecord "SearchIR" fields empty text.toList)

end TraceSearch.Intent
