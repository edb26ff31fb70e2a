import TraceSearch.Intent.Reader
import TraceSearch.Proofs.Json.Fields
import TraceSearch.Proofs.Json.Record

/-!
# Written intents read back

An intent is written as a record of all its fields, an absent part as `null` and the tags as an
object in the order of their keys. Main fact: `read_written`, an intent is read from what it is
written as, in any layout.
-/

namespace TraceSearch

open Json (Layout Given compactText stringText isBlank skipBlank_append skipBlank_cons)

namespace Tags

def members (tags : Tags) : List (String × Json) :=
  tags.entries.map fun (key, text) => (key, .string text)

def text (l : Layout) (tags : Tags) : List Char :=
  l.enclose 1 '\x7b' '\x7d' (tags.entries.map fun entry => l.member entry.1 (stringText entry.2))

theorem compactText_members (tags : Tags) :
    compactText (.object tags.members) = tags.text .tight := by
  rw [Json.Layout.compactText_object 1, members, List.map_map]
  rfl

theorem prettyText_members (tags : Tags) :
    Json.prettyText 1 (.object tags.members) = tags.text .lines := by
  rw [Json.Layout.prettyText_object, members, List.map_map]
  rfl

end Tags

namespace Intent

def partText (part : Option String) : List Char := compactText (.ofString? part)

theorem prettyText_part (part : Option String) :
    Json.prettyText 1 (.ofString? part) = partText part := by
  cases part <;> rfl

def givenPart (part : Part) (aliases : List String) (value : Option String)
    (put : Intent → Option String → Intent) : Given Intent :=
  .of part.name aliases Json.readString? (partText value) value put

def givenTags (l : Layout) (tags : Tags) : Given Intent :=
  .of "tags" [] readTags (tags.text l) tags fun r x => { r with tags := x }

/-- The fields of a written intent. -/
def given (l : Layout) (i : Intent) : List (Given Intent) :=
  [givenPart .service [] i.service fun r x => { r with service := x },
    givenPart .operation [] i.operation fun r x => { r with operation := x },
    givenPart .minDuration ["min_duration_ms"] i.minDuration fun r x => { r with minDuration := x },
    givenPart .maxDuration ["max_duration_ms"] i.maxDuration fun r x => { r with maxDuration := x },
    givenPart .startTime [] i.startTime fun r x => { r with startTime := x },
    givenPart .endTime [] i.endTime fun r x => { r with endTime := x },
    givenTags l i.tags]

def written (l : Layout) (i : Intent) : List Char :=
  l.enclose 0 '\x7b' '\x7d' ((given l i).map (Given.text l))

theorem compact_toJson (i : Intent) : i.toJson.compact = String.ofList (written .tight i) := by
  have htags := i.tags.compactText_members
  unfold Tags.members at htags
  rw [Json.compact, toJson, Json.Layout.compactText_object 0]
  simp only [List.map_cons, List.map_nil, htags]
  rfl

theorem pretty_toJson (i : Intent) : i.toJson.pretty = String.ofList (written .lines i) := by
  have htags := i.tags.prettyText_members
  unfold Tags.members at htags
  rw [Json.pretty, toJson, Json.Layout.prettyText_object]
  simp only [List.map_cons, List.map_nil, Nat.zero_add, prettyText_part, htags]
  rfl

theorem tagTexts_strings (entries : List (String × String)) :
    tagTexts (entries.map fun entry => (entry.1, .string entry.2)) = .ok entries := by
  induction entries with
  | nil => rfl
  | cons entry rest ih =>
    rw [List.map_cons, tagTexts, tagText]
    simp only [ih, Except.map]

theorem statedTags_members (tags : Tags) : statedTags tags.members = .ok tags := by
  have hkeys : (tags.members.map Prod.fst).Pairwise (· < ·) := by
    rw [Tags.members, List.map_map]
    exact tags.ascending
  rw [statedTags_eq_ok_iff, Json.ofMembers_of_ascending hkeys]
  exact tagTexts_strings tags.entries

theorem readMember_tag (l : Layout) (depth : Nat) (entry : String × String) {rest : List Char}
    (hrest : Json.EndsNumber rest) :
    Json.readMember true (Json.readValue true depth)
        (l.member entry.1 (stringText entry.2) ++ rest) =
      .ok ((entry.1, .string entry.2), rest) := by
  have hvalue : Json.readValue true depth (stringText entry.2 ++ rest) =
      .ok (.string entry.2, rest) :=
    Json.readValue_scalar true depth 0 (.string entry.2) rfl hrest
  have htext : l.member entry.1 (stringText entry.2) ++ rest =
      stringText entry.1 ++ ':' :: (l.colon ++ (stringText entry.2 ++ rest)) := by
    simp [Layout.member]
  rw [htext, Json.readMember_cons true depth _ l.isBlank_colon, hvalue]
  rfl

theorem readTags_text (l : Layout) {blanks : List Char} (h : ∀ c ∈ blanks, isBlank c = true)
    (tags : Tags) (rest : List Char) :
    readTags (blanks ++ (tags.text l ++ rest)) = .ok (tags, rest) := by
  have hread : ∃ body, tags.text l ++ rest = '\x7b' :: body ∧
      Json.readObject true (Json.readValue true tagNesting) body =
        if ∀ entry ∈ tags.entries, True then .ok (tags.members, rest) else .error .malformed :=
    Json.readEnclosed_enclose l rfl (by decide) Json.endsNumber_brace
      (Json.readMember_append (l.isBlank_gap 2) true _)
      (fun entry _ _ hrest => readMember_tag l tagNesting entry hrest)
      (fun _ _ => ⟨_, _, rfl, by decide⟩) rest
  obtain ⟨body, hbody, hread⟩ := hread
  rw [readTags, skipBlank_append h, hbody, skipBlank_cons rfl]
  simp only [hread, implies_true, if_true, statedTags_members, Except.map]

theorem read_givenPart {l : Layout} {part : Part} {aliases : List String}
    {put : Intent → Option String → Intent}
    (hfind : Json.TextField.find? fields part.name = some (partField part aliases put))
    (value : Option String) : (givenPart part aliases value put).Read l fields :=
  Given.read_of hfind (Json.readString?_ofString? l.isBlank_colon value)

theorem read_given (l : Layout) (i : Intent) : ∀ g ∈ given l i, g.Read l fields := by
  have htags : (givenTags l i.tags).Read l fields :=
    Given.read_of rfl (readTags_text l l.isBlank_colon i.tags)
  simp only [given, List.forall_mem_cons, List.not_mem_nil, false_imp_iff, implies_true, and_true]
  exact ⟨read_givenPart rfl _, read_givenPart rfl _, read_givenPart rfl _, read_givenPart rfl _,
    read_givenPart rfl _, read_givenPart rfl _, htags⟩

theorem read_written (l : Layout) (i : Intent) : read (String.ofList (written l i)) = .ok i := by
  have hnames : ((given l i).map fun g => g.field.name).Nodup := by
    show (fields.map fun f => f.name).Nodup
    decide
  have hread := Json.readRecord_given (read_given l i) hnames (List.cons_ne_nil _ _) "SearchIR"
    empty 0 []
  rw [List.append_nil] at hread
  rw [read, String.toList_ofList, written, hread]
  rfl

end Intent

end TraceSearch
