import TraceSearch.Intent.Reader
import TraceSearch.Proofs.Json.Members

/-!
# Intents in documents

An intent is read from an object member by member, and its tags are read entry by entry from the
member that states them. Main facts: `read_eq_ok_iff` and `readTags_object_iff` say so, and
`spared_of_setsAll`, once the tags are given no other member has a part in them.
-/

namespace TraceSearch.Intent

open Json (TextField ObjectOf Member Padded Sets SetsAll)

section Fields

variable {s rest : List Char} {tags : Tags}

theorem skipBlank_skipBlank (s : List Char) :
    Json.skipBlank (Json.skipBlank s) = Json.skipBlank s := List.dropWhile_idempotent _ _

/-- An optional string is a value without brackets. -/
theorem readString?_eq_ok_iff {x : Option String} :
    Json.readString? s = .ok (x, rest) ↔
      ∃ j, Json.readValue true 0 s = .ok (j, rest) ∧ j = Json.ofString? x := by
  constructor
  · intro h
    refine ⟨_, ?_, rfl⟩
    show Json.readWith true none s = _
    unfold Json.readString? at h
    split at h
    · rename_i after hskip
      obtain ⟨left, hword, heq⟩ := Json.map_eq_ok_iff.1 h
      cases heq
      simp only [Json.readWith, hskip, hword, Except.map, Json.ofString?]
    · obtain ⟨⟨text, left⟩, hstring, heq⟩ := Json.map_eq_ok_iff.1 h
      cases heq
      unfold Json.readString at hstring
      split at hstring
      · rename_i after hskip
        rw [skipBlank_skipBlank] at hskip
        simp only [Json.readWith, hskip, hstring, Except.map, Json.ofString?]
      · contradiction
  · rintro ⟨_, hj, rfl⟩
    change Json.readWith true none s = .ok (Json.ofString? x, rest) at hj
    unfold Json.readWith at hj
    -- only `null` and a string are what an optional string is written as
    split at hj
    case h_2 after hskip =>
      obtain ⟨left, hword, heq⟩ := Json.map_eq_ok_iff.1 hj
      cases x <;> cases heq
      simp only [Json.readString?, hskip, hword, Except.map]
    case h_5 after hskip =>
      obtain ⟨⟨text, left⟩, hstring, heq⟩ := Json.map_eq_ok_iff.1 hj
      cases x <;> cases heq
      have hread : Json.readString ('"' :: after) = .ok (text, rest) := hstring
      rw [Json.readString?, hskip]
      exact Json.map_eq_ok_iff.2 ⟨_, hread, rfl⟩
    case h_8 =>
      split at hj
      · obtain ⟨_, _, heq⟩ := Json.map_eq_ok_iff.1 hj
        cases x <;> cases heq
      · contradiction
    case h_1 | h_6 | h_7 => contradiction
    all_goals
      obtain ⟨_, _, heq⟩ := Json.map_eq_ok_iff.1 hj
      cases x <;> cases heq

/-- What a value of a document states as tags. -/
inductive States : Json → Tags → Prop where
  | none : States .null Tags.empty
  | some {members : List (String × Json)} {tags : Tags} (h : tagTexts members = .ok tags.entries) :
      States (.object members) tags

theorem readTags_eq_ok_iff :
    readTags s = .ok (tags, rest) ↔
      ∃ j, Json.readValue true (tagNesting + 1) s = .ok (j, rest) ∧ States j tags := by
  show _ ↔ ∃ j, Json.readWith true (some (Json.readValue true tagNesting)) s = .ok (j, rest) ∧ _
  constructor
  · intro h
    unfold readTags at h
    split at h
    · rename_i after hskip
      obtain ⟨left, hword, heq⟩ := Json.map_eq_ok_iff.1 h
      cases heq
      exact ⟨.null, by simp only [Json.readWith, hskip, hword, Except.map], .none⟩
    · rename_i after hskip
      split at h
      · contradiction
      rename_i members left hmembers
      obtain ⟨stated, hstated, heq⟩ := Json.map_eq_ok_iff.1 h
      cases heq
      exact ⟨_, by simp only [Json.readWith, hskip, hmembers, Except.map],
        .some (statedTags_eq_ok_iff.1 hstated)⟩
    · contradiction
  · rintro ⟨j, hj, hstates⟩
    unfold Json.readWith at hj
    -- only `null` and an object state tags
    split at hj
    case h_2 after hskip =>
      obtain ⟨left, hword, heq⟩ := Json.map_eq_ok_iff.1 hj
      cases heq
      cases hstates
      simp only [readTags, hskip, hword, Except.map]
    case h_7 after hskip =>
      obtain ⟨⟨members, left⟩, hmembers, heq⟩ := Json.map_eq_ok_iff.1 hj
      cases heq
      cases hstates with
      | some htexts =>
        simp only [readTags, hskip, hmembers, statedTags_eq_ok_iff.2 htexts, Except.map]
    case h_8 =>
      split at hj
      · obtain ⟨_, _, heq⟩ := Json.map_eq_ok_iff.1 hj
        cases heq
        cases hstates
      · contradiction
    case h_1 => contradiction
    all_goals
      obtain ⟨_, _, heq⟩ := Json.map_eq_ok_iff.1 hj
      cases heq
      cases hstates

def tagsField : TextField Intent := .of "tags" [] readTags fun i x => { i with tags := x }

theorem fields_local : ∀ f ∈ fields, f.Local := by
  have hpart (part : Part) (aliases : List String) (put : Intent → Option String → Intent) :
      (partField part aliases put).Local :=
    TextField.local_of (fun _ _ _ => readString?_eq_ok_iff) _ _ _
  have htags : tagsField.Local := TextField.local_of (fun _ _ _ => readTags_eq_ok_iff) _ _ _
  simp only [fields, List.forall_mem_cons]
  exact ⟨hpart _ _ _, hpart _ _ _, hpart _ _ _, hpart _ _ _, hpart _ _ _, hpart _ _ _, htags,
    List.forall_mem_nil _⟩

/-- A field that has no part in the tags. -/
def SparesTags (f : TextField Intent) : Prop :=
  ∀ i s j rest, f.read i s = .ok (j, rest) → ∀ tags,
    f.read { i with tags } s = .ok ({ j with tags }, rest)

theorem sparesTags_part (part : Part) (aliases : List String)
    {put : Intent → Option String → Intent}
    (h : ∀ i x tags, put { i with tags } x = { put i x with tags }) :
    SparesTags (partField part aliases put) := by
  intro i s j rest hread tags
  obtain ⟨⟨x, left⟩, hx, heq⟩ := Json.map_eq_ok_iff.1 hread
  cases heq
  refine Json.map_eq_ok_iff.2 ⟨_, hx, ?_⟩
  dsimp only
  rw [h]

theorem sparesTags_of_ne : ∀ f ∈ fields, f.name ≠ "tags" → SparesTags f := by
  have hpart (part : Part) (aliases : List String) {put : Intent → Option String → Intent}
      (h : ∀ i x tags, put { i with tags } x = { put i x with tags }) :
      (partField part aliases put).name ≠ "tags" → SparesTags (partField part aliases put) :=
    fun _ => sparesTags_part part aliases h
  simp only [fields, List.forall_mem_cons]
  refine ⟨hpart _ _ ?_, hpart _ _ ?_, hpart _ _ ?_, hpart _ _ ?_, hpart _ _ ?_, hpart _ _ ?_,
    fun hne => absurd rfl hne, List.forall_mem_nil _⟩
  all_goals exact fun _ _ _ => rfl

end Fields

section Members

variable {i j : Intent} {seen seen' : List String} {m : Member} {members : List Member}

theorem SparesTags.tags_eq {f : TextField Intent} (h : SparesTags f) {s rest : List Char}
    (hread : f.read i s = .ok (j, rest)) : j.tags = i.tags := by
  have hsame := h i s j rest hread i.tags
  rw [show { i with tags := i.tags } = i from rfl, hread] at hsame
  exact congrArg (fun result : Intent × List Char => result.1.tags) (Except.ok.inj hsame)

/-- A member after the tags leaves them as they are, and does the same whichever they are. -/
theorem spared_of_sets {state next : List String × Intent} (h : Sets fields state m next)
    (hseen : "tags" ∈ state.1) :
    "tags" ∈ next.1 ∧ next.2.tags = state.2.tags ∧
      ∀ tags, Sets fields (state.1, { state.2 with tags }) m (next.1, { next.2 with tags }) := by
  cases h with
  | unknown hname hfield => exact ⟨hseen, rfl, fun _ => .unknown hname hfield⟩
  | given hname hfield hnew hread =>
    have hne : (_ : TextField Intent).name ≠ "tags" := fun heq => hnew (heq ▸ hseen)
    have hspares := sparesTags_of_ne _ (TextField.mem_of_find? hfield) hne
    exact ⟨List.mem_cons_of_mem _ hseen, hspares.tags_eq hread,
      fun tags => .given hname hfield hnew (hspares _ _ _ _ hread tags)⟩

theorem spared_of_setsAll {state last : List String × Intent}
    (h : SetsAll fields state members last) (hseen : "tags" ∈ state.1) :
    last.2.tags = state.2.tags ∧
      ∀ tags, SetsAll fields (state.1, { state.2 with tags }) members
        (last.1, { last.2 with tags }) := by
  induction h with
  | nil => exact ⟨rfl, fun _ => .nil⟩
  | cons h _ ih =>
    obtain ⟨hnext, htags, hfirst⟩ := spared_of_sets h hseen
    obtain ⟨hlast, hrest⟩ := ih hnext
    exact ⟨hlast.trans htags, fun tags => .cons (hfirst tags) (hrest tags)⟩

theorem sets_tags_iff (hm : m.Named "tags") {state : List String × Intent} :
    Sets fields (seen, i) m state ↔
      "tags" ∉ seen ∧ ∃ tags, readTags m.value = .ok (tags, []) ∧
        state = ("tags" :: seen, { i with tags }) := by
  have hfind : TextField.find? fields "tags" = some tagsField := rfl
  constructor
  · intro h
    cases h with
    | unknown hname hfield =>
      rw [Json.StringText.unique hname hm, hfind] at hfield
      cases hfield
    | given hname hfield hnew hread =>
      rw [Json.StringText.unique hname hm, hfind] at hfield
      cases hfield
      obtain ⟨⟨tags, left⟩, htags, heq⟩ := Json.map_eq_ok_iff.1 hread
      cases heq
      exact ⟨hnew, tags, htags, rfl⟩
  · rintro ⟨hnew, tags, htags, rfl⟩
    exact .given hm hfind hnew (Json.map_eq_ok_iff.2 ⟨_, htags, rfl⟩)

theorem read_eq_ok_iff {document : String} (h : Padded ObjectOf document.toList members) :
    read document = .ok i ↔ ∃ seen, SetsAll fields ([], empty) members (seen, i) :=
  Json.complete_readRecord_iff fields_local h "SearchIR"

section Tags

variable {document : String} {before after : List Member} (hm : m.Named "tags")
  (h : Padded ObjectOf document.toList (before ++ m :: after))

include hm h

/-- The tags of an intent are those that its member of this name states. -/
theorem readTags_of_read (hread : read document = .ok i) : readTags m.value = .ok (i.tags, []) := by
  obtain ⟨seen, hall⟩ := (read_eq_ok_iff h).1 hread
  obtain ⟨_, -, hrest⟩ := Json.setsAll_append_iff.1 hall
  obtain _ | ⟨hset, hafter⟩ := hrest
  obtain ⟨-, tags, htags, rfl⟩ := (sets_tags_iff hm).1 hset
  obtain ⟨hsame, -⟩ := spared_of_setsAll hafter List.mem_cons_self
  rw [hsame]
  exact htags

/-- A document is read as another one that differs in the value of the tags alone, but for them. -/
theorem read_of_read_otherwise {other : String} {value : List Char} {tags : Tags}
    (hother : Padded ObjectOf other.toList (before ++ { m with value } :: after))
    (hread : read other = .ok i) (htags : readTags m.value = .ok (tags, [])) :
    read document = .ok { i with tags } := by
  obtain ⟨seen, hall⟩ := (read_eq_ok_iff hother).1 hread
  obtain ⟨⟨given, j⟩, hbefore, hrest⟩ := Json.setsAll_append_iff.1 hall
  obtain _ | ⟨hset, hafter⟩ := hrest
  have hname : { m with value }.Named "tags" := hm
  obtain ⟨hnew, _, -, rfl⟩ := (sets_tags_iff hname).1 hset
  obtain ⟨-, hspared⟩ := spared_of_setsAll hafter List.mem_cons_self
  have hset : Sets fields (given, j) m ("tags" :: given, { j with tags }) :=
    (sets_tags_iff hm).2 ⟨hnew, tags, htags, rfl⟩
  exact (read_eq_ok_iff h).2
    ⟨seen, Json.setsAll_append_iff.2 ⟨_, hbefore, .cons hset (hspared tags)⟩⟩

end Tags

end Members

section Entries

variable {entries : List Member} {value : List Char} {tags : Tags}

theorem readTags_object_iff (h : ObjectOf value entries) :
    readTags value = .ok (tags, []) ↔
      ∃ pairs, List.Forall₂ (Member.Kept tagNesting) entries pairs ∧
        tagTexts (Json.ofMembers pairs) = .ok tags.entries := by
  obtain ⟨body, htext, hread⟩ := h.readObject_iff tagNesting []
  rw [List.append_nil] at htext
  subst htext
  rw [readTags, Json.skipBlank_cons rfl]
  constructor
  · intro htags
    simp only at htags
    split at htags
    · contradiction
    rename_i pairs left hpairs
    obtain ⟨tags', hstated, heq⟩ := Json.map_eq_ok_iff.1 htags
    cases heq
    exact ⟨pairs, ((hread _ _).1 hpairs).2, statedTags_eq_ok_iff.1 hstated⟩
  · rintro ⟨pairs, hpairs, htexts⟩
    simp only [(hread pairs []).2 ⟨rfl, hpairs⟩, statedTags_eq_ok_iff.2 htexts, Except.map]

theorem tagTexts_eq_ok_iff {members : List (String × Json)} {texts : List (String × String)} :
    tagTexts members = .ok texts ↔
      List.Forall₂ (fun member text => text.1 = member.1 ∧ tagText member.1 member.2 = .ok text.2)
        members texts := by
  induction members generalizing texts with
  | nil =>
    rw [List.forall₂_nil_left_iff]
    constructor
    · intro h
      cases h
      rfl
    · rintro rfl
      rfl
  | cons member rest ih =>
    obtain ⟨key, value⟩ := member
    rw [List.forall₂_cons_left_iff, tagTexts]
    cases hvalue : tagText key value with
    | error e => simp
    | ok text =>
      dsimp only
      rw [Json.map_eq_ok_iff]
      constructor
      · rintro ⟨others, hothers, rfl⟩
        exact ⟨(key, text), others, ⟨rfl, rfl⟩, ih.1 hothers, rfl⟩
      · rintro ⟨⟨_, _⟩, others, ⟨rfl, heq⟩, hothers, rfl⟩
        cases heq
        exact ⟨others, ih.2 hothers, rfl⟩

end Entries

end TraceSearch.Intent
