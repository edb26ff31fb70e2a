import TraceSearch.Proofs.Intent.Document
import TraceSearch.Proofs.Model.Completion
import TraceSearch.Proofs.Search.Requests

/-!
# Empty tags never widen a search

A model that has no value for a tag may state an empty one, or `null`. Dropping it would turn a
filter into none, so such a tag is kept until validation refuses it. Main fact:
`empty_tag_never_widens`, which holds of replies as they are written, with the last of the entries
that share a key.
-/

namespace TraceSearch

theorem exists_split_of_forall₂ {α β : Type} {R : α → β → Prop} {before after : List α} {x : α}
    {ys : List β} (h : List.Forall₂ R (before ++ x :: after) ys) :
    ∃ front y back, ys = front ++ y :: back ∧ R x y ∧ List.Forall₂ R after back := by
  induction before generalizing ys with
  | nil =>
    obtain ⟨y, back, hy, hback, rfl⟩ := List.forall₂_cons_left_iff.1 h
    exact ⟨[], y, back, rfl, hy, hback⟩
  | cons first before ih =>
    obtain ⟨y, others, -, hothers, rfl⟩ := List.forall₂_cons_left_iff.1 h
    obtain ⟨front, z, back, rfl, hz, hback⟩ := ih hothers
    exact ⟨y :: front, z, back, rfl, hz, hback⟩

theorem exists_of_forall₂_mem {α β : Type} {R : α → β → Prop} {xs : List α} {ys : List β}
    (h : List.Forall₂ R xs ys) {x : α} (hx : x ∈ xs) : ∃ y ∈ ys, R x y := by
  obtain ⟨before, after, rfl⟩ := List.append_of_mem hx
  obtain ⟨front, y, back, rfl, hy, -⟩ := exists_split_of_forall₂ h
  exact ⟨y, List.mem_append_right _ List.mem_cons_self, hy⟩

namespace Intent

open Json (Member ObjectOf Padded Spelled StringText)

/-- An entry of tags without a key, or whose value is `null` or the empty text. -/
def Vacant (e : Member) : Prop :=
  e.Named "" ∨ e.value = ['n', 'u', 'l', 'l'] ∨ StringText true e.value ""

/-- An entry that counts: no later one has its key. -/
def Counts (entries : List Member) (e : Member) : Prop :=
  ∃ before after, entries = before ++ e :: after ∧
    ∀ key, e.Named key → ∀ later ∈ after, ¬later.Named key

section Entries

variable {entries : List Member} {e : Member} {pairs : List (String × Json)} {pair : String × Json}
  {depth : ℕ}

theorem exists_mem_of_counts (hpairs : List.Forall₂ (Member.Kept depth) entries pairs)
    (he : Counts entries e) : ∃ pair ∈ Json.ofMembers pairs, e.Kept depth pair := by
  obtain ⟨before, after, rfl, hlater⟩ := he
  obtain ⟨front, pair, back, rfl, hpair, hback⟩ := exists_split_of_forall₂ hpairs
  refine ⟨pair, Json.mem_ofMembers_iff.2 ⟨front, back, rfl, fun hmem => ?_⟩, hpair⟩
  obtain ⟨last, hlast, hkey⟩ := List.mem_map.1 hmem
  obtain ⟨later, hmem, hkept⟩ := exists_of_forall₂_mem hback.flip hlast
  exact hlater pair.1 hpair.1 later hmem (hkey ▸ hkept.1)

theorem exists_counts_of_mem (hpairs : List.Forall₂ (Member.Kept depth) entries pairs)
    (hpair : pair ∈ Json.ofMembers pairs) : ∃ e, Counts entries e ∧ e.Kept depth pair := by
  obtain ⟨front, back, rfl, hlast⟩ := Json.mem_ofMembers_iff.1 hpair
  obtain ⟨before, e, after, rfl, he, hafter⟩ := exists_split_of_forall₂ hpairs.flip
  refine ⟨e, ⟨before, after, rfl, fun key hkey later hlater hnamed => hlast ?_⟩, he⟩
  obtain ⟨other, hother, hkept⟩ := exists_of_forall₂_mem hafter.flip hlater
  have hsame := StringText.unique hkept.1 hnamed
  rw [StringText.unique hkey he.1] at hsame
  exact hsame ▸ List.mem_map_of_mem hother

/-- A number is never stated as the empty text. -/
theorem numberText_ne_empty {text : List Char} {n : Json.Number} (h : Json.NumberText true text n) :
    String.ofList n.text ≠ "" := by
  cases h with
  | held _ _ => exact fun hempty => n.text_ne_nil (String.ofList_eq_empty_iff.1 hempty)
  | skipped hkept _ _ => cases hkept

theorem vacant_iff {key text : String} {j : Json} (he : e.Kept depth (key, j))
    (htext : tagText key j = .ok text) : Vacant e ↔ key = "" ∨ text = "" := by
  obtain ⟨name, value⟩ := e
  obtain ⟨hkey, hvalue⟩ := he
  constructor
  · rintro (hempty | rfl | hempty)
    · exact Or.inl (StringText.unique hkey hempty)
    · cases hvalue.unique (Json.spelled_null true depth)
      exact Or.inr (Except.ok.inj htext).symm
    · cases hvalue.unique (hempty.spelled depth)
      exact Or.inr (Except.ok.inj htext).symm
  · rintro (rfl | rfl)
    · exact Or.inl hkey
    · obtain ⟨inner, hvalue, -⟩ := hvalue.valueText
      cases hvalue with
      | null => exact Or.inr (Or.inl rfl)
      | isTrue => exact absurd (Except.ok.inj htext) (by decide)
      | isFalse => exact absurd (Except.ok.inj htext) (by decide)
      | number hn => exact absurd (Except.ok.inj htext) (numberText_ne_empty hn)
      | string hs =>
        cases htext
        exact Or.inr (Or.inr hs)
      | array _ _ => cases htext
      | object _ _ => cases htext

variable {value : List Char} {tags : Tags}

theorem exists_named (h : ObjectOf value entries) (hread : readTags value = .ok (tags, []))
    (he : Counts entries e) : ∃ key, e.Named key := by
  obtain ⟨pairs, hpairs, -⟩ := (readTags_object_iff h).1 hread
  obtain ⟨pair, -, hkept⟩ := exists_mem_of_counts hpairs he
  exact ⟨pair.1, hkept.1⟩

/-- The tags that a search is left with hold every entry that counts, the empty ones too. -/
theorem exists_empty_iff (h : ObjectOf value entries) (hread : readTags value = .ok (tags, []))
    {key : String} :
    (∃ text, (key, text) ∈ tags.entries ∧ (key = "" ∨ text = "")) ↔
      ∃ e, Counts entries e ∧ Vacant e ∧ e.Named key := by
  obtain ⟨pairs, hpairs, htexts⟩ := (readTags_object_iff h).1 hread
  have htexts := tagTexts_eq_ok_iff.1 htexts
  constructor
  · rintro ⟨text, hmem, hempty⟩
    obtain ⟨⟨name, j⟩, hpair, rfl, htext⟩ := exists_of_forall₂_mem htexts.flip hmem
    obtain ⟨e, hcounts, hkept⟩ := exists_counts_of_mem hpairs hpair
    exact ⟨e, hcounts, (vacant_iff hkept htext).2 hempty, hkept.1⟩
  · rintro ⟨e, hcounts, hvacant, hnamed⟩
    obtain ⟨⟨name, j⟩, hpair, hkept⟩ := exists_mem_of_counts hpairs hcounts
    obtain ⟨⟨_, text⟩, hmem, rfl, htext⟩ := exists_of_forall₂_mem htexts hpair
    have hsame := StringText.unique hkept.1 hnamed
    dsimp only at hsame
    subst hsame
    exact ⟨text, hmem, (vacant_iff hkept htext).1 hvacant⟩

end Entries

section Scalars

theorem tagText_eq_ok {j : Json} (h : j.nesting = 0) (key : String) :
    ∃ text, tagText key j = .ok text := by
  cases j with
  | array items => simp [Json.nesting] at h
  | object members => simp [Json.nesting] at h
  | null => exact ⟨_, rfl⟩
  | bool b => exact ⟨_, rfl⟩
  | number n => exact ⟨_, rfl⟩
  | string s => exact ⟨_, rfl⟩

theorem exists_tagTexts {members : List (String × Json)}
    (h : ∀ member ∈ members, member.2.nesting = 0) : ∃ texts, tagTexts members = .ok texts := by
  induction members with
  | nil => exact ⟨[], rfl⟩
  | cons member rest ih =>
    obtain ⟨key, j⟩ := member
    obtain ⟨hfirst, hrest⟩ := List.forall_mem_cons.1 h
    obtain ⟨text, htext⟩ := tagText_eq_ok hfirst key
    obtain ⟨texts, htexts⟩ := ih hrest
    exact ⟨(key, text) :: texts, by simp only [tagTexts, htext, htexts, Except.map]⟩

theorem exists_readTags {value : List Char} {entries : List Member} {pairs : List (String × Json)}
    (h : ObjectOf value entries) (hpairs : List.Forall₂ (Member.Kept tagNesting) entries pairs)
    (hscalar : ∀ pair ∈ Json.ofMembers pairs, pair.2.nesting = 0) :
    ∃ tags, readTags value = .ok (tags, []) := by
  obtain ⟨texts, htexts⟩ := exists_tagTexts hscalar
  have hascending : (texts.map Prod.fst).Pairwise (· < ·) :=
    keys_tagTexts htexts ▸ Json.ascending_ofMembers pairs
  exact ⟨⟨texts, hascending⟩, (readTags_object_iff h).2 ⟨pairs, hpairs, htexts⟩⟩

end Scalars

section Validation

/-- The first empty tag is reported, and it has the least key of all. -/
theorem checkTags_of_empty {tags : List (String × String)}
    (hascending : (tags.map Prod.fst).Pairwise (· < ·))
    (h : ∃ tag ∈ tags, tag.1 = "" ∨ tag.2 = "") :
    ∃ key text, (key, text) ∈ tags ∧ (key = "" ∨ text = "") ∧
      checkTags tags = .error (.emptyTag key) ∧
      ∀ tag ∈ tags, tag.1 = "" ∨ tag.2 = "" → key = tag.1 ∨ key < tag.1 := by
  induction tags with
  | nil =>
    obtain ⟨tag, hmem, -⟩ := h
    cases hmem
  | cons first rest ih =>
    obtain ⟨key, text⟩ := first
    obtain ⟨hfirst, hrest⟩ := List.pairwise_cons.1 hascending
    rw [checkTags]
    -- the keys ascend, so the first tag found is the one with the least key
    by_cases hempty : key = "" ∨ text = ""
    · refine ⟨key, text, List.mem_cons_self, hempty, if_pos hempty, fun tag htag _ => ?_⟩
      rcases List.mem_cons.1 htag with rfl | htag
      · exact Or.inl rfl
      · exact Or.inr (hfirst tag.1 (List.mem_map_of_mem htag))
    · rw [if_neg hempty]
      obtain ⟨tag, htag, hvacant⟩ := h
      have hlater : tag ∈ rest := by
        rcases List.mem_cons.1 htag with rfl | htag
        · exact absurd hvacant hempty
        · exact htag
      obtain ⟨least, text', hmem, hleast, hcheck, hall⟩ := ih hrest ⟨tag, hlater, hvacant⟩
      refine ⟨least, text', List.mem_cons_of_mem _ hmem, hleast, hcheck, ?_⟩
      intro other hother hvacant
      rcases List.mem_cons.1 hother with rfl | hother
      · exact absurd hvacant hempty
      · exact hall other hother hvacant

theorem validate_tags {i : Intent} (h : i.validate = .ok ()) (tags : Tags) :
    { i with tags }.validate = checkTags tags.entries := by
  obtain ⟨hservice, hoperation, hmin, hmax, horder, hstart, hend, -⟩ := validated h
  simp only [validate, hservice, hoperation, hmin, hmax, horder, hstart, hend, bind, Except.bind]

end Validation

/-- A document whose tags have an empty entry that counts. -/
inductive EmptyTagged (document : String) : Prop where
  | stated {members : List Member} {m e : Member} {entries : List Member}
      (h : Padded ObjectOf document.toList members) (hm : m ∈ members) (hname : m.Named "tags")
      (htags : ObjectOf m.value entries) (hcounts : Counts entries e) (hvacant : Vacant e) :
      EmptyTagged document

/-- A document whose entries of tags can be kept and have scalars for values, and which without them
is read as an intent that passes validation. -/
inductive OtherwiseValid (document : String) (entries : List Member) : Prop where
  | stated {before after : List Member} {m : Member} {pairs : List (String × Json)}
      {untagged : String} {i : Intent} (h : Padded ObjectOf document.toList (before ++ m :: after))
      (hname : m.Named "tags") (htags : ObjectOf m.value entries)
      (hkept : List.Forall₂ (Member.Kept tagNesting) entries pairs)
      (hscalar : ∀ pair ∈ Json.ofMembers pairs, pair.2.nesting = 0)
      (huntagged : Padded ObjectOf untagged.toList
        (before ++ { m with value := ['\x7b', '\x7d'] } :: after))
      (hread : read untagged = .ok i) (hvalid : i.dropEmptyParts.validate = .ok ()) :
      OtherwiseValid document entries

variable {document : String} {i : Intent}

theorem invalid_of_emptyTagged (h : EmptyTagged document) (hread : read document = .ok i) :
    ∃ e, i.dropEmptyParts.validate = .error e := by
  obtain @⟨members, m, e, entries, h, hm, hname, htags, hcounts, hvacant⟩ := h
  obtain ⟨before, after, rfl⟩ := List.append_of_mem hm
  have hstated := readTags_of_read hname h hread
  cases hvalid : i.dropEmptyParts.validate with
  | error e => exact ⟨e, rfl⟩
  | ok u =>
    have hfilled := tags_of_checkTags (validated hvalid).tags
    obtain ⟨key, hkey⟩ := exists_named htags hstated hcounts
    obtain ⟨text, hmem, hempty⟩ :=
      (exists_empty_iff htags hstated).2 ⟨e, hcounts, hvacant, hkey⟩
    obtain ⟨hkey, htext⟩ := hfilled (key, text) hmem
    exact absurd hempty (not_or.2 ⟨hkey, htext⟩)

theorem validate_of_otherwiseValid {entries : List Member} (h : OtherwiseValid document entries)
    (hempty : ∃ e, Counts entries e ∧ Vacant e) :
    ∃ i key, read document = .ok i ∧ i.dropEmptyParts.validate = .error (.emptyTag key) ∧
      (∃ e, Counts entries e ∧ Vacant e ∧ e.Named key) ∧
      ∀ e other, Counts entries e → Vacant e → e.Named other → key = other ∨ key < other := by
  obtain @⟨before, after, m, pairs, untagged, i, h, hname, htags, hkept, hscalar, huntagged, hread,
    hvalid⟩ := h
  obtain ⟨tags, hstated⟩ := exists_readTags htags hkept hscalar
  obtain ⟨e, hcounts, hvacant⟩ := hempty
  obtain ⟨given, hgiven⟩ := exists_named htags hstated hcounts
  obtain ⟨text, hmem, hblank⟩ :=
    (exists_empty_iff htags hstated).2 ⟨e, hcounts, hvacant, hgiven⟩
  obtain ⟨key, least, hkey, hleast, hcheck, hall⟩ :=
    checkTags_of_empty tags.ascending ⟨_, hmem, hblank⟩
  refine ⟨{ i with tags }, key, read_of_read_otherwise hname h huntagged hread hstated, ?_, ?_, ?_⟩
  · have hvalidate : { i.dropEmptyParts with tags }.validate = checkTags tags.entries :=
      validate_tags hvalid tags
    exact hvalidate.trans hcheck
  · exact (exists_empty_iff htags hstated).1 ⟨least, hkey, hleast⟩
  · intro e other hcounts hvacant hother
    obtain ⟨text, hmem, hblank⟩ :=
      (exists_empty_iff htags hstated).2 ⟨e, hcounts, hvacant, hother⟩
    exact hall _ hmem hblank

end Intent

namespace Service

variable {m : Type → Type}

theorem refused_of_invalid (s : Service m) (schedule : Schedule)
    {answer : Except ExtractionError Intent}
    (h : ∀ i, answer = .ok i → ∃ e, i.validate = .error e) :
    (∃ e, s.outcome schedule answer = .error e) ∧ Search.asked s.maxResults answer = [] := by
  cases answer with
  | error e => exact ⟨⟨_, rfl⟩, rfl⟩
  | ok i =>
    obtain ⟨e, he⟩ := h i rfl
    exact ⟨⟨.validation e, by rw [outcome, plan_of_invalid he]⟩,
      by rw [Search.asked, plan_of_invalid he]⟩

/-- An empty tag never widens a search that asks a model. Whatever the corpus, a reply whose tags
have an entry without a key, or with `null` or the empty text for a value, has an error for an
outcome and asks the corpus nothing. If the entries can be kept, their values are scalars and the
reply is valid without them, the error names the first of the keys in the order of their bytes. -/
theorem empty_tag_never_widens [Monad m] [LawfulMonad m] {s : Service m} {g : Generator m}
    (hs : s.assistant = Assistant.ofGenerator g) (schedule : Schedule) :
    (∀ text, (s.searchWatched schedule text).run [] =
      (fun completion => (s.outcome schedule (Model.completedIntent completion),
        Search.asked s.maxResults (Model.completedIntent completion))) <$>
          g.generate (Model.Template.search.fill text)) ∧
    (∀ reply, Intent.EmptyTagged (Model.jsonBlock (Text.trim reply)) →
      (∃ e, s.outcome schedule (Model.completedIntent (.ok reply)) = .error e) ∧
        Search.asked s.maxResults (Model.completedIntent (.ok reply)) = []) ∧
    ∀ reply entries, Intent.OtherwiseValid (Model.jsonBlock (Text.trim reply)) entries →
      (∃ e, Intent.Counts entries e ∧ Intent.Vacant e) →
      ∃ key, s.outcome schedule (Model.completedIntent (.ok reply)) =
          .error (.validation (.emptyTag key)) ∧
        (∃ e, Intent.Counts entries e ∧ Intent.Vacant e ∧ e.Named key) ∧
        ∀ e other, Intent.Counts entries e → Intent.Vacant e → e.Named other →
          key = other ∨ Text.bytes key < Text.bytes other := by
  refine ⟨?_, ?_, ?_⟩
  · intro text
    rw [searchWatched_run, hs]
    show _ <$> (g.generate _ >>= fun completion => pure (Model.completedIntent completion)) = _
    rw [← map_eq_pure_bind, Functor.map_map]
  · intro reply h
    refine s.refused_of_invalid schedule fun i hi => ?_
    rcases Model.unusable_or_yields (.ok reply) with hunusable | ⟨j, hyields⟩
    · obtain ⟨e, he⟩ := Model.completedIntent_of_unusable hunusable
      cases hi.symm.trans he
    · cases hi.symm.trans (Model.completedIntent_of_yields hyields)
      cases hyields with
      | decoded _ _ hread => exact Intent.invalid_of_emptyTagged h hread
  · intro reply entries h hempty
    obtain ⟨i, key, hread, hinvalid, hkey, hleast⟩ := Intent.validate_of_otherwiseValid h hempty
    have hanswer := Model.completedIntent_of_yields (Model.yields_of_read hread)
    refine ⟨key, ?_, hkey, fun e other hcounts hvacant hother => ?_⟩
    · rw [hanswer, outcome, plan_of_invalid hinvalid]
    · exact (hleast e other hcounts hvacant hother).imp_right Text.lt_iff_bytes_lt.1

section Replies

open Json (Member ObjectOf Padded StringText Spelled)

/-- A search of no traces with a model that always gives the same reply. -/
def replying (reply : String) : Service Id where
  corpus := []
  assistant := Assistant.ofGenerator ⟨fun _ => .ok reply⟩
  maxResults := 0

theorem assistant_replying (reply : String) :
    (replying reply).assistant = Assistant.ofGenerator ⟨fun _ => .ok reply⟩ := rfl

theorem searchWatched_replying (reply text : String) (schedule : Schedule) :
    ((replying reply).searchWatched schedule text).run [] =
      ((replying reply).outcome schedule (Model.completedIntent (.ok reply)),
        Search.asked 0 (Model.completedIntent (.ok reply))) := by
  rw [searchWatched_run]
  rfl

theorem stringText_tags {kept : Bool} : StringText kept ['"', 't', 'a', 'g', 's', '"'] "tags" :=
  .quoted (.plain (by decide) (by decide) (by decide) (.plain (by decide) (by decide) (by decide)
    (.plain (by decide) (by decide) (by decide) (.plain (by decide) (by decide) (by decide) .nil))))

theorem stringText_letter {kept : Bool} {c : Char} (hquote : c ≠ '"') (hbackslash : c ≠ '\\')
    (hc : ¬c < ' ') : StringText kept ['"', c, '"'] (String.ofList [c]) :=
  .quoted (.plain hquote hbackslash hc .nil)

theorem stringText_empty {kept : Bool} : StringText kept ['"', '"'] "" := .quoted .nil

def tagsMember (value : List Char) : Member := ⟨['"', 't', 'a', 'g', 's', '"'], value⟩

theorem named_tags (value : List Char) : (tagsMember value).Named "tags" := stringText_tags

theorem padded_tags {value : List Char} (h : Json.IsValue value) :
    Padded ObjectOf ('\x7b' :: ((['"', 't', 'a', 'g', 's', '"'] ++ ':' :: value) ++ ['\x7d']))
      [tagsMember value] :=
  .alone (.single (Member.is_tight stringText_tags h))

theorem objectOf_nothing : ObjectOf ['\x7b', '\x7d'] [] := .none Json.blanks_nil

theorem read_untagged : Intent.read "\x7b\"tags\":\x7b\x7d\x7d" = .ok Intent.empty := rfl

def absent : Member := ⟨['"', 'b', '"'], ['n', 'u', 'l', 'l']⟩

def blank : Member := ⟨['"', 'a', '"'], ['"', '"']⟩

theorem named_absent : absent.Named "b" :=
  stringText_letter (by decide) (by decide) (by decide)

theorem named_blank : blank.Named "a" :=
  stringText_letter (by decide) (by decide) (by decide)

theorem objectOf_emptyTags :
    ObjectOf ['\x7b', '"', 'b', '"', ':', 'n', 'u', 'l', 'l', ',', '"', 'a', '"', ':', '"', '"',
      '\x7d'] [absent, blank] := by
  have habsent : Member.Is (['"', 'b', '"'] ++ ':' :: ['n', 'u', 'l', 'l']) absent :=
    Member.is_tight (stringText_letter (by decide) (by decide) (by decide))
      ⟨0, _, Json.spelled_null false 0⟩
  have hblank : Member.Is (['"', 'a', '"'] ++ ':' :: ['"', '"']) blank :=
    Member.is_tight (stringText_letter (by decide) (by decide) (by decide))
      ⟨0, _, stringText_empty.spelled 0⟩
  exact .some (.cons (.alone habsent) (.last (.alone hblank)))

theorem counts_blank : Intent.Counts [absent, blank] blank :=
  ⟨[absent], [], rfl, fun _ _ => List.forall_mem_nil _⟩

def emptyTags : String := "\x7b\"tags\":\x7b\"b\":null,\"a\":\"\"\x7d\x7d"

theorem padded_emptyTags : Padded ObjectOf emptyTags.toList
    ([] ++ tagsMember ['\x7b', '"', 'b', '"', ':', 'n', 'u', 'l', 'l', ',', '"', 'a', '"', ':', '"',
      '"', '\x7d'] :: []) :=
  padded_tags objectOf_emptyTags.isValue

theorem jsonBlock_emptyTags : Model.jsonBlock (Text.trim emptyTags) = emptyTags := by
  decide +kernel

theorem vacant_blank : Intent.Vacant blank := Or.inr (Or.inr stringText_empty)

theorem otherwiseValid_emptyTags : Intent.OtherwiseValid emptyTags [absent, blank] := by
  have hkept : List.Forall₂ (Member.Kept Intent.tagNesting) [absent, blank]
      [("b", .null), ("a", .string "")] :=
    .cons ⟨named_absent, Json.spelled_null true _⟩
      (.cons ⟨named_blank, stringText_empty.spelled _⟩ .nil)
  have hscalar : ∀ pair ∈ Json.ofMembers [("b", .null), ("a", .string "")], pair.2.nesting = 0 := by
    intro pair hpair
    rcases List.mem_pair.1 (Json.mem_ofMembers hpair) with rfl | rfl <;> rfl
  have huntagged : Padded ObjectOf "\x7b\"tags\":\x7b\x7d\x7d".toList
      ([] ++ tagsMember ['\x7b', '\x7d'] :: []) := padded_tags objectOf_nothing.isValue
  exact .stated padded_emptyTags (named_tags _) objectOf_emptyTags hkept hscalar huntagged
    read_untagged rfl

/-- Of two empty tags the one that stands last in the reply is reported, for its key. -/
theorem empty_tag_never_widens_last :
    ((replying emptyTags).searchWatched Schedule.never "all").run [] =
      (.error (.validation (.emptyTag "a")), []) := by
  obtain ⟨-, hrefused, hnamed⟩ :=
    empty_tag_never_widens (assistant_replying emptyTags) Schedule.never
  have hasked : Search.asked 0 (Model.completedIntent (.ok emptyTags)) = [] := by
    refine (hrefused emptyTags ?_).2
    rw [jsonBlock_emptyTags]
    exact .stated padded_emptyTags List.mem_cons_self (named_tags _) objectOf_emptyTags counts_blank
      vacant_blank
  have hvalid : Intent.OtherwiseValid (Model.jsonBlock (Text.trim emptyTags)) [absent, blank] := by
    rw [jsonBlock_emptyTags]
    exact otherwiseValid_emptyTags
  obtain ⟨key, houtcome, ⟨e, hcounts, -, hkey⟩, hleast⟩ :=
    hnamed emptyTags _ hvalid ⟨blank, counts_blank, vacant_blank⟩
  have hkey : key = "a" := by
    obtain ⟨before, after, hentries, -⟩ := hcounts
    have he : e ∈ [absent, blank] := hentries ▸ List.mem_append_right _ List.mem_cons_self
    rcases List.mem_pair.1 he with rfl | rfl
    · rw [StringText.unique hkey named_absent] at hleast
      have hleast := (hleast blank "a" counts_blank vacant_blank named_blank).imp_right
        Text.lt_iff_bytes_lt.2
      exact absurd hleast (by decide)
    · exact StringText.unique hkey named_blank
  subst hkey
  rw [searchWatched_replying, houtcome, hasked]

/-- An entry without a key, whose value is a number that no double holds. -/
def beyond : Member := ⟨['"', '"'], ['1', 'e', '9', '9', '9']⟩

theorem numberText_beyond : Json.NumberText false beyond.value (.integer 0) :=
  .skipped rfl Json.spelled_beyond Json.toNumber?_beyond

theorem objectOf_beyond :
    ObjectOf ['\x7b', '"', '"', ':', '1', 'e', '9', '9', '9', '\x7d'] [beyond] := by
  have hentry : Member.Is (['"', '"'] ++ ':' :: ['1', 'e', '9', '9', '9']) beyond :=
    Member.is_tight stringText_empty ⟨0, _, .number numberText_beyond⟩
  exact .single hentry

def beyondTags : String := "\x7b\"tags\":\x7b\"\":1e999\x7d\x7d"

theorem padded_beyondTags : Padded ObjectOf beyondTags.toList
    ([] ++ tagsMember ['\x7b', '"', '"', ':', '1', 'e', '9', '9', '9', '\x7d'] :: []) :=
  padded_tags objectOf_beyond.isValue

theorem read_beyondTags : ∃ cause, Intent.read beyondTags = .error cause := by
  cases hread : Intent.read beyondTags with
  | error cause => exact ⟨cause, rfl⟩
  | ok i =>
    have htags := Intent.readTags_of_read (named_tags _) padded_beyondTags hread
    obtain ⟨pairs, hpairs, -⟩ := (Intent.readTags_object_iff objectOf_beyond).1 htags
    obtain ⟨pair, _, hkept, -, -⟩ := List.forall₂_cons_left_iff.1 hpairs
    exact absurd hkept.2 Json.not_spelled_beyond

theorem jsonBlock_beyondTags : Model.jsonBlock (Text.trim beyondTags) = beyondTags := by
  decide +kernel

/-- An empty tag whose entry cannot be kept is not named, though the rest of the reply is valid and
no tag has an array or object for a value. -/
theorem beyond_not_named :
    Padded ObjectOf beyondTags.toList
      [tagsMember ['\x7b', '"', '"', ':', '1', 'e', '9', '9', '9', '\x7d']] ∧
    ObjectOf ['\x7b', '"', '"', ':', '1', 'e', '9', '9', '9', '\x7d'] [beyond] ∧
    Intent.Counts [beyond] beyond ∧ Intent.Vacant beyond ∧
    Json.NumberText false beyond.value (.integer 0) ∧
    Intent.read "\x7b\"tags\":\x7b\x7d\x7d" = .ok Intent.empty ∧
    Intent.empty.dropEmptyParts.validate = .ok () ∧
    ∃ cause, ((replying beyondTags).searchWatched Schedule.never "all").run [] =
      (.error (.extraction (.invalidJson cause)), []) := by
  refine ⟨padded_beyondTags, objectOf_beyond, ⟨[], [], rfl, fun _ _ => List.forall_mem_nil _⟩,
    Or.inl stringText_empty, numberText_beyond, read_untagged, rfl, ?_⟩
  obtain ⟨cause, hread⟩ := read_beyondTags
  have hfilled : Text.isBlankText beyondTags = false := by decide +kernel
  have hblock : Model.jsonBlock (Text.trim beyondTags) ≠ "" := by
    rw [jsonBlock_beyondTags]
    decide
  rw [← jsonBlock_beyondTags] at hread
  refine ⟨cause, ?_⟩
  rw [searchWatched_replying, Model.completedIntent_of_undecodable hfilled hblock hread]
  rfl

end Replies

end Service

end TraceSearch
