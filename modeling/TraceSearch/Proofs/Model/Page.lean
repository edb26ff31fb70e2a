import TraceSearch.Proofs.Model.Reply

/-!
# Replies of several blocks

A page is prose and fenced blocks in turn. The reader of replies knows no closing fences: one that
ends a block it does not read is followed by a line break and opens a block in its turn, if another
fence comes after it. Main fact: `jsonBlock_page`.
-/

namespace TraceSearch.Model

open Text (isBlank trimEnd trimChars)

/-- A fenced block, with the prose between its closing fence and the next block. -/
structure Block where
  tag : List Char
  body : List Char
  after : List Char
  letters : ∀ c ∈ tag, c.isAlpha = true
  body_plain : tick ∉ body
  after_plain : tick ∉ after
  break_after : after.head? = some '\n'

def Block.text (b : Block) : List Char :=
  fence ++ (b.tag ++ '\n' :: (b.body ++ '\n' :: (fence ++ b.after)))

/-- The tags that are no tag of another language. -/
def Block.Readable (b : Block) : Prop := b.tag = [] ∨ b.tag = ['j', 's', 'o', 'n']

instance (b : Block) : Decidable b.Readable := inferInstanceAs (Decidable (_ ∨ _))

structure Page where
  before : List Char
  blocks : List Block
  before_plain : tick ∉ before

def Page.text (p : Page) : List Char := p.before ++ p.blocks.flatMap Block.text

/-- The body of the first block with no tag or the tag `json`, or else the whole page. -/
def Page.readable (p : Page) : List Char :=
  match p.blocks.find? (decide ·.Readable) with
  | some b => b.body
  | none => p.text

section Trimming

theorem exists_solid (s : List Char) :
    (∀ c ∈ s, isBlank c = true) ∨
      ∃ before core after, (∀ c ∈ before, isBlank c = true) ∧ Solid core ∧
        (∀ c ∈ after, isBlank c = true) ∧ s = before ++ (core ++ after) := by
  induction s with
  | nil => exact Or.inl (List.forall_mem_nil _)
  | cons c s ih =>
    cases hc : isBlank c with
    | true =>
      rcases ih with hs | ⟨before, core, after, hbefore, hcore, hafter, rfl⟩
      · exact Or.inl (List.forall_mem_cons.2 ⟨hc, hs⟩)
      · exact Or.inr ⟨c :: before, core, after, List.forall_mem_cons.2 ⟨hc, hbefore⟩, hcore,
          hafter, rfl⟩
    | false =>
      refine Or.inr ?_
      rcases ih with hs | ⟨before, core, after, -, hcore, hafter, rfl⟩
      · exact ⟨[], [c], s, List.forall_mem_nil _, ⟨⟨c, rfl, hc⟩, ⟨c, rfl, hc⟩⟩, hs, rfl⟩
      · obtain ⟨d, hd, hblank⟩ := hcore.last
        refine ⟨[], c :: (before ++ core), after, List.forall_mem_nil _,
          ⟨⟨c, rfl, hc⟩, ⟨d, ?_, hblank⟩⟩, hafter, by simp⟩
        rw [← List.cons_append, List.getLast?_append, hd, Option.some_or]

theorem trimChars_blanks {s : List Char} (hs : ∀ c ∈ s, isBlank c = true) : trimChars s = [] := by
  rw [trimChars, dropWhile_blanks hs]
  rfl

theorem trimChars_around {before after : List Char} (hbefore : ∀ c ∈ before, isBlank c = true)
    (hafter : ∀ c ∈ after, isBlank c = true) (s : List Char) :
    trimChars (before ++ (s ++ after)) = trimChars s := by
  rcases exists_solid s with hs | ⟨pre, core, post, hpre, hcore, hpost, rfl⟩
  · have hall : ∀ c ∈ before ++ (s ++ after), isBlank c = true := by
      simp only [List.forall_mem_append]
      exact ⟨hbefore, hs, hafter⟩
    rw [trimChars_blanks hall, trimChars_blanks hs]
  · have hpres : ∀ c ∈ before ++ pre, isBlank c = true := List.forall_mem_append.2 ⟨hbefore, hpre⟩
    have hposts : ∀ c ∈ post ++ after, isBlank c = true := List.forall_mem_append.2 ⟨hpost, hafter⟩
    have hregroup : before ++ (pre ++ (core ++ post) ++ after) =
        (before ++ pre) ++ (core ++ (post ++ after)) := by simp
    rw [hregroup, trimChars_append_solid hcore, trimChars_append_solid hcore,
      dropWhile_blanks hpres, dropWhile_blanks hpre, trimEnd_blanks hposts, trimEnd_blanks hpost]

theorem trimChars_trimChars (s : List Char) : trimChars (trimChars s) = trimChars s := by
  rcases exists_solid s with hs | ⟨pre, core, post, hpre, hcore, hpost, rfl⟩
  · rw [trimChars_blanks hs]
    rfl
  · rw [trimChars_append_solid hcore, dropWhile_blanks hpre, trimEnd_blanks hpost]
    simpa using trimChars_solid hcore

end Trimming

section Fences

variable {s : List Char}

theorem unfenced_of_not_mem (hs : tick ∉ s) : Unfenced s := by
  simpa using unfenced_append_of_not_mem hs unfenced_nil

theorem beforeFence?_plain (hs : tick ∉ s) (post : List Char) :
    beforeFence? (s ++ (fence ++ post)) = some s := by
  induction s with
  | nil => rfl
  | cons c s ih =>
    obtain ⟨hc, hrest⟩ := not_or.1 (mt List.mem_cons.2 hs)
    have hnone : afterFence? (c :: (s ++ (fence ++ post))) = none :=
      afterFence?_eq_none_iff.2 (not_fence_prefix_cons (Ne.symm hc) _)
    rw [List.cons_append, beforeFence?, hnone, ih hrest]
    rfl

theorem beforeFence?_eq_none (hs : Unfenced s) : beforeFence? s = none := by
  induction s with
  | nil => rfl
  | cons c s ih =>
    obtain ⟨hfirst, hrest⟩ := unfenced_cons_iff.1 hs
    rw [beforeFence?, afterFence?_eq_none_iff.2 hfirst, ih hrest]
    rfl

/-- What a fence with no tag or the tag `json` opens ends at the next fence, whatever that fence
was meant for. -/
theorem blockBody?_plain (hs : tick ∉ s) (hbreak : s.head? = some '\n') {tag : List Char}
    (htag : tag = [] ∨ tag = ['j', 's', 'o', 'n']) (post : List Char) :
    blockBody? (tag ++ (s ++ (fence ++ post))) = some (trimChars s) := by
  obtain ⟨line, rfl⟩ : ∃ line, s = '\n' :: line := by
    cases s with
    | nil => cases hbreak
    | cons c line => exact ⟨line, by cases hbreak; rfl⟩
  have htagged : dropTag (tag ++ ('\n' :: line ++ (fence ++ post))) =
      '\n' :: (line ++ (fence ++ post)) := by rcases htag with rfl | rfl <;> rfl
  have hplain : tick ∉ ('\n' :: line).dropWhile isBlank :=
    fun h => hs ((List.dropWhile_suffix _).subset h)
  have hblanks := dropWhile_append_solid solid_fence ('\n' :: line) post
  rw [List.cons_append] at hblanks
  unfold blockBody?
  rw [htagged]
  dsimp only
  rw [if_pos (by decide), hblanks, beforeFence?_plain hplain, Option.map_some, trimChars]

theorem blockBody?_eq_none (hs : Unfenced s) : blockBody? s = none := by
  have hdrop : Unfenced (dropTag s) := by
    refine hs.of_suffix ?_
    unfold dropTag
    split
    · exact List.suffix_append ['j', 's', 'o', 'n'] _
    · exact List.suffix_refl _
  unfold blockBody?
  split
  · rfl
  · next c rest hrest =>
    rw [hrest] at hdrop
    have hblanks := hdrop.of_suffix (List.dropWhile_suffix isBlank)
    rw [beforeFence?_eq_none hblanks]
    exact ite_self _

theorem not_blank_of_isAlpha {c : Char} (hc : c.isAlpha = true) : isBlank c = false := by
  have hcode : (65 ≤ c.toNat ∧ c.toNat ≤ 90) ∨ (97 ≤ c.toNat ∧ c.toNat ≤ 122) := by
    change (decide (65 ≤ c.val ∧ c.val ≤ 90) ||
      decide (97 ≤ c.val) && decide (c.val ≤ 122)) = true at hc
    simp only [Bool.or_eq_true, Bool.and_eq_true, decide_eq_true_eq, UInt32.le_iff_toNat_le] at hc
    exact hc
  simp only [isBlank, Bool.or_eq_false_iff, Bool.and_eq_false_iff, decide_eq_false_iff_not,
    beq_eq_false_iff_ne]
  omega

/-- The tag of another language starts with a letter, or with `json` and another letter. -/
theorem blockBody?_of_tag {tag : List Char} (hletters : ∀ c ∈ tag, c.isAlpha = true)
    (htag : ¬(tag = [] ∨ tag = ['j', 's', 'o', 'n'])) (rest : List Char) :
    blockBody? (tag ++ '\n' :: rest) = none := by
  obtain ⟨c, more, hdrop, hc⟩ : ∃ c more, dropTag (tag ++ '\n' :: rest) = c :: more ∧ c ∈ tag := by
    unfold dropTag
    split
    · next heq =>
      -- The tag reaches past the word, since the line break after it is no letter.
      rcases tag with _ | ⟨a, _ | ⟨b, _ | ⟨c, _ | ⟨d, _ | ⟨e, tag⟩⟩⟩⟩⟩
      · cases heq
      · cases heq
      · cases heq
      · cases heq
      · cases heq
        exact absurd (Or.inr rfl) htag
      · cases heq
        exact ⟨e, tag ++ '\n' :: rest, rfl, by simp⟩
    · cases tag with
      | nil => exact absurd (Or.inl rfl) htag
      | cons c tag => exact ⟨c, tag ++ '\n' :: rest, rfl, List.mem_cons_self⟩
  unfold blockBody?
  rw [hdrop]
  dsimp only
  rw [not_blank_of_isAlpha (hletters c hc)]
  rfl

theorem firstBlock?_fence {rest : List Char} (hrest : rest.head? ≠ some tick)
    (hbody : blockBody? rest = none) : firstBlock? (fence ++ rest) = firstBlock? rest := by
  have hopen : afterFence? (tick :: tick :: tick :: rest) = some rest :=
    afterFence?_eq_some_iff.2 rfl
  have htwo : ¬fence <+: tick :: tick :: rest :=
    not_fence_prefix_append (s := [tick, tick]) (by decide) hrest
  have hone : ¬fence <+: tick :: rest :=
    not_fence_prefix_append (s := [tick]) (by decide) hrest
  rw [show fence ++ rest = tick :: tick :: tick :: rest from rfl, firstBlock?, hopen,
    Option.bind_some, hbody]
  dsimp only
  rw [firstBlock?, afterFence?_eq_none_iff.2 htwo]
  dsimp only [Option.bind_none]
  rw [firstBlock?, afterFence?_eq_none_iff.2 hone]
  rfl

theorem firstBlock?_plain_append (hs : tick ∉ s) (rest : List Char) :
    firstBlock? (s ++ rest) = firstBlock? rest := by
  induction s with
  | nil => rfl
  | cons c s ih =>
    obtain ⟨hc, htail⟩ := not_or.1 (mt List.mem_cons.2 hs)
    rw [List.cons_append, firstBlock?,
      afterFence?_eq_none_iff.2 (not_fence_prefix_cons (Ne.symm hc) _)]
    exact ih htail

end Fences

section Pages

theorem Block.not_tick_mem_tag (b : Block) : tick ∉ b.tag := fun h => by
  have hletter := b.letters tick h
  exact absurd hletter (by decide)

theorem blockBody?_of_readable {b : Block} (hb : b.Readable) (rest : List Char) :
    blockBody? (b.tag ++ '\n' :: (b.body ++ '\n' :: (fence ++ rest))) =
      some (trimChars b.body) := by
  have hplain : tick ∉ '\n' :: (b.body ++ ['\n']) := by
    simpa [show tick ≠ '\n' by decide] using b.body_plain
  have hline : ∀ c ∈ ['\n'], isBlank c = true := List.forall_mem_singleton.2 rfl
  have htrim : trimChars ('\n' :: (b.body ++ ['\n'])) = trimChars b.body :=
    trimChars_around hline hline b.body
  have hbody := blockBody?_plain hplain rfl hb rest
  rw [htrim] at hbody
  simpa using hbody

/-- Past a block of another language the text goes on at its closing fence. -/
theorem firstBlock?_of_not_readable {b : Block} (hb : ¬b.Readable) (rest : List Char) :
    firstBlock? (fence ++ (b.tag ++ '\n' :: (b.body ++ '\n' :: (fence ++ rest)))) =
      firstBlock? (fence ++ rest) := by
  have hhead : (b.tag ++ '\n' :: (b.body ++ '\n' :: (fence ++ rest))).head? ≠ some tick := by
    intro h
    cases htag : b.tag with
    | nil => exact hb (Or.inl htag)
    | cons c tag =>
      rw [htag] at h
      cases h
      exact b.not_tick_mem_tag (htag ▸ List.mem_cons_self)
  have hplain : tick ∉ b.tag ++ '\n' :: (b.body ++ ['\n']) := by
    simpa [show tick ≠ '\n' by decide] using And.intro b.not_tick_mem_tag b.body_plain
  have hskip := firstBlock?_plain_append hplain (fence ++ rest)
  rw [firstBlock?_fence hhead (blockBody?_of_tag b.letters hb _)]
  simpa using hskip

theorem jsonBlock_of_firstBlock?_eq_some {s body : List Char}
    (h : firstBlock? s = some (trimChars body)) :
    jsonBlock (String.ofList s) = String.ofList (trimChars body) := by
  simp only [jsonBlock, String.toList_ofList, h, trimChars_trimChars]

theorem jsonBlock_of_firstBlock?_eq_none {s : List Char} (h : firstBlock? s = none) :
    jsonBlock (String.ofList s) = String.ofList (trimChars s) := by
  simp only [jsonBlock, String.toList_ofList, h, Text.trim]

variable {p : Page} {first : Block} {others : List Block}

theorem Page.text_eq (h : p.blocks = first :: others) :
    p.text = p.before ++ (fence ++ (first.tag ++ '\n' :: (first.body ++ '\n' ::
      (fence ++ (first.after ++ others.flatMap Block.text))))) := by
  simp [Page.text, Block.text, h]

theorem jsonBlock_of_first_readable (h : p.blocks = first :: others) (hfirst : first.Readable) :
    jsonBlock (String.ofList p.text) = String.ofList (trimChars first.body) := by
  refine jsonBlock_of_firstBlock?_eq_some ?_
  rw [Page.text_eq h]
  exact firstBlock?_append (unfenced_of_not_mem p.before_plain) (blockBody?_of_readable hfirst _)

/-- The closing fence of a block of another language opens a block if a third fence follows. -/
theorem jsonBlock_of_first_not_readable {second : Block} (h : p.blocks = first :: second :: others)
    (hfirst : ¬first.Readable) :
    jsonBlock (String.ofList p.text) = String.ofList (trimChars first.after) := by
  have hopened : blockBody? (first.after ++ (second :: others).flatMap Block.text) =
      some (trimChars first.after) :=
    blockBody?_plain first.after_plain first.break_after (Or.inl rfl) _
  refine jsonBlock_of_firstBlock?_eq_some ?_
  rw [Page.text_eq h, firstBlock?_plain_append p.before_plain, firstBlock?_of_not_readable hfirst]
  exact firstBlock?_append unfenced_nil hopened

theorem jsonBlock_of_single_not_readable (h : p.blocks = [first]) (hfirst : ¬first.Readable) :
    jsonBlock (String.ofList p.text) = String.ofList (trimChars p.text) := by
  have hafter : Unfenced first.after := unfenced_of_not_mem first.after_plain
  have hhead : first.after.head? ≠ some tick := by
    rw [first.break_after]
    decide
  refine jsonBlock_of_firstBlock?_eq_none ?_
  rw [Page.text_eq h, firstBlock?_plain_append p.before_plain, firstBlock?_of_not_readable hfirst,
    List.flatMap_nil, List.append_nil, firstBlock?_fence hhead (blockBody?_eq_none hafter)]
  exact firstBlock?_eq_none hafter

theorem jsonBlock_of_no_blocks (h : p.blocks = []) :
    jsonBlock (String.ofList p.text) = String.ofList (trimChars p.text) := by
  refine jsonBlock_of_firstBlock?_eq_none ?_
  rw [Page.text, h, List.flatMap_nil, List.append_nil]
  exact firstBlock?_eq_none (unfenced_of_not_mem p.before_plain)

/-- A page whose first block is of another language and not its last: the prose between the first
two blocks is the answer. Any other page: the body of the first block to be read, or else the whole
page. -/
theorem jsonBlock_page (p : Page) :
    (∀ first second others, p.blocks = first :: second :: others → ¬first.Readable →
      jsonBlock (String.ofList p.text) = String.ofList (trimChars first.after)) ∧
    ((∀ first second others, p.blocks = first :: second :: others → first.Readable) →
      jsonBlock (String.ofList p.text) = String.ofList (trimChars p.readable)) := by
  constructor
  · intro first second others hblocks hfirst
    exact jsonBlock_of_first_not_readable hblocks hfirst
  · intro hfirst
    unfold Page.readable
    match hblocks : p.blocks with
    | [] => exact jsonBlock_of_no_blocks hblocks
    | first :: others =>
      by_cases hreadable : first.Readable
      · rw [List.find?_cons_of_pos (by simpa using hreadable)]
        exact jsonBlock_of_first_readable hblocks hreadable
      · cases others with
        | nil =>
          rw [List.find?_cons_of_neg (by simpa using hreadable)]
          exact jsonBlock_of_single_not_readable hblocks hreadable
        | cons second others => exact absurd (hfirst first second others hblocks) hreadable

/-- A listing in another language, and the document after it. -/
def listingFirst : Page where
  before := []
  blocks :=
    [{ tag := "python".toList, body := ['x'], after := "\nprose\n".toList,
       letters := List.all_eq_true.1 rfl, body_plain := by decide, after_plain := by decide,
       break_after := by decide },
     { tag := "json".toList, body := "\x7b\x7d".toList, after := ['\n'],
       letters := List.all_eq_true.1 rfl, body_plain := by decide, after_plain := by decide,
       break_after := by decide }]
  before_plain := by decide

theorem jsonBlock_page_listingFirst :
    jsonBlock (String.ofList listingFirst.text) = "prose" :=
  (jsonBlock_page listingFirst).1 _ _ _ rfl (by decide)

theorem listingFirst_readable_not_found :
    jsonBlock (String.ofList listingFirst.text) ≠
      String.ofList (trimChars listingFirst.readable) := by
  decide

end Pages

end TraceSearch.Model
