import TraceSearch.Model.Assistant

/-!
# Documents in replies

A reply states a document alone among blanks, or between two fences after some prose. A document
without a fence is found in such a reply, even if the prose ends in backticks of its own: a fence
that starts there is followed by a backtick and opens no block. Main fact: `jsonBlock_of_states`.
-/

namespace TraceSearch.Model

open Text (isBlank trimEnd trimChars)

def fence : List Char := [tick, tick, tick]

/-- A text in which no three backticks follow each other. -/
def Unfenced (s : List Char) : Prop := ¬fence <:+: s

theorem Unfenced.of_suffix {s t : List Char} (ht : Unfenced t) (h : s <:+ t) : Unfenced s :=
  fun hs => ht (hs.trans h.isInfix)

theorem unfenced_cons_iff {c : Char} {s : List Char} :
    Unfenced (c :: s) ↔ ¬fence <+: c :: s ∧ Unfenced s := by
  rw [Unfenced, List.infix_cons_iff, not_or, Unfenced]

@[simp] theorem unfenced_nil : Unfenced [] := by simp [Unfenced, fence]

theorem not_fence_prefix_cons {c : Char} (hc : c ≠ tick) (s : List Char) : ¬fence <+: c :: s := by
  rintro ⟨rest, hrest⟩
  cases hrest
  exact hc rfl

theorem not_fence_prefix_append {s t : List Char} (hs : ¬fence <+: s) (ht : t.head? ≠ some tick) :
    ¬fence <+: s ++ t := by
  intro h
  obtain ⟨rest, hrest⟩ := h
  match s with
  | [] =>
    rw [List.nil_append] at hrest
    rw [← hrest] at ht
    exact ht rfl
  | [a] =>
    cases t with
    | nil => cases hrest
    | cons c t =>
      cases hrest
      exact ht rfl
  | [a, b] =>
    cases t with
    | nil => cases hrest
    | cons c t =>
      cases hrest
      exact ht rfl
  | a :: b :: c :: s =>
    cases hrest
    exact hs ⟨s, rfl⟩

theorem unfenced_append {s t : List Char} (hs : Unfenced s) (ht : Unfenced t)
    (hhead : t.head? ≠ some tick) : Unfenced (s ++ t) := by
  induction s with
  | nil => exact ht
  | cons c s ih =>
    obtain ⟨hfirst, hrest⟩ := unfenced_cons_iff.1 hs
    exact unfenced_cons_iff.2 ⟨not_fence_prefix_append hfirst hhead, ih hrest⟩

theorem unfenced_append_of_not_mem {s t : List Char} (hs : tick ∉ s) (ht : Unfenced t) :
    Unfenced (s ++ t) := by
  induction s with
  | nil => exact ht
  | cons c s ih =>
    rw [List.mem_cons, not_or] at hs
    exact unfenced_cons_iff.2 ⟨not_fence_prefix_cons (Ne.symm hs.1) _, ih hs.2⟩

theorem afterFence?_eq_some_iff {s rest : List Char} :
    afterFence? s = some rest ↔ s = fence ++ rest := by
  constructor
  · intro h
    unfold afterFence? at h
    split at h
    · split at h
      · rename_i hticks
        obtain ⟨rfl, rfl, rfl⟩ := hticks
        cases h
        rfl
      · contradiction
    · contradiction
  · rintro rfl
    rfl

theorem afterFence?_eq_none_iff {s : List Char} : afterFence? s = none ↔ ¬fence <+: s := by
  rw [Option.eq_none_iff_forall_ne_some]
  simp only [ne_eq, afterFence?_eq_some_iff]
  constructor
  · rintro h ⟨rest, hrest⟩
    exact h rest hrest.symm
  · rintro h rest rfl
    exact h (List.prefix_append _ _)

theorem beforeFence?_append {s : List Char} (hs : Unfenced s) {c : Char} (hc : c ≠ tick)
    (post : List Char) : beforeFence? (s ++ c :: (fence ++ post)) = some (s ++ [c]) := by
  have hhead : (c :: (fence ++ post)).head? ≠ some tick := by simpa using hc
  induction s with
  | nil =>
    have hnone : afterFence? (c :: (fence ++ post)) = none :=
      afterFence?_eq_none_iff.2 (not_fence_prefix_cons hc _)
    have hfence : beforeFence? (fence ++ post) = some [] := rfl
    rw [List.nil_append, beforeFence?, hnone, hfence]
    rfl
  | cons d s ih =>
    obtain ⟨hfirst, hrest⟩ := unfenced_cons_iff.1 hs
    have hnone : afterFence? (d :: (s ++ c :: (fence ++ post))) = none :=
      afterFence?_eq_none_iff.2 (not_fence_prefix_append hfirst hhead)
    rw [List.cons_append, beforeFence?, hnone, ih hrest]
    rfl

theorem firstBlock?_eq_none {s : List Char} (hs : Unfenced s) : firstBlock? s = none := by
  induction s with
  | nil => rfl
  | cons c s ih =>
    obtain ⟨hfirst, hrest⟩ := unfenced_cons_iff.1 hs
    rw [firstBlock?, afterFence?_eq_none_iff.2 hfirst, Option.bind_none]
    exact ih hrest

/-- A fence that is followed by a backtick opens no block. -/
theorem blockBody?_tick (rest : List Char) : blockBody? (tick :: rest) = none := rfl

/-- The block after a text without a fence; the backticks at the end of the text may make up fences
with those of the first fence. -/
theorem firstBlock?_append {pre : List Char} (hpre : Unfenced pre) {rest body : List Char}
    (hbody : blockBody? rest = some body) : firstBlock? (pre ++ (fence ++ rest)) = some body := by
  induction pre with
  | nil =>
    have htext : [] ++ (fence ++ rest) = tick :: tick :: tick :: rest := rfl
    have hafter : afterFence? (tick :: tick :: tick :: rest) = some rest :=
      afterFence?_eq_some_iff.2 rfl
    rw [htext, firstBlock?, hafter, Option.bind_some, hbody]
  | cons c pre ih =>
    obtain ⟨hfirst, hrest⟩ := unfenced_cons_iff.1 hpre
    have hnone : (afterFence? (c :: (pre ++ (fence ++ rest)))).bind blockBody? = none := by
      cases hafter : afterFence? (c :: (pre ++ (fence ++ rest))) with
      | none => rfl
      | some after =>
        have htext := afterFence?_eq_some_iff.1 hafter
        rcases pre with _ | ⟨d, _ | ⟨e, pre⟩⟩
        · cases htext
          exact blockBody?_tick rest
        · cases htext
          exact blockBody?_tick (tick :: rest)
        · cases htext
          exact absurd ⟨pre, rfl⟩ hfirst
    rw [List.cons_append, firstBlock?, hnone]
    exact ih hrest

/-- A text that starts and ends with characters that are not blank. -/
structure Solid (s : List Char) : Prop where
  head : ∃ c, s.head? = some c ∧ isBlank c = false
  last : ∃ c, s.getLast? = some c ∧ isBlank c = false

theorem Solid.append {s t : List Char} (hs : Solid s) (ht : Solid t) (middle : List Char) :
    Solid (s ++ (middle ++ t)) := by
  obtain ⟨c, hc, hblank⟩ := hs.head
  obtain ⟨d, hd, hblank'⟩ := ht.last
  exact ⟨⟨c, by simp [hc], hblank⟩, ⟨d, by simp [hd], hblank'⟩⟩

theorem Solid.reverse {s : List Char} (hs : Solid s) : Solid s.reverse :=
  ⟨by simpa using hs.last, by simpa using hs.head⟩

theorem solid_fence : Solid fence := ⟨⟨tick, rfl, rfl⟩, ⟨tick, rfl, rfl⟩⟩

theorem dropWhile_append_solid {s : List Char} (hs : Solid s) (before after : List Char) :
    (before ++ (s ++ after)).dropWhile isBlank = before.dropWhile isBlank ++ (s ++ after) := by
  induction before with
  | nil =>
    obtain ⟨c, hc, hblank⟩ := hs.head
    cases s with
    | nil => cases hc
    | cons d s =>
      cases hc
      exact List.dropWhile_cons_of_neg (by simp [hblank])
  | cons d before ih =>
    by_cases hd : isBlank d = true
    · rw [List.cons_append, List.dropWhile_cons_of_pos hd, List.dropWhile_cons_of_pos hd, ih]
    · rw [List.cons_append, List.dropWhile_cons_of_neg hd, List.dropWhile_cons_of_neg hd,
        List.cons_append]

theorem trimEnd_append_solid {s : List Char} (hs : Solid s) (before after : List Char) :
    trimEnd (before ++ (s ++ after)) = before ++ (s ++ trimEnd after) := by
  unfold trimEnd
  rw [List.reverse_append, List.reverse_append, List.append_assoc,
    dropWhile_append_solid hs.reverse]
  simp

theorem trimChars_append_solid {s : List Char} (hs : Solid s) (before after : List Char) :
    trimChars (before ++ (s ++ after)) = before.dropWhile isBlank ++ (s ++ trimEnd after) := by
  rw [trimChars, dropWhile_append_solid hs, trimEnd_append_solid hs]

theorem trimChars_solid {s : List Char} (hs : Solid s) : trimChars s = s := by
  simpa [trimEnd] using trimChars_append_solid hs [] []

/-- The body of the block that a fence with or without the word `json` opens. -/
theorem blockBody?_document {document : List Char} (hsolid : Solid document)
    (hdocument : Unfenced document) {tag : List Char} (htag : tag = [] ∨ tag = ['j', 's', 'o', 'n'])
    (post : List Char) :
    blockBody? (tag ++ '\n' :: (document ++ '\n' :: (fence ++ post))) = some document := by
  have hdrop : dropTag (tag ++ '\n' :: (document ++ '\n' :: (fence ++ post))) =
      '\n' :: (document ++ '\n' :: (fence ++ post)) := by
    rcases htag with rfl | rfl <;> rfl
  have hblanks : ('\n' :: (document ++ '\n' :: (fence ++ post))).dropWhile isBlank =
      document ++ '\n' :: (fence ++ post) := dropWhile_append_solid hsolid ['\n'] _
  have hbefore : beforeFence? (document ++ '\n' :: (fence ++ post)) = some (document ++ ['\n']) :=
    beforeFence?_append hdocument (by decide) post
  have htrim : trimEnd (document ++ ['\n']) = document := by
    have h := trimEnd_append_solid hsolid [] ['\n']
    simpa [show trimEnd ['\n'] = [] from rfl] using h
  unfold blockBody?
  rw [hdrop]
  dsimp only
  rw [if_pos (by decide), hblanks, hbefore, Option.map_some, htrim]

/-- A reply that states a document: alone among blanks, or between two fences, the first of which
may be tagged and follows prose without a fence. -/
inductive States (document : List Char) : List Char → Prop where
  | bare {before after : List Char} (hbefore : ∀ c ∈ before, isBlank c = true)
    (hafter : ∀ c ∈ after, isBlank c = true) : States document (before ++ (document ++ after))
  | fenced {pre tag : List Char} (hpre : Unfenced pre)
    (htag : tag = [] ∨ tag = ['j', 's', 'o', 'n']) (post : List Char) :
    States document (pre ++ (fence ++ (tag ++ '\n' :: (document ++ '\n' :: (fence ++ post)))))

theorem dropWhile_blanks {s : List Char} (h : ∀ c ∈ s, isBlank c = true) :
    s.dropWhile isBlank = [] := by
  have hall : (s ++ []).dropWhile isBlank = [] := List.dropWhile_append_of_pos h
  rwa [List.append_nil] at hall

theorem trimEnd_blanks {s : List Char} (h : ∀ c ∈ s, isBlank c = true) : trimEnd s = [] := by
  rw [trimEnd, dropWhile_blanks fun c hc => h c (List.mem_reverse.1 hc), List.reverse_nil]

/-- The block of a reply, after the blanks at its ends have been dropped. -/
theorem jsonBlock_of_states {document : List Char} (hsolid : Solid document)
    (hdocument : Unfenced document) {reply : String} (h : States document reply.toList) :
    jsonBlock (Text.trim reply) = String.ofList document := by
  unfold jsonBlock Text.trim
  generalize reply.toList = chars at h
  rw [String.toList_ofList]
  cases h with
  | bare hbefore hafter =>
    rw [trimChars_append_solid hsolid, dropWhile_blanks hbefore, trimEnd_blanks hafter]
    simp only [List.nil_append, List.append_nil, firstBlock?_eq_none hdocument,
      trimChars_solid hsolid]
  | @fenced pre tag hpre htag post =>
    have hblock : Solid (fence ++ (tag ++ '\n' :: (document ++ ['\n']) ++ fence)) :=
      solid_fence.append solid_fence _
    have htrim : trimChars (pre ++
        (fence ++ (tag ++ '\n' :: (document ++ '\n' :: (fence ++ post))))) =
        pre.dropWhile isBlank ++
          (fence ++ (tag ++ '\n' :: (document ++ '\n' :: (fence ++ trimEnd post)))) := by
      simpa using trimChars_append_solid hblock pre post
    have hprose : Unfenced (pre.dropWhile isBlank) := hpre.of_suffix (List.dropWhile_suffix _)
    have hbody := blockBody?_document hsolid hdocument htag (trimEnd post)
    rw [htrim, firstBlock?_append hprose hbody]
    simp only [trimChars_solid hsolid]

end TraceSearch.Model
