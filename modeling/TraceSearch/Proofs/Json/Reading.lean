import TraceSearch.Proofs.Json.Tokens

/-!
# The reader follows the grammar

Every reader takes the texts of its grammar, as what they spell, and it takes no other text. Main
facts: `follows_readValue` for values and, for lists, `Enclosed.readEnclosed_iff`: what is read
between brackets is what is read of each item.
-/

namespace TraceSearch.Json

section Blanks

theorem exists_skipBlank (s : List Char) : ∃ gap, Blanks gap ∧ s = gap ++ skipBlank s :=
  ⟨s.takeWhile isBlank, fun _ hc => List.all_eq_true.1 List.all_takeWhile _ hc,
    List.takeWhile_append_dropWhile.symm⟩

theorem blanks_of_skipBlank {s rest : List Char} (h : skipBlank s = rest) :
    ∃ gap, Blanks gap ∧ s = gap ++ rest := h ▸ exists_skipBlank s

theorem skipBlank_blanks {gap : List Char} (h : Blanks gap) : skipBlank gap = [] := by
  have hskip := skipBlank_append h []
  rwa [List.append_nil] at hskip

end Blanks

section Lists

variable {α β : Type} {closing : Char} {item : List Char → α → Prop} {R : α → β → Prop}
  {read : List Char → Except Error (α × List Char)}
  {read' : List Char → Except Error (β × List Char)}
  {body rest : List Char} {xs : List α} {ys : List β}

/-- What is needed of a closing character: it is no part of an item, nor of what is around one. -/
structure Closes (closing : Char) : Prop where
  blank : isBlank closing = false
  comma : ',' ≠ closing
  number : ∀ s, EndsNumber (closing :: s)

theorem closes_bracket : Closes ']' := ⟨rfl, by decide, endsNumber_bracket⟩

theorem closes_brace : Closes '\x7d' := ⟨rfl, by decide, endsNumber_brace⟩

/-- A reader that makes of every item, and the blanks before it, what is related to it and nothing
else, if nothing goes on with a number. -/
def Parses (read : List Char → Except Error (β × List Char)) (item : List Char → α → Prop)
    (R : α → β → Prop) : Prop :=
  ∀ gap text x rest, Blanks gap → item text x → EndsNumber rest →
    ∀ y left, read (gap ++ (text ++ rest)) = .ok (y, left) ↔ left = rest ∧ R x y

/-- A reader that takes every item as it is. -/
def Takes (read : List Char → Except Error (α × List Char)) (item : List Char → α → Prop) : Prop :=
  ∀ gap text x rest, Blanks gap → item text x → EndsNumber rest →
    read (gap ++ (text ++ rest)) = .ok (x, rest)

/-- A reader that takes nothing but items and the blanks before them. -/
def TakesOnly (read : List Char → Except Error (α × List Char)) (item : List Char → α → Prop) :
    Prop :=
  ∀ s x rest, read s = .ok (x, rest) →
    ∃ gap text, Blanks gap ∧ s = gap ++ (text ++ rest) ∧ item text x

theorem Takes.parses (h : Takes read item) : Parses read item Eq := by
  intro gap text x rest hgap htext hrest y left
  rw [h gap text x rest hgap htext hrest]
  constructor
  · intro heq
    cases heq
    exact ⟨rfl, rfl⟩
  · rintro ⟨rfl, rfl⟩
    rfl

/-- An item and the blanks after it are read, up to what comes next. -/
def ReadsTo (read : List Char → Except Error (α × List Char)) (s : List Char) (x : α)
    (next : List Char) : Prop :=
  ∃ rest, read s = .ok (x, rest) ∧ skipBlank rest = next

theorem Padded.readsTo_iff {text : List Char} {x : α} (h : Padded item text x)
    (hread : Parses read' item R) {c : Char} (hblank : isBlank c = false)
    (hnumber : EndsNumber (c :: rest)) {y : β} {next : List Char} :
    ReadsTo read' (text ++ c :: rest) y next ↔ R x y ∧ c :: rest = next := by
  obtain @⟨before, text, after, _, hbefore, h, hafter⟩ := h
  have hitem :=
    hread before text x (after ++ c :: rest) hbefore h (endsNumber_append hafter hnumber)
  have hskip : skipBlank (after ++ c :: rest) = c :: rest := by
    rw [skipBlank_append hafter, skipBlank_cons hblank]
  rw [List.append_assoc, List.append_assoc]
  constructor
  · rintro ⟨left, hleft, hnext⟩
    obtain ⟨rfl, hrelated⟩ := (hitem _ _).1 hleft
    exact ⟨hrelated, hskip.symm.trans hnext⟩
  · rintro ⟨hrelated, hnext⟩
    exact ⟨_, (hitem _ _).2 ⟨rfl, hrelated⟩, hskip.trans hnext⟩

/-- One round of the reader of lists: an item, and then the closing character or a comma. -/
theorem readList_cons_eq_ok_iff (hclosing : Closes closing) {c : Char} {bound s left : List Char} :
    readList closing read (c :: bound) s = .ok (xs, left) ↔
      ∃ x next, ReadsTo read s x next ∧
        (next = closing :: left ∧ xs = [x] ∨
          ∃ t others, next = ',' :: t ∧
            readList closing read bound t = .ok (others, left) ∧ xs = x :: others) := by
  rw [readList]
  constructor
  · intro h
    split at h
    · contradiction
    rename_i x rest hx
    refine ⟨x, _, ⟨rest, hx, rfl⟩, ?_⟩
    split at h
    · contradiction
    rename_i d t hskip
    split at h
    · rename_i hd
      cases h
      exact Or.inl ⟨hd ▸ hskip, rfl⟩
    · split at h
      · rename_i hcomma
        split at h
        · contradiction
        rename_i others last hothers
        cases h
        exact Or.inr ⟨t, others, hcomma ▸ hskip, hothers, rfl⟩
      · contradiction
  · rintro ⟨x, _, ⟨rest, hx, rfl⟩, ⟨hskip, rfl⟩ | ⟨t, others, hskip, hothers, rfl⟩⟩
    · rw [hx]
      dsimp only
      rw [hskip]
      exact if_pos rfl
    · rw [hx]
      dsimp only
      rw [hskip]
      dsimp only
      rw [if_neg hclosing.comma, if_pos rfl, hothers]

theorem Items.readList_iff (h : Items item body xs) (hread : Parses read' item R)
    (hclosing : Closes closing) {bound : List Char} (hbound : xs.length ≤ bound.length)
    {left : List Char} :
    readList closing read' bound (body ++ closing :: rest) = .ok (ys, left) ↔
      left = rest ∧ List.Forall₂ R xs ys := by
  -- an item takes one round, and a round takes one character of the bound
  induction h generalizing bound ys with
  | last h =>
    obtain ⟨c, bound, rfl⟩ :=
      List.exists_cons_of_length_pos (Nat.lt_of_lt_of_le (Nat.succ_pos _) hbound)
    have hitem {y : β} {next : List Char} : ReadsTo read' _ y next ↔ _ :=
      h.readsTo_iff hread hclosing.blank (hclosing.number rest)
    rw [readList_cons_eq_ok_iff hclosing]
    constructor
    · rintro ⟨y, _, hy, hnext⟩
      obtain ⟨hrelated, rfl⟩ := hitem.1 hy
      rcases hnext with ⟨heq, rfl⟩ | ⟨t, others, heq, -⟩
      · cases heq
        exact ⟨rfl, .cons hrelated .nil⟩
      · cases heq
        exact absurd rfl hclosing.comma
    · rintro ⟨rfl, hall⟩
      obtain _ | ⟨hrelated, hnil⟩ := hall
      cases hnil
      exact ⟨_, _, hitem.2 ⟨hrelated, rfl⟩, Or.inl ⟨rfl, rfl⟩⟩
  | @cons text others x xs h _ ih =>
    obtain ⟨c, bound, rfl⟩ :=
      List.exists_cons_of_length_pos (Nat.lt_of_lt_of_le (Nat.succ_pos _) hbound)
    have hitem {y : β} {next : List Char} : ReadsTo read' _ y next ↔ _ :=
      h.readsTo_iff hread rfl (endsNumber_comma (others ++ closing :: rest))
    have hothers (ys : List β) :
        readList closing read' bound (others ++ closing :: rest) = .ok (ys, left) ↔
          left = rest ∧ List.Forall₂ R xs ys := ih (Nat.le_of_succ_le_succ hbound)
    rw [List.append_assoc, List.cons_append, readList_cons_eq_ok_iff hclosing]
    constructor
    · rintro ⟨y, _, hy, hnext⟩
      obtain ⟨hrelated, rfl⟩ := hitem.1 hy
      rcases hnext with ⟨heq, rfl⟩ | ⟨t, ys', heq, hys, rfl⟩
      · cases heq
        exact absurd rfl hclosing.comma
      · cases heq
        obtain ⟨hleft, hall⟩ := (hothers ys').1 hys
        exact ⟨hleft, .cons hrelated hall⟩
    · rintro ⟨hleft, hall⟩
      obtain _ | ⟨hrelated, hall⟩ := hall
      exact ⟨_, _, hitem.2 ⟨hrelated, rfl⟩,
        Or.inr ⟨_, _, rfl, (hothers _).2 ⟨hleft, hall⟩, rfl⟩⟩

theorem TakesOnly.items_of_readList (hread : TakesOnly read item) (hclosing : Closes closing)
    {bound s : List Char} (h : readList closing read bound s = .ok (xs, rest)) :
    ∃ body, s = body ++ closing :: rest ∧ Items item body xs := by
  induction bound generalizing s xs with
  | nil => cases h
  | cons c bound ih =>
    obtain ⟨x, _, ⟨after, hitem, rfl⟩, hnext⟩ := (readList_cons_eq_ok_iff hclosing).1 h
    obtain ⟨gap, text, hgap, rfl, htext⟩ := hread _ _ _ hitem
    rcases hnext with ⟨hskip, rfl⟩ | ⟨t, others, hskip, hothers, rfl⟩
    · obtain ⟨gap', hgap', rfl⟩ := blanks_of_skipBlank hskip
      exact ⟨gap ++ (text ++ gap'), by simp, .last (.around hgap htext hgap')⟩
    · obtain ⟨gap', hgap', rfl⟩ := blanks_of_skipBlank hskip
      obtain ⟨body, rfl, hbody⟩ := ih hothers
      exact ⟨gap ++ (text ++ gap') ++ ',' :: body, by simp, .cons (.around hgap htext hgap') hbody⟩

theorem Items.length_le (h : Items item body xs) : xs.length ≤ body.length + 1 := by
  induction h with
  | last _ => simp
  | cons _ _ ih =>
    simp only [List.length_cons, List.length_append]
    omega

/-- Items without the blanks before the first of them. -/
theorem Items.skipBlank (h : Items item body xs)
    (hhead : ∀ text x, item text x → ∃ c cs, text = c :: cs ∧ isBlank c = false ∧ c ≠ closing) :
    ∃ c cs, (∀ s, Json.skipBlank (body ++ s) = c :: (cs ++ s)) ∧ c ≠ closing ∧
      Items item (c :: cs) xs := by
  have hskip {before text : List Char} (after : List Char) (hbefore : Blanks before) {x : α}
      (htext : item text x) :
      ∃ c cs, text = c :: cs ∧ c ≠ closing ∧
        ∀ s, Json.skipBlank (before ++ (text ++ after) ++ s) = c :: (cs ++ (after ++ s)) := by
    obtain ⟨c, cs, rfl, hblank, hc⟩ := hhead text x htext
    refine ⟨c, cs, rfl, hc, fun s => ?_⟩
    rw [List.append_assoc, List.append_assoc, skipBlank_append hbefore, List.cons_append,
      skipBlank_cons hblank]
  cases h with
  | last h =>
    obtain @⟨before, text, after, _, hbefore, htext, hafter⟩ := h
    obtain ⟨c, cs, rfl, hc, hskip⟩ := hskip after hbefore htext
    refine ⟨c, cs ++ after, fun s => ?_, hc, .last (.around blanks_nil htext hafter)⟩
    rw [hskip, List.append_assoc]
  | @cons _ others _ _ h hrest =>
    obtain @⟨before, text, after, _, hbefore, htext, hafter⟩ := h
    obtain ⟨c, cs, rfl, hc, hskip⟩ := hskip after hbefore htext
    refine ⟨c, cs ++ after ++ ',' :: others, fun s => ?_, hc,
      .cons (.around blanks_nil htext hafter) hrest⟩
    rw [List.append_assoc, hskip]
    simp

theorem Items.blanks_append {gap : List Char} (hgap : Blanks gap) (h : Items item body xs) :
    Items item (gap ++ body) xs := by
  have hpadded {text : List Char} {x : α} (h : Padded item text x) :
      Padded item (gap ++ text) x := by
    obtain ⟨hbefore, h, hafter⟩ := h
    rw [← List.append_assoc]
    exact .around (List.forall_mem_append.2 ⟨hgap, hbefore⟩) h hafter
  cases h with
  | last h => exact .last (hpadded h)
  | cons h hrest =>
    rw [← List.append_assoc]
    exact .cons (hpadded h) hrest

theorem Enclosed.readEnclosed_iff {opening : Char} {text : List Char}
    (h : Enclosed opening closing item text xs) (hread : Parses read' item R)
    (hclosing : Closes closing)
    (hhead : ∀ text x, item text x → ∃ c cs, text = c :: cs ∧ isBlank c = false ∧ c ≠ closing)
    (rest : List Char) :
    ∃ body, text ++ rest = opening :: body ∧ ∀ ys left,
      readEnclosed closing read' body = .ok (ys, left) ↔ left = rest ∧ List.Forall₂ R xs ys := by
  cases h with
  | @none gap hgap =>
    refine ⟨gap ++ closing :: rest, by simp, fun ys left => ?_⟩
    simp only [readEnclosed, skipBlank_append hgap, skipBlank_cons hclosing.blank, if_true,
      Except.ok.injEq, Prod.mk.injEq, List.forall₂_nil_left_iff]
    exact ⟨fun ⟨hys, hleft⟩ => ⟨hleft.symm, hys.symm⟩, fun ⟨hleft, hys⟩ => ⟨hys.symm, hleft.symm⟩⟩
  | @some body _ h =>
    refine ⟨body ++ closing :: rest, by simp, fun ys left => ?_⟩
    obtain ⟨c, cs, hskip, hc, hitems⟩ := h.skipBlank hhead
    have hlength : xs.length ≤ (c :: (cs ++ closing :: rest)).length := by
      have hle := hitems.length_le
      simp only [List.length_cons, List.length_append] at hle ⊢
      omega
    rw [readEnclosed, hskip]
    dsimp only
    rw [if_neg hc]
    exact hitems.readList_iff hread hclosing hlength

theorem Enclosed.readEnclosed_eq_ok {opening : Char} {text : List Char}
    (h : Enclosed opening closing item text xs) (hread : Takes read item)
    (hclosing : Closes closing)
    (hhead : ∀ text x, item text x → ∃ c cs, text = c :: cs ∧ isBlank c = false ∧ c ≠ closing)
    (rest : List Char) :
    ∃ body, text ++ rest = opening :: body ∧ readEnclosed closing read body = .ok (xs, rest) := by
  obtain ⟨body, hbody, hiff⟩ := h.readEnclosed_iff hread.parses hclosing hhead rest
  exact ⟨body, hbody, (hiff xs rest).2 ⟨rfl, List.forall₂_same.2 fun _ _ => rfl⟩⟩

theorem TakesOnly.enclosed_of_readEnclosed (hread : TakesOnly read item)
    (hclosing : Closes closing) {s : List Char}
    (h : readEnclosed closing read s = .ok (xs, rest)) (opening : Char) :
    ∃ text, opening :: s = text ++ rest ∧ Enclosed opening closing item text xs := by
  unfold readEnclosed at h
  split at h
  · contradiction
  rename_i c after hskip
  obtain ⟨gap, hgap, rfl⟩ := blanks_of_skipBlank hskip
  split at h
  · rename_i hc
    cases h
    exact ⟨opening :: (gap ++ [closing]), by simp [hc], .none hgap⟩
  · obtain ⟨body, hbody, hitems⟩ := hread.items_of_readList hclosing h
    exact ⟨opening :: (gap ++ body ++ [closing]), by simp [hbody],
      .some (hitems.blanks_append hgap)⟩

variable (closing) in
theorem readEnclosed_of_error {c : Char} {cs : List Char} {e : Error} (hblank : isBlank c = false)
    (hc : c ≠ closing) (h : read (c :: cs) = .error e) :
    readEnclosed closing read (c :: cs) = .error e := by
  rw [readEnclosed, skipBlank_cons hblank]
  dsimp only
  rw [if_neg hc, readList, h]

end Lists

section Members

variable {kept : Bool} {value : List Char → Except Error (Json × List Char)}
  {item : List Char → Json → Prop}

theorem takes_readKey : Takes (readKey kept) (StringText kept) := by
  rintro gap _ _ rest hgap @⟨source, cs, h⟩ -
  rw [readKey_append hgap, readKey, List.cons_append, skipBlank_cons rfl]
  simpa using readStringRest_characters h [] rest

theorem takesOnly_readKey : TakesOnly (readKey kept) (StringText kept) := by
  intro s name rest h
  unfold readKey at h
  split at h
  · rename_i after hskip
    obtain ⟨gap, hgap, rfl⟩ := blanks_of_skipBlank hskip
    obtain ⟨source, cs, rfl, hsource, rfl⟩ := characters_of_readStringRest h
    exact ⟨gap, _, hgap, by simp, .quoted hsource⟩
  · contradiction
  · contradiction

theorem endsNumber_colon (s : List Char) : EndsNumber (':' :: s) := by
  intro c hc
  cases hc
  decide

theorem readColon_append {gap : List Char} (hgap : Blanks gap) (rest : List Char) :
    readColon (gap ++ ':' :: rest) = .ok rest := by
  rw [readColon, skipBlank_append hgap, skipBlank_cons rfl]
  rfl

theorem colon_of_readColon {s rest : List Char} (h : readColon s = .ok rest) :
    ∃ gap, Blanks gap ∧ s = gap ++ ':' :: rest := by
  unfold readColon at h
  split at h
  · rename_i hskip
    cases h
    exact blanks_of_skipBlank hskip
  · contradiction
  · contradiction

theorem takes_readMember (hvalue : Takes value item) :
    Takes (readMember kept value) (MemberText kept item) := by
  rintro gap _ _ rest hgap @⟨key, gap', gap'', text, name, x, hkey, hgap', hgap'', h⟩ hrest
  have hname := takes_readKey gap key name (gap' ++ ':' :: (gap'' ++ (text ++ rest))) hgap hkey
    (endsNumber_append hgap' (endsNumber_colon _))
  have hx := hvalue gap'' text x rest hgap'' h hrest
  simp only [readMember, List.append_assoc, List.cons_append, hname, readColon_append hgap', hx]

theorem takesOnly_readMember (hvalue : TakesOnly value item) :
    TakesOnly (readMember kept value) (MemberText kept item) := by
  intro s member rest h
  unfold readMember at h
  split at h
  · contradiction
  rename_i name after hkey
  split at h
  · contradiction
  rename_i after' hcolon
  split at h
  · contradiction
  rename_i x last hx
  cases h
  obtain ⟨gap, key, hgap, rfl, hname⟩ := takesOnly_readKey _ _ _ hkey
  obtain ⟨gap', hgap', rfl⟩ := colon_of_readColon hcolon
  obtain ⟨gap'', text, hgap'', rfl, htext⟩ := hvalue _ _ _ hx
  exact ⟨gap, _, hgap, by simp, .parts hname hgap' hgap'' htext⟩

end Members

section Values

variable {kept : Bool}

/-- A reader of the values between brackets that follows their grammar, if there are any. -/
inductive Follows : Option (List Char → Except Error (Json × List Char)) →
    Option (List Char → Json → Prop) → Prop where
  | none : Follows none none
  | some {value : List Char → Except Error (Json × List Char)} {item : List Char → Json → Prop}
      (takes : Takes value item) (takesOnly : TakesOnly value item)
      (head : ∀ text x, item text x → ∃ c cs, text = c :: cs ∧ isBlank c = false ∧ c ≠ ']') :
      Follows (some value) (some item)

variable {inner : Option (List Char → Except Error (Json × List Char))}
  {grammar : Option (List Char → Json → Prop)}

theorem readWord_eq_ok_iff {word s rest : List Char} :
    readWord word s = .ok rest ↔ s = word ++ rest := by
  induction word generalizing s with
  | nil => simp [readWord]
  | cons letter word ih =>
    cases s with
    | nil => simp [readWord]
    | cons c s =>
      rw [readWord, List.cons_append, List.cons.injEq, ← ih]
      split
      · rename_i hc
        simp [hc]
      · rename_i hc
        simp [hc]

theorem takes_readWith (hinner : Follows inner grammar) :
    Takes (readWith kept inner) (ValueText kept grammar) := by
  intro gap text j rest hgap h hrest
  have hskip :
      readWith kept inner (gap ++ (text ++ rest)) = readWith kept inner (text ++ rest) := by
    simp only [readWith, skipBlank_append hgap]
  rw [hskip]
  cases h with
  | null => rfl
  | isTrue => rfl
  | isFalse => rfl
  | number h =>
    have hnumber := readNumber_spelled h hrest
    obtain ⟨c, cs, rfl, hc⟩ := h.head
    rw [List.cons_append] at hnumber ⊢
    rw [readWith_number kept inner hc, hnumber]
    rfl
  | string h =>
    obtain @⟨source, cs, h⟩ := h
    have hstring := readStringRest_characters h [] rest
    rw [List.cons_append, readWith, skipBlank_cons rfl]
    simp only [List.append_assoc, List.cons_append, List.nil_append, hstring, Except.map,
      List.reverse_nil]
  | array hvalue h =>
    subst hvalue
    obtain - | ⟨htakes, -, hhead⟩ := hinner
    obtain ⟨body, htext, hread⟩ := h.readEnclosed_eq_ok htakes closes_bracket hhead rest
    rw [htext, readWith, skipBlank_cons rfl]
    simp only [readSequence, hread, Except.map]
  | object hvalue h =>
    subst hvalue
    obtain - | ⟨htakes, -, -⟩ := hinner
    obtain ⟨body, htext, hread⟩ := h.readEnclosed_eq_ok (takes_readMember htakes)
      closes_brace (fun _ _ h => h.head) rest
    rw [htext, readWith, skipBlank_cons rfl]
    simp only [readObject, hread, Except.map]

theorem takesOnly_readWith (hinner : Follows inner grammar) :
    TakesOnly (readWith kept inner) (ValueText kept grammar) := by
  intro s j rest h
  unfold readWith at h
  split at h
  · contradiction
  all_goals
    rename_i hskip
    obtain ⟨gap, hgap, rfl⟩ := blanks_of_skipBlank hskip
    refine ⟨gap, ?_⟩
  · obtain ⟨after, hword, h⟩ := map_eq_ok_iff.1 h
    cases h
    exact ⟨_, hgap, by rw [readWord_eq_ok_iff.1 hword]; rfl, .null⟩
  · obtain ⟨after, hword, h⟩ := map_eq_ok_iff.1 h
    cases h
    exact ⟨_, hgap, by rw [readWord_eq_ok_iff.1 hword]; rfl, .isTrue⟩
  · obtain ⟨after, hword, h⟩ := map_eq_ok_iff.1 h
    cases h
    exact ⟨_, hgap, by rw [readWord_eq_ok_iff.1 hword]; rfl, .isFalse⟩
  · obtain ⟨⟨text, after⟩, hstring, h⟩ := map_eq_ok_iff.1 h
    cases h
    obtain ⟨source, cs, rfl, hsource, rfl⟩ := characters_of_readStringRest hstring
    exact ⟨_, hgap, by simp, .string (.quoted hsource)⟩
  · split at h
    · contradiction
    obtain ⟨⟨items, after⟩, hread, h⟩ := map_eq_ok_iff.1 h
    cases h
    obtain - | ⟨-, htakesOnly, -⟩ := hinner
    obtain ⟨text, htext, hitems⟩ := htakesOnly.enclosed_of_readEnclosed closes_bracket hread '['
    exact ⟨text, hgap, by rw [htext], .array rfl hitems⟩
  · split at h
    · contradiction
    obtain ⟨⟨members, after⟩, hread, h⟩ := map_eq_ok_iff.1 h
    cases h
    obtain - | ⟨-, htakesOnly, -⟩ := hinner
    obtain ⟨text, htext, hmembers⟩ :=
      (takesOnly_readMember htakesOnly).enclosed_of_readEnclosed closes_brace hread '\x7b'
    exact ⟨text, hgap, by rw [htext], .object rfl hmembers⟩
  · split at h
    · obtain ⟨⟨n, after⟩, hread, h⟩ := map_eq_ok_iff.1 h
      cases h
      obtain ⟨text, htext, hnumber⟩ := text_of_readNumber hread
      exact ⟨text, hgap, by rw [htext], .number hnumber⟩
    · contradiction

theorem follows_readValue (kept : Bool) (depth : Nat) :
    Takes (readValue kept depth) (Spelled kept depth) ∧
      TakesOnly (readValue kept depth) (Spelled kept depth) := by
  induction depth with
  | zero => exact ⟨takes_readWith .none, takesOnly_readWith .none⟩
  | succ depth ih =>
    have hinner : Follows (some (readValue kept depth)) (some (Spelled kept depth)) :=
      .some ih.1 ih.2 fun _ _ h => h.head
    exact ⟨takes_readWith hinner, takesOnly_readWith hinner⟩

theorem complete_eq_ok_iff {α : Type} {result : Except Error (α × List Char)} {x : α} :
    complete result = .ok x ↔ ∃ rest, result = .ok (x, rest) ∧ Blanks rest := by
  unfold complete
  cases result with
  | error e => simp
  | ok r =>
    obtain ⟨y, rest⟩ := r
    constructor
    · intro h
      dsimp only at h
      split at h
      · rename_i hrest
        cases h
        obtain ⟨gap, hgap, rfl⟩ := blanks_of_skipBlank hrest
        rw [List.append_nil]
        exact ⟨gap, rfl, hgap⟩
      · contradiction
    · rintro ⟨_, h, hrest⟩
      cases h
      exact if_pos (skipBlank_blanks hrest)

theorem endsNumber_blanks {gap : List Char} (hgap : Blanks gap) : EndsNumber gap := by
  have h := endsNumber_append hgap (s := []) (fun c hc => by cases hc)
  rwa [List.append_nil] at h

end Values

section Beyond

/-- A number that no double holds. -/
def beyond : NumberLiteral := ⟨false, ['1'], none, some (false, ['9', '9', '9'])⟩

theorem toNumber?_beyond : beyond.toNumber? = none := by
  have hrange : beyond.toFloat? = none := by decide +kernel
  unfold NumberLiteral.toNumber?
  rw [hrange]
  rfl

theorem spelled_beyond : beyond.SpelledBy ['1', 'e', '9', '9', '9'] := by
  have hone : DigitRun ['1'] := ⟨List.cons_ne_nil _ _, List.forall_mem_singleton.2 rfl⟩
  have hnines : DigitRun ['9', '9', '9'] := by
    refine ⟨List.cons_ne_nil _ _, fun c hc => ?_⟩
    rw [List.eq_of_mem_replicate (n := 3) hc]
    rfl
  have hl : beyond.WellFormed := by
    refine ⟨hone, by simp [beyond], by simp [beyond], fun e he => ?_⟩
    cases he
    exact hnines
  have hexponent : ExponentText (some (false, ['9', '9', '9'])) ('e' :: ([] ++ ['9', '9', '9'])) :=
    .present ['9', '9', '9'] (Or.inl rfl) List.mem_cons_self
  exact .parts hl hexponent

theorem readValue_beyond (depth : Nat) {rest : List Char} (hrest : EndsNumber rest) :
    readValue true depth (['1', 'e', '9', '9', '9'] ++ rest) = .error .malformed := by
  have hliteral := readNumberLiteral_spelled spelled_beyond hrest
  have hnumber : readNumber true (['1', 'e', '9', '9', '9'] ++ rest) = .error .malformed := by
    simp only [readNumber, hliteral, toNumber?_beyond, if_true]
  obtain ⟨inner, hinner⟩ := readValue_eq true depth
  rw [List.cons_append] at hnumber ⊢
  rw [hinner, readWith_number true inner (by decide), hnumber]
  rfl

theorem not_spelled_beyond {depth : Nat} {j : Json} :
    ¬Spelled true depth ['1', 'e', '9', '9', '9'] j := by
  intro h
  obtain ⟨htakes, -⟩ := follows_readValue true depth
  have hend := endsNumber_blanks blanks_nil
  have hread := htakes [] _ j [] blanks_nil h hend
  rw [List.nil_append, readValue_beyond depth hend] at hread
  cases hread

end Beyond

end TraceSearch.Json
