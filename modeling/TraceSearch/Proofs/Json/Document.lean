import TraceSearch.Proofs.Json.Layout
import TraceSearch.Proofs.Json.Nesting

/-!
# Written values read back

A value spread over lines is read as the value with its members in the order of their names, if it
opens no more brackets than the reader allows, and is refused as malformed if it opens more. Main
fact: `readValue_prettyText`.
-/

namespace TraceSearch.Json

mutual

/-- A value with the members of its objects in the order of their names. -/
def sorted : Json → Json
  | array items => array (sortedItems items)
  | object members => object (ofMembers (sortedMembers members))
  | j => j

def sortedItems : List Json → List Json
  | [] => []
  | item :: rest => item.sorted :: sortedItems rest

def sortedMembers : List (String × Json) → List (String × Json)
  | [] => []
  | (name, value) :: rest => (name, value.sorted) :: sortedMembers rest

end

@[simp] theorem sortedItems_eq_map (items : List Json) : sortedItems items = items.map sorted := by
  induction items with
  | nil => rfl
  | cons item rest ih => rw [sortedItems, ih, List.map_cons]

@[simp] theorem sortedMembers_eq_map (members : List (String × Json)) :
    sortedMembers members = members.map fun member => (member.1, member.2.sorted) := by
  induction members with
  | nil => rfl
  | cons member rest ih => rw [sortedMembers, ih, List.map_cons]

@[simp] theorem prettyItems_eq_map (level : Nat) (items : List Json) :
    prettyItems level items = items.map (prettyText level) := by
  induction items with
  | nil => rfl
  | cons item rest ih => rw [prettyItems, ih, List.map_cons]

def memberText (level : Nat) (member : String × Json) : List Char :=
  stringText member.1 ++ [':', ' '] ++ prettyText level member.2

@[simp] theorem prettyMembers_eq_map (level : Nat) (members : List (String × Json)) :
    prettyMembers level members = members.map (memberText level) := by
  induction members with
  | nil => rfl
  | cons member rest ih => rw [prettyMembers, ih, List.map_cons, memberText]

theorem skipBlank_append {blanks : List Char} (h : ∀ c ∈ blanks, isBlank c = true)
    (s : List Char) : skipBlank (blanks ++ s) = skipBlank s := by
  induction blanks with
  | nil => rfl
  | cons c blanks ih =>
    have hc := h c List.mem_cons_self
    rw [List.cons_append, skipBlank, List.dropWhile_cons_of_pos hc]
    exact ih fun d hd => h d (List.mem_cons_of_mem _ hd)

theorem endsNumber_append {blanks s : List Char} (h : ∀ c ∈ blanks, isBlank c = true)
    (hs : EndsNumber s) : EndsNumber (blanks ++ s) := by
  cases blanks with
  | nil => exact hs
  | cons d blanks =>
    intro c hc
    cases hc
    have hd := h d List.mem_cons_self
    simp only [isBlank, Bool.or_eq_true, beq_iff_eq] at hd
    rcases hd with ((rfl | rfl) | rfl) | rfl <;> decide

theorem skipBlank_cons {c : Char} (hc : isBlank c = false) (s : List Char) :
    skipBlank (c :: s) = c :: s :=
  List.dropWhile_cons_of_neg (by rw [hc]; decide)

theorem endsNumber_comma (s : List Char) : EndsNumber (',' :: s) := by
  intro c hc
  cases hc
  decide

theorem endsNumber_bracket (s : List Char) : EndsNumber (']' :: s) := by
  intro c hc
  cases hc
  decide

theorem endsNumber_brace (s : List Char) : EndsNumber ('\x7d' :: s) := by
  intro c hc
  cases hc
  decide

section List

variable {α β : Type} {closing : Char} {sep last : List Char}
  {item : List Char → Except Error (β × List Char)} {small : α → Prop} [DecidablePred small]
  {text : α → List Char} {value : α → β}

theorem readList_skip (hskip : ∀ s, item (sep ++ s) = item s) (bound s : List Char) :
    readList closing item bound (sep ++ s) = readList closing item bound s := by
  cases bound with
  | nil => rfl
  | cons c bound => simp only [readList, hskip]

/-- Items of which the reader takes the small ones and refuses the others, with blanks after each
comma and at the end. -/
theorem readList_texts (hclosing : isBlank closing = false) (hseparates : ',' ≠ closing)
    (hends : ∀ s, EndsNumber (closing :: s)) (hskip : ∀ s, item (sep ++ s) = item s)
    (hlast : ∀ c ∈ last, isBlank c = true) {xs : List α} (hne : xs ≠ [])
    (hitem : ∀ x ∈ xs, ∀ rest, EndsNumber rest → item (text x ++ rest) =
      if small x then .ok (value x, rest) else .error .malformed)
    {bound : List Char} (hbound : xs.length ≤ bound.length) (rest : List Char) :
    readList closing item bound (List.intercalate (',' :: sep) (xs.map text) ++
        (last ++ closing :: rest)) =
      if ∀ x ∈ xs, small x then .ok (xs.map value, rest) else .error .malformed := by
  induction xs generalizing bound with
  | nil => exact absurd rfl hne
  | cons x xs ih =>
    obtain ⟨hx, hxs⟩ := List.forall_mem_cons.1 hitem
    cases bound with
    | nil => simp at hbound
    | cons c bound =>
      have hlength : xs.length ≤ bound.length := Nat.le_of_succ_le_succ hbound
      cases xs with
      | nil =>
        have htext : List.intercalate (',' :: sep) ([x].map text) = text x :=
          List.intercalate_singleton
        have hread := hx (last ++ closing :: rest) (endsNumber_append hlast (hends rest))
        have hclose : skipBlank (last ++ closing :: rest) = closing :: rest := by
          rw [skipBlank_append hlast, skipBlank_cons hclosing]
        rw [htext, readList, hread]
        by_cases hsmall : small x
        · simp [hsmall, hclose]
        · simp [hsmall]
      | cons y ys =>
        have hrest := ih (List.cons_ne_nil _ _) hxs hlength
        rw [List.map_cons, List.map_cons, List.intercalate_cons_cons, List.append_assoc,
          List.append_assoc, List.cons_append, ← List.map_cons, readList,
          hx _ (endsNumber_comma _)]
        by_cases hsmall : small x
        · have hcomma : skipBlank (',' :: (sep ++
              (List.intercalate (',' :: sep) ((y :: ys).map text) ++
                (last ++ closing :: rest)))) = _ := skipBlank_cons rfl _
          have hall : (∀ z ∈ x :: y :: ys, small z) ↔ ∀ z ∈ y :: ys, small z := by
            rw [List.forall_mem_cons, and_iff_right hsmall]
          simp only [hsmall, if_true, hcomma, hseparates, if_false, readList_skip hskip, hrest,
            hall]
          by_cases hrest : ∀ z ∈ y :: ys, small z
          · rw [if_pos hrest, if_pos hrest]
            rfl
          · rw [if_neg hrest, if_neg hrest]
        · simp [hsmall]

theorem length_le_intercalate {texts : List (List Char)} (h : ∀ t ∈ texts, t ≠ [])
    (sep : List Char) : texts.length ≤ (List.intercalate sep texts).length := by
  induction texts with
  | nil => exact Nat.zero_le _
  | cons t texts ih =>
    obtain ⟨ht, htexts⟩ := List.forall_mem_cons.1 h
    have hpos : 0 < t.length := List.length_pos_iff.2 ht
    cases texts with
    | nil =>
      rw [List.intercalate_singleton]
      exact hpos
    | cons u us =>
      have hrest := ih htexts
      rw [List.intercalate_cons_cons, List.length_append, List.length_append, List.length_cons]
      omega

theorem exists_intercalate_cons (sep t : List Char) (texts : List (List Char)) :
    ∃ tail, List.intercalate sep (t :: texts) = t ++ tail := by
  cases texts with
  | nil => exact ⟨[], by simp⟩
  | cons u us => exact ⟨_, List.intercalate_cons_cons.trans (List.append_assoc _ _ _)⟩

/-- Texts between brackets, with blanks before each and at the end. -/
theorem readEnclosed_texts (hclosing : isBlank closing = false) (hseparates : ',' ≠ closing)
    (hends : ∀ s, EndsNumber (closing :: s)) (hsep : ∀ c ∈ sep, isBlank c = true)
    (hskip : ∀ s, item (sep ++ s) = item s) (hlast : ∀ c ∈ last, isBlank c = true) {xs : List α}
    (hne : xs ≠ [])
    (hitem : ∀ x ∈ xs, ∀ rest, EndsNumber rest → item (text x ++ rest) =
      if small x then .ok (value x, rest) else .error .malformed)
    (hhead : ∀ x ∈ xs, ∃ c cs, text x = c :: cs ∧ isBlank c = false ∧ c ≠ closing)
    (rest : List Char) :
    readEnclosed closing item (sep ++ (List.intercalate (',' :: sep) (xs.map text) ++
        (last ++ closing :: rest))) =
      if ∀ x ∈ xs, small x then .ok (xs.map value, rest) else .error .malformed := by
  cases xs with
  | nil => exact absurd rfl hne
  | cons x xs =>
    obtain ⟨c, cs, htext, hblank, hc⟩ := hhead x List.mem_cons_self
    have hnonempty : ∀ t ∈ (x :: xs).map text, t ≠ [] := by
      intro t ht
      obtain ⟨y, hy, rfl⟩ := List.mem_map.1 ht
      obtain ⟨d, ds, hd, -⟩ := hhead y hy
      rw [hd]
      exact List.cons_ne_nil _ _
    have hlength := length_le_intercalate hnonempty (',' :: sep)
    rw [List.length_map] at hlength
    obtain ⟨tail, htail⟩ := exists_intercalate_cons (',' :: sep) (text x) (xs.map text)
    have hread := fun (bound : List Char) (hbound : (x :: xs).length ≤ bound.length) =>
      readList_texts hclosing hseparates hends hskip hlast (List.cons_ne_nil x xs) hitem hbound rest
    rw [List.map_cons] at hlength hread ⊢
    unfold readEnclosed
    rw [skipBlank_append hsep, htail, htext, List.cons_append, List.cons_append,
      skipBlank_cons hblank]
    dsimp only
    rw [if_neg hc, ← List.cons_append, ← List.cons_append, ← htext, ← htail]
    refine hread _ ?_
    rw [List.length_append]
    omega

theorem readEnclosed_enclose {opening : Char} (l : Layout) {level : Nat}
    (hclosing : isBlank closing = false) (hseparates : ',' ≠ closing)
    (hends : ∀ s, EndsNumber (closing :: s)) (hskip : ∀ s, item (l.gap (level + 1) ++ s) = item s)
    {xs : List α}
    (hitem : ∀ x ∈ xs, ∀ rest, EndsNumber rest → item (text x ++ rest) =
      if small x then .ok (value x, rest) else .error .malformed)
    (hhead : ∀ x ∈ xs, ∃ c cs, text x = c :: cs ∧ isBlank c = false ∧ c ≠ closing)
    (rest : List Char) :
    ∃ body, l.enclose level opening closing (xs.map text) ++ rest = opening :: body ∧
      readEnclosed closing item body =
        if ∀ x ∈ xs, small x then .ok (xs.map value, rest) else .error .malformed := by
  by_cases hne : xs = []
  · subst hne
    refine ⟨closing :: rest, rfl, ?_⟩
    unfold readEnclosed
    rw [skipBlank_cons hclosing]
    simp
  · refine ⟨l.gap (level + 1) ++ (List.intercalate (',' :: l.gap (level + 1)) (xs.map text) ++
      (l.gap level ++ closing :: rest)), by simp [Layout.enclose, hne], ?_⟩
    exact readEnclosed_texts hclosing hseparates hends (l.isBlank_gap (level + 1)) hskip
      (l.isBlank_gap level) hne hitem hhead rest

end List

section Blanks

variable {blanks : List Char} (h : ∀ c ∈ blanks, isBlank c = true) (kept : Bool)

include h

theorem readValue_append (depth : Nat) (s : List Char) :
    readValue kept depth (blanks ++ s) = readValue kept depth s := by
  cases depth <;> simp only [readValue, readWith, skipBlank_append h]

theorem readKey_append (s : List Char) : readKey kept (blanks ++ s) = readKey kept s := by
  simp only [readKey, skipBlank_append h]

theorem readMember_append (value : List Char → Except Error (Json × List Char)) (s : List Char) :
    readMember kept value (blanks ++ s) = readMember kept value s := by
  simp only [readMember, readKey_append h]

end Blanks

theorem stringText_append (text : String) (rest : List Char) :
    stringText text ++ rest = '"' :: (text.toList.flatMap escapedChar ++ '"' :: rest) := by
  simp [stringText]

theorem readKey_stringText (kept : Bool) (name : String) (rest : List Char) :
    readKey kept (stringText name ++ rest) = .ok (name, rest) := by
  rw [readKey, stringText_append, skipBlank_cons rfl]
  simp only [readStringRest_escaped, List.reverse_nil, List.nil_append, String.ofList_toList]

@[simp] theorem readColon_cons (rest : List Char) : readColon (':' :: rest) = .ok rest := by
  rw [readColon, skipBlank_cons rfl]
  rfl

/-- A member whose value may follow blanks. -/
theorem readMember_cons (kept : Bool) (depth : Nat) (name : String) {colon : List Char}
    (hcolon : ∀ c ∈ colon, isBlank c = true) (s : List Char) :
    readMember kept (readValue kept depth) (stringText name ++ ':' :: (colon ++ s)) =
      (readValue kept depth s).map fun (v, rest) => ((name, v), rest) := by
  unfold readMember
  simp only [readKey_stringText, readColon_cons, readValue_append hcolon]
  cases readValue kept depth s <;> rfl

theorem readMember_memberText (kept : Bool) (depth level : Nat) (member : String × Json)
    (rest : List Char) :
    readMember kept (readValue kept depth) (memberText level member ++ rest) =
      (readValue kept depth (prettyText level member.2 ++ rest)).map fun (v, rest) =>
        ((member.1, v), rest) := by
  have htext : memberText level member ++ rest =
      stringText member.1 ++ ':' :: ([' '] ++ (prettyText level member.2 ++ rest)) := by
    simp [memberText]
  rw [htext, readMember_cons kept depth _ fun _ hc => List.mem_singleton.1 hc ▸ rfl]

theorem StartsNumber.ne {c d : Char} (h : StartsNumber c) (hd : ¬StartsNumber d) : c ≠ d := by
  rintro rfl
  exact hd h

theorem StartsNumber.not_blank {c : Char} (h : StartsNumber c) : isBlank c = false := by
  have hspace := h.ne (d := ' ') (by decide)
  have htab := h.ne (d := '\t') (by decide)
  have hline := h.ne (d := '\n') (by decide)
  have hreturn := h.ne (d := '\r') (by decide)
  simp [isBlank, hspace, htab, hline, hreturn]

theorem readWith_number (kept : Bool)
    (inner : Option (List Char → Except Error (Json × List Char))) {c : Char} (hc : StartsNumber c)
    (cs : List Char) :
    readWith kept inner (c :: cs) =
      (readNumber kept (c :: cs)).map fun (n, rest) => (number n, rest) := by
  unfold readWith
  rw [skipBlank_cons hc.not_blank]
  split <;> rename_i heq <;> cases heq
  case h_8 => exact if_pos hc
  -- the other values start with characters of their own
  all_goals exact absurd hc (by decide)

theorem head_prettyText {j : Json} (h : j.Rereads) (level : Nat) :
    ∃ c cs, prettyText level j = c :: cs ∧ isBlank c = false ∧ c ≠ ']' := by
  cases h with
  | null => exact ⟨_, _, rfl, by decide⟩
  | bool b => cases b <;> exact ⟨_, _, rfl, by decide⟩
  | number hn =>
    obtain ⟨c, cs, htext, hc⟩ := head_numberText hn
    have hc : StartsNumber c := hc
    exact ⟨c, cs, htext, hc.not_blank, hc.ne (by decide)⟩
  | string s => exact ⟨_, _, rfl, by decide⟩
  | array h =>
    unfold prettyText spread
    split <;> exact ⟨_, _, rfl, by decide⟩
  | object h =>
    unfold prettyText spread
    split <;> exact ⟨_, _, rfl, by decide⟩

theorem head_memberText (level : Nat) (member : String × Json) :
    ∃ c cs, memberText level member = c :: cs ∧ isBlank c = false ∧ c ≠ '\x7d' :=
  ⟨_, _, rfl, by decide⟩

theorem readValue_eq (kept : Bool) (depth : Nat) :
    ∃ inner, readValue kept depth = readWith kept inner := by
  cases depth with
  | zero => exact ⟨_, rfl⟩
  | succ depth => exact ⟨_, rfl⟩

@[simp]
theorem readWord_append (word rest : List Char) : readWord word (word ++ rest) = .ok rest := by
  induction word with
  | nil => rfl
  | cons c word ih => rw [List.cons_append, readWord, if_pos rfl, ih]

/-- A value without brackets is read at any depth. -/
theorem readWith_scalar {j : Json} (h : j.Rereads) (hscalar : j.nesting = 0) (kept : Bool)
    (inner : Option (List Char → Except Error (Json × List Char))) (level : Nat)
    {rest : List Char} (hrest : EndsNumber rest) :
    readWith kept inner (prettyText level j ++ rest) = .ok (j.sorted, rest) := by
  cases h with
  | null =>
    show readWith kept inner ('n' :: (['u', 'l', 'l'] ++ rest)) = _
    rw [readWith, skipBlank_cons rfl]
    simp only [readWord_append, Except.map, sorted]
  | bool b =>
    cases b with
    | true =>
      show readWith kept inner ('t' :: (['r', 'u', 'e'] ++ rest)) = _
      rw [readWith, skipBlank_cons rfl]
      simp only [readWord_append, Except.map, sorted]
    | false =>
      show readWith kept inner ('f' :: (['a', 'l', 's', 'e'] ++ rest)) = _
      rw [readWith, skipBlank_cons rfl]
      simp only [readWord_append, Except.map, sorted]
  | @number n hn =>
    obtain ⟨c, cs, htext, hc⟩ := head_numberText hn
    have hread := readNumber_text hn hrest kept
    show readWith kept inner (n.text ++ rest) = _
    rw [htext, List.cons_append] at hread ⊢
    rw [readWith_number kept inner hc, hread]
    rfl
  | string s =>
    show readWith kept inner (stringText s ++ rest) = _
    rw [stringText_append, readWith, skipBlank_cons rfl]
    simp only [readStringRest_escaped, Except.map, List.reverse_nil, List.nil_append,
      String.ofList_toList, sorted]
  | array => cases hscalar
  | object => cases hscalar

section Value

variable (kept : Bool) (depth level : Nat) {rest : List Char}

theorem readValue_scalar {j : Json} (h : j.Rereads) (hscalar : j.nesting = 0)
    (hrest : EndsNumber rest) :
    readValue kept depth (prettyText level j ++ rest) = .ok (j.sorted, rest) := by
  obtain ⟨inner, hinner⟩ := readValue_eq kept depth
  rw [hinner, readWith_scalar h hscalar kept inner level hrest]

theorem exists_spread (level : Nat) (opening closing : Char) (parts : List (List Char))
    (rest : List Char) : ∃ body, spread level opening closing parts ++ rest = opening :: body := by
  unfold spread
  split <;> exact ⟨_, rfl⟩

/-- A bracket that is one too many. -/
theorem readValue_at_limit {opening : Char} (hopening : opening = '[' ∨ opening = '\x7b')
    (closing : Char) (parts : List (List Char)) (rest : List Char) :
    readValue kept 0 (spread level opening closing parts ++ rest) = .error .malformed := by
  obtain ⟨body, hbody⟩ := exists_spread level opening closing parts rest
  rw [hbody, readValue, readWith]
  rcases hopening with rfl | rfl <;> rw [skipBlank_cons rfl] <;> rfl

theorem readValue_array {items : List Json} (h : ∀ item ∈ items, item.Rereads)
    (hitem : ∀ item ∈ items, ∀ rest, EndsNumber rest →
      readValue kept depth (prettyText (level + 1) item ++ rest) =
        if item.nesting ≤ depth then .ok (item.sorted, rest) else .error .malformed) :
    readValue kept (depth + 1) (prettyText level (array items) ++ rest) =
      if (array items).nesting ≤ depth + 1 then .ok ((array items).sorted, rest)
      else .error .malformed := by
  have hread : ∃ body,
      spread level '[' ']' (items.map (prettyText (level + 1))) ++ rest = '[' :: body ∧
        readEnclosed ']' (readValue kept depth) body =
          if ∀ item ∈ items, item.nesting ≤ depth then .ok (items.map sorted, rest)
          else .error .malformed :=
    readEnclosed_enclose .lines rfl (by decide) endsNumber_bracket
      (readValue_append (fun _ hc => isBlank_of_mem_newLine hc) kept depth) hitem
      (fun item hi => head_prettyText (h item hi) (level + 1)) rest
  obtain ⟨body, hbody, hread⟩ := hread
  rw [prettyText, prettyItems_eq_map, hbody, readValue, readWith, skipBlank_cons rfl]
  simp only [readSequence, hread, nesting, ← itemsNesting_le_iff, Nat.add_le_add_iff_right, sorted,
    sortedItems_eq_map]
  split <;> rfl

theorem readValue_object {members : List (String × Json)}
    (hvalue : ∀ member ∈ members, ∀ rest, EndsNumber rest →
      readValue kept depth (prettyText (level + 1) member.2 ++ rest) =
        if member.2.nesting ≤ depth then .ok (member.2.sorted, rest) else .error .malformed) :
    readValue kept (depth + 1) (prettyText level (object members) ++ rest) =
      if (object members).nesting ≤ depth + 1 then .ok ((object members).sorted, rest)
      else .error .malformed := by
  have hmember (member : String × Json) (hm : member ∈ members) (rest : List Char)
      (hrest : EndsNumber rest) :
      readMember kept (readValue kept depth) (memberText (level + 1) member ++ rest) =
        if member.2.nesting ≤ depth then .ok ((member.1, member.2.sorted), rest)
        else .error .malformed := by
    rw [readMember_memberText, hvalue member hm rest hrest]
    split <;> rfl
  have hread : ∃ body,
      spread level '\x7b' '\x7d' (members.map (memberText (level + 1))) ++ rest = '\x7b' :: body ∧
        readEnclosed '\x7d' (readMember kept (readValue kept depth)) body =
          if ∀ member ∈ members, member.2.nesting ≤ depth then
            .ok (members.map fun member => (member.1, member.2.sorted), rest)
          else .error .malformed :=
    readEnclosed_enclose .lines rfl (by decide) endsNumber_brace
      (readMember_append (fun _ hc => isBlank_of_mem_newLine hc) kept _) hmember
      (fun member _ => head_memberText (level + 1) member) rest
  obtain ⟨body, hbody, hread⟩ := hread
  rw [prettyText, prettyMembers_eq_map, hbody, readValue, readWith, skipBlank_cons rfl]
  simp only [readObject, hread, nesting, ← membersNesting_le_iff, Nat.add_le_add_iff_right, sorted,
    sortedMembers_eq_map]
  split <;> rfl

/-- A written value is read as far as the reader may open brackets. -/
theorem readValue_prettyText {j : Json} (h : j.Rereads) (hrest : EndsNumber rest) :
    readValue kept depth (prettyText level j ++ rest) =
      if j.nesting ≤ depth then .ok (j.sorted, rest) else .error .malformed := by
  -- on the numbers a value may hold: an array or an object takes one bracket, the rest none
  induction h generalizing depth level rest with
  | null => exact readValue_scalar kept depth level .null rfl hrest
  | bool b => exact readValue_scalar kept depth level (.bool b) rfl hrest
  | number hn => exact readValue_scalar kept depth level (.number hn) rfl hrest
  | string s => exact readValue_scalar kept depth level (.string s) rfl hrest
  | array h ih =>
    cases depth with
    | zero => exact readValue_at_limit kept level (Or.inl rfl) _ _ rest
    | succ depth =>
      exact readValue_array kept depth level h fun item hi rest hrest =>
        ih item hi depth (level + 1) hrest
  | object h ih =>
    cases depth with
    | zero => exact readValue_at_limit kept level (Or.inr rfl) _ _ rest
    | succ depth =>
      exact readValue_object kept depth level fun member hm rest hrest =>
        ih member hm depth (level + 1) hrest

end Value

end TraceSearch.Json
