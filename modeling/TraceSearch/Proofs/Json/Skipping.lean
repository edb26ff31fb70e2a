import TraceSearch.Proofs.Json.Reading

/-!
# Values that are kept and values that are skipped

The grammar of documents has values that cannot be kept: a half of a pair stands alone in a string,
or a number is too large. They are skipped like any other. Main facts: `readValue_covers`, what is
kept may be skipped, and `readValue_parses`, whether a value is kept, and as what, is up to its own
text.
-/

namespace TraceSearch.Json

section Skipping

variable {α β : Type}

/-- A reader that goes as far as another one, wherever that one comes to an end. -/
def Covers (read : List Char → Except Error (α × List Char))
    (read' : List Char → Except Error (β × List Char)) : Prop :=
  ∀ s x rest, read s = .ok (x, rest) → ∃ y, read' s = .ok (y, rest)

theorem Characters.skipped {source cs : List Char} (h : Characters true source cs) :
    ∃ cs, Characters false source cs := by
  induction h with
  | nil => exact ⟨_, .nil⟩
  | plain hquote hbackslash hc _ ih =>
    obtain ⟨cs, ih⟩ := ih
    exact ⟨_, .plain hquote hbackslash hc ih⟩
  | escape he _ ih =>
    obtain ⟨cs, ih⟩ := ih
    exact ⟨_, .escape he ih⟩
  | unit hunit _ _ ih =>
    obtain ⟨cs, ih⟩ := ih
    exact ⟨_, .unit hunit (fun h => by cases h) ih⟩
  | pair _ hunit _ hnext _ _ ih =>
    obtain ⟨cs, ih⟩ := ih
    exact ⟨_, .unit hunit (fun h => by cases h) (.unit hnext (fun h => by cases h) ih)⟩

theorem readStringRest_covers (before : List Char) :
    Covers (readStringRest true before) (readStringRest false before) := by
  intro s text rest h
  obtain ⟨source, cs, rfl, hsource, -⟩ := characters_of_readStringRest h
  obtain ⟨cs', hskipped⟩ := hsource.skipped
  exact ⟨_, readStringRest_characters hskipped before rest⟩

theorem readNumber_covers : Covers (readNumber true) (readNumber false) :=
  fun _ n _ h => ⟨n, readNumber_kept h false⟩

variable {read : List Char → Except Error (α × List Char)}
  {read' : List Char → Except Error (β × List Char)}

theorem readList_covers {closing : Char} (hclosing : Closes closing) (h : Covers read read')
    (bound : List Char) : Covers (readList closing read bound) (readList closing read' bound) := by
  induction bound with
  | nil =>
    intro s xs rest hread
    cases hread
  | cons c bound ih =>
    intro s xs rest hread
    obtain ⟨x, next, ⟨after, hx, hskip⟩, hnext⟩ := (readList_cons_eq_ok_iff hclosing).1 hread
    obtain ⟨y, hy⟩ := h _ _ _ hx
    rcases hnext with ⟨hlast, -⟩ | ⟨t, others, hmore, hothers, -⟩
    · exact ⟨_, (readList_cons_eq_ok_iff hclosing).2
        ⟨y, next, ⟨after, hy, hskip⟩, Or.inl ⟨hlast, rfl⟩⟩⟩
    · obtain ⟨ys, hys⟩ := ih _ _ _ hothers
      exact ⟨_, (readList_cons_eq_ok_iff hclosing).2
        ⟨y, next, ⟨after, hy, hskip⟩, Or.inr ⟨t, ys, hmore, hys, rfl⟩⟩⟩

theorem readEnclosed_covers {closing : Char} (hclosing : Closes closing) (h : Covers read read') :
    Covers (readEnclosed closing read) (readEnclosed closing read') := by
  intro s xs rest hread
  unfold readEnclosed at hread ⊢
  split at hread
  · contradiction
  rename_i c after hskip
  split at hread
  · rename_i hc
    cases hread
    exact ⟨[], if_pos hc⟩
  · rename_i hc
    rw [if_neg hc]
    exact readList_covers hclosing h _ _ _ _ hread

theorem readKey_covers : Covers (readKey true) (readKey false) := by
  intro s name rest h
  unfold readKey at h ⊢
  split at h
  · exact readStringRest_covers [] _ _ _ h
  · contradiction
  · contradiction

theorem readMember_covers {value value' : List Char → Except Error (Json × List Char)}
    (h : Covers value value') : Covers (readMember true value) (readMember false value') := by
  intro s member rest hread
  unfold readMember at hread
  split at hread
  · contradiction
  rename_i name after hkey
  split at hread
  · contradiction
  rename_i after' hcolon
  split at hread
  · contradiction
  rename_i x last hx
  cases hread
  obtain ⟨y, hy⟩ := h _ _ _ hx
  obtain ⟨name', hname⟩ := readKey_covers _ _ _ hkey
  simp only [readMember, hname, hcolon, hy]
  exact ⟨_, rfl⟩

theorem readWith_covers {inner inner' : Option (List Char → Except Error (Json × List Char))}
    (h : ∀ value, inner = some value → ∃ value', inner' = some value' ∧ Covers value value') :
    Covers (readWith true inner) (readWith false inner') := by
  intro s j rest hread
  unfold readWith at hread ⊢
  split at hread
  · contradiction
  · exact ⟨_, hread⟩
  · exact ⟨_, hread⟩
  · exact ⟨_, hread⟩
  · obtain ⟨⟨text, after⟩, hstring, heq⟩ := map_eq_ok_iff.1 hread
    cases heq
    obtain ⟨text', htext⟩ := readStringRest_covers [] _ _ _ hstring
    exact ⟨_, map_eq_ok_iff.2 ⟨_, htext, rfl⟩⟩
  · split at hread
    · contradiction
    rename_i value
    obtain ⟨value', rfl, hvalue⟩ := h value rfl
    obtain ⟨⟨items, after⟩, hitems, heq⟩ := map_eq_ok_iff.1 hread
    cases heq
    obtain ⟨items', hitems'⟩ := readEnclosed_covers closes_bracket hvalue _ _ _ hitems
    exact ⟨_, map_eq_ok_iff.2 ⟨_, hitems', rfl⟩⟩
  · split at hread
    · contradiction
    rename_i value
    obtain ⟨value', rfl, hvalue⟩ := h value rfl
    obtain ⟨⟨members, after⟩, hmembers, heq⟩ := map_eq_ok_iff.1 hread
    cases heq
    obtain ⟨members', hmembers'⟩ :=
      readEnclosed_covers closes_brace (readMember_covers hvalue) _ _ _ hmembers
    exact ⟨_, map_eq_ok_iff.2 ⟨_, hmembers', rfl⟩⟩
  · split at hread
    · rename_i hc
      obtain ⟨⟨n, after⟩, hnumber, heq⟩ := map_eq_ok_iff.1 hread
      cases heq
      obtain ⟨n', hn'⟩ := readNumber_covers _ _ _ hnumber
      rw [if_pos hc]
      exact ⟨_, map_eq_ok_iff.2 ⟨_, hn', rfl⟩⟩
    · contradiction

/-- What is kept may be skipped, with more brackets open. -/
theorem readValue_covers {depth limit : Nat} (h : depth ≤ limit) :
    Covers (readValue true depth) (readValue false limit) := by
  induction depth generalizing limit with
  | zero =>
    obtain ⟨inner, hinner⟩ := readValue_eq false limit
    rw [hinner]
    exact readWith_covers fun value hvalue => by cases hvalue
  | succ depth ih =>
    cases limit with
    | zero => exact absurd h (Nat.not_succ_le_zero depth)
    | succ limit =>
      refine readWith_covers fun value hvalue => ?_
      cases hvalue
      exact ⟨_, rfl, ih (Nat.le_of_succ_le_succ h)⟩

end Skipping

section Values

variable {α β : Type} {text : List Char}

def StartsFilled (text : List Char) : Prop := ∃ c cs, text = c :: cs ∧ isBlank c = false

theorem append_inj_of_blanks {gap gap' text' : List Char} (hgap : Blanks gap) (hgap' : Blanks gap')
    (htext : StartsFilled text) (htext' : StartsFilled text') (h : gap ++ text = gap' ++ text') :
    text = text' := by
  obtain ⟨c, cs, rfl, hc⟩ := htext
  obtain ⟨c', cs', rfl, hc'⟩ := htext'
  have hskip := congrArg skipBlank h
  rwa [skipBlank_append hgap, skipBlank_append hgap', skipBlank_cons hc,
    skipBlank_cons hc'] at hskip

/-- A text that a reader takes as a whole, whatever follows it. -/
def Passes (read : List Char → Except Error (β × List Char)) (text : List Char) : Prop :=
  ∃ y, ∀ gap rest, Blanks gap → EndsNumber rest → read (gap ++ (text ++ rest)) = .ok (y, rest)

/-- A reader with a grammar makes something of a text only by that grammar, if another one that
goes at least as far takes the text as a whole. -/
theorem parses_of_covers {read : List Char → Except Error (α × List Char)}
    {item : List Char → α → Prop} {P : List Char → Prop} (htakes : Takes read item)
    (htakesOnly : TakesOnly read item) (hitem : ∀ t x, item t x → StartsFilled t)
    (hP : ∀ t, P t → StartsFilled t)
    (hpasses : ∀ t, P t → ∃ read' : List Char → Except Error (β × List Char),
      Covers read read' ∧ Passes read' t) :
    Parses read (fun text t => t = text ∧ P t) item := by
  rintro gap _ text rest hgap ⟨rfl, htext⟩ hrest x left
  constructor
  · intro h
    -- the other reader says where the text ends, the grammar what stands there
    obtain ⟨read', hcovers, y, hy⟩ := hpasses text htext
    obtain ⟨z, hz⟩ := hcovers _ _ _ h
    obtain rfl : left = rest := by
      rw [hy gap rest hgap hrest] at hz
      cases hz
      rfl
    obtain ⟨gap', t, hgap', heq, ht⟩ := htakesOnly _ _ _ h
    rw [← List.append_assoc, ← List.append_assoc, List.append_cancel_right_eq] at heq
    obtain rfl := append_inj_of_blanks hgap hgap' (hP _ htext) (hitem _ _ ht) heq
    exact ⟨rfl, ht⟩
  · rintro ⟨rfl, h⟩
    exact htakes gap text x left hgap h hrest

/-- A value by the grammar of documents, whether it may be kept or not. -/
def IsValue (text : List Char) : Prop := ∃ depth j, Spelled false depth text j

theorem Spelled.startsFilled {kept : Bool} {depth : Nat} {j : Json}
    (h : Spelled kept depth text j) : StartsFilled text := by
  obtain ⟨c, cs, htext, hc, -⟩ := h.head
  exact ⟨c, cs, htext, hc⟩

theorem IsValue.passes (h : IsValue text) {limit : Nat} (hlimit : text.length ≤ limit) :
    Passes (readValue false limit) text := by
  obtain ⟨depth, j, h⟩ := h
  obtain ⟨htakes, -⟩ := follows_readValue false limit
  exact ⟨j, fun gap rest hgap hrest => htakes gap text j rest hgap (h.within hlimit) hrest⟩

theorem IsValue.skipValue (h : IsValue text) {gap rest : List Char} (hgap : Blanks gap)
    (hrest : EndsNumber rest) : Json.skipValue (gap ++ (text ++ rest)) = .ok rest := by
  have hlength : text.length ≤ (gap ++ (text ++ rest)).length := by
    simp only [List.length_append]
    omega
  obtain ⟨j, hj⟩ := h.passes hlength
  rw [Json.skipValue, hj gap rest hgap hrest]
  rfl

/-- A value of a document is kept as what its own text spells, whatever follows it. -/
theorem readValue_parses (depth : Nat) :
    Parses (readValue true depth) (fun text t => t = text ∧ IsValue t) (Spelled true depth) := by
  obtain ⟨htakes, htakesOnly⟩ := follows_readValue true depth
  have hpasses (t : List Char) (ht : IsValue t) :
      ∃ read' : List Char → Except Error (Json × List Char),
        Covers (readValue true depth) read' ∧ Passes read' t :=
    ⟨_, readValue_covers (le_max_left depth t.length), ht.passes (le_max_right _ _)⟩
  refine parses_of_covers htakes htakesOnly (fun _ _ h => h.startsFilled) ?_ hpasses
  rintro t ⟨_, _, h⟩
  exact h.startsFilled

theorem readKey_parses :
    Parses (readKey true) (fun text t => t = text ∧ ∃ s, StringText false t s)
      (StringText true) := by
  have hstarts {kept : Bool} (t : List Char) (s : String) (h : StringText kept t s) :
      StartsFilled t := by
    cases h
    exact ⟨_, _, rfl, rfl⟩
  have hpasses (t : List Char) (ht : ∃ s, StringText false t s) :
      ∃ read' : List Char → Except Error (String × List Char),
        Covers (readKey true) read' ∧ Passes read' t := by
    obtain ⟨s, h⟩ := ht
    exact ⟨_, readKey_covers, s, fun gap rest hgap hrest =>
      takes_readKey gap t s rest hgap h hrest⟩
  exact parses_of_covers takes_readKey takesOnly_readKey hstarts (fun t ⟨s, h⟩ => hstarts t s h)
    hpasses

end Values

end TraceSearch.Json
