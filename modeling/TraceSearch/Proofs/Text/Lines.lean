import TraceSearch.Decimal.Integer

/-!
# Lines

A text that is put together from lines, each ended by a line feed, is cut at its line feeds into the
same lines. Main facts: `Lined.lines_eq` finds all lines of such a text, and `Lists.linesFrom_eq`
those that begin with a stem, wherever other lines stand between them.
-/

namespace TraceSearch.Text

/-- A text without a line feed. -/
def SingleLine (s : String) : Prop := '\n' ∉ s.toList

instance : DecidablePred SingleLine := fun s => inferInstanceAs (Decidable ('\n' ∉ s.toList))

@[simp]
theorem singleLine_append {a b : String} : SingleLine (a ++ b) ↔ SingleLine a ∧ SingleLine b := by
  simp only [SingleLine, String.toList_append, List.mem_append, not_or]

@[simp] theorem singleLine_integer (n : Int) : SingleLine (Decimal.integer n) := by
  have hdigits (m : Nat) : '\n' ∉ Decimal.digits m := by
    intro hmem
    have hdigit := Decimal.isDigit_of_mem_digits hmem
    contradiction
  rw [SingleLine, Decimal.integer, String.toList_ofList, Decimal.integerText]
  split
  · simp [hdigits]
  · exact hdigits _

/-- What stands between the line feeds of a text, before the first and after the last included. -/
def lines (s : String) : List String := (s.toList.splitOn '\n').map String.ofList

def startsWith (stem line : String) : Bool := stem.toList.isPrefixOf line.toList

theorem ne_empty_of_startsWith {stem line : String} (h : startsWith stem line = true)
    (hstem : stem ≠ "") : line ≠ "" := by
  rintro rfl
  have hnil : stem.toList = [] := by simpa [startsWith, List.isPrefixOf_iff_prefix] using h
  exact hstem (String.toList_eq_nil_iff.1 hnil)

/-- The lines of a text that begin with a stem. -/
def linesFrom (stem s : String) : List String := (lines s).filter (startsWith stem)

/-- Texts are joined as their lines are, if appending keeps how the two are related. -/
theorem join_related {R : String → List String → Prop} (hnil : R "" [])
    (happend : ∀ {a b : String} {as bs : List String}, R a as → R b bs → R (a ++ b) (as ++ bs))
    {α : Type} {xs : List α} {text : α → String} {ls : α → List String}
    (h : ∀ x ∈ xs, R (text x) (ls x)) : R (String.join (xs.map text)) (xs.flatMap ls) := by
  induction xs with
  | nil => exact hnil
  | cons x xs ih =>
    have hfirst := h x List.mem_cons_self
    have hothers := ih fun y hy => h y (List.mem_cons_of_mem x hy)
    rw [List.map_cons, String.join_cons, List.flatMap_cons]
    exact happend hfirst hothers

/-- A text that consists of lines, each with a line feed at its end. -/
structure Lined (s : String) (ls : List String) : Prop where
  text : s.toList = ls.flatMap fun l => l.toList ++ ['\n']
  single : ∀ l ∈ ls, SingleLine l

namespace Lined

theorem nil : Lined "" [] := ⟨rfl, nofun⟩

theorem line {l : String} (h : SingleLine l) : Lined (l ++ "\n") [l] := by
  refine ⟨?_, ?_⟩
  · rw [String.toList_append, List.flatMap_singleton]
    rfl
  · intro k hk
    rwa [List.mem_singleton.1 hk]

theorem append {a b : String} {as bs : List String} (ha : Lined a as) (hb : Lined b bs) :
    Lined (a ++ b) (as ++ bs) := by
  refine ⟨?_, ?_⟩
  · rw [String.toList_append, List.flatMap_append, ha.text, hb.text]
  · intro l hl
    exact (List.mem_append.1 hl).elim (ha.single l) (hb.single l)

theorem join {α : Type} {xs : List α} {text : α → String} {ls : α → List String}
    (h : ∀ x ∈ xs, Lined (text x) (ls x)) : Lined (String.join (xs.map text)) (xs.flatMap ls) :=
  join_related nil (fun ha hb => ha.append hb) h

theorem lines_eq {s : String} {ls : List String} (h : Lined s ls) : lines s = ls ++ [""] := by
  obtain ⟨htext, hsingle⟩ := h
  rw [lines, htext]
  clear htext
  -- on the lines; after the last line feed there is an empty one
  induction ls with
  | nil => rfl
  | cons l ls ih =>
    have hl : ∀ c ∈ l.toList, (c == '\n') = false := by
      intro c hc
      have hne : c ≠ '\n' := fun heq => hsingle l List.mem_cons_self (heq ▸ hc)
      exact beq_eq_false_iff_ne.2 hne
    have hothers := ih fun k hk => hsingle k (List.mem_cons_of_mem l hk)
    rw [List.splitOn] at hothers ⊢
    rw [List.flatMap_cons, List.append_assoc, List.singleton_append,
      List.splitOnP_append_cons_of_forall_mem hl _ (by decide), List.map_cons, hothers,
      String.ofList_toList, List.cons_append]

end Lined

/-- A text that consists of lines, of which these begin with the stem. -/
structure Lists (stem s : String) (ls : List String) : Prop where
  lined : ∃ all, Lined s all ∧ all.filter (startsWith stem) = ls

namespace Lists

variable {stem : String}

theorem nil : Lists stem "" [] := ⟨[], Lined.nil, rfl⟩

theorem line {l : String} (h : SingleLine l) (hstem : startsWith stem l = true) :
    Lists stem (l ++ "\n") [l] :=
  ⟨[l], Lined.line h, by rw [List.filter_cons_of_pos hstem, List.filter_nil]⟩

theorem other {l : String} (h : SingleLine l) (hstem : startsWith stem l = false) :
    Lists stem (l ++ "\n") [] :=
  ⟨[l], Lined.line h, by rw [List.filter_cons_of_neg (by simp [hstem]), List.filter_nil]⟩

theorem append {a b : String} {as bs : List String} (ha : Lists stem a as) (hb : Lists stem b bs) :
    Lists stem (a ++ b) (as ++ bs) := by
  obtain ⟨all, hall, rfl⟩ := ha.lined
  obtain ⟨more, hmore, rfl⟩ := hb.lined
  exact ⟨all ++ more, hall.append hmore, List.filter_append all more⟩

theorem join {α : Type} {xs : List α} {text : α → String} {ls : α → List String}
    (h : ∀ x ∈ xs, Lists stem (text x) (ls x)) :
    Lists stem (String.join (xs.map text)) (xs.flatMap ls) :=
  join_related nil (fun ha hb => ha.append hb) h

theorem linesFrom_eq {s : String} {ls : List String} (h : Lists stem s ls) (hstem : stem ≠ "") :
    linesFrom stem s = ls := by
  obtain ⟨all, hall, rfl⟩ := h.lined
  have hlast : startsWith stem "" = false :=
    Bool.eq_false_iff.2 fun hstarts => ne_empty_of_startsWith hstarts hstem rfl
  rw [linesFrom, hall.lines_eq, List.filter_append, List.filter_cons_of_neg (by simp [hlast]),
    List.filter_nil, List.append_nil]

end Lists

end TraceSearch.Text
