import TraceSearch.Json.Record
import TraceSearch.Proofs.Json.Document

/-!
# Written records read back

A record is written as an object of its fields, in any layout. Main fact: `readRecord_given`, a text
that gives fields of a record, each once, is read as the record with those fields.
-/

namespace TraceSearch.Json

namespace Layout

theorem compactText_object (level : Nat) (members : List (String × Json)) :
    compactText (object members) =
      tight.enclose level '\x7b' '\x7d'
        (members.map fun member => tight.member member.1 (compactText member.2)) := by
  have hmembers : compactMembers members =
      members.map fun member => tight.member member.1 (compactText member.2) := by
    induction members with
    | nil => rfl
    | cons member rest ih =>
      rw [compactMembers, ih, List.map_cons]
      rfl
  rw [compactText, hmembers, enclose_tight]

theorem prettyText_object (level : Nat) (members : List (String × Json)) :
    prettyText level (object members) =
      lines.enclose level '\x7b' '\x7d'
        (members.map fun member => lines.member member.1 (prettyText (level + 1) member.2)) := by
  have hmembers : memberText (level + 1) =
      fun member => lines.member member.1 (prettyText (level + 1) member.2) :=
    funext fun _ => List.append_assoc _ _ _
  rw [prettyText, prettyMembers_eq_map, hmembers, enclose_lines]

end Layout

theorem readString_stringText (text : String) (rest : List Char) :
    readString (stringText text ++ rest) = .ok (text, rest) := by
  rw [readString, stringText_append, skipBlank_cons rfl]
  simp only [readStringRest_escaped, List.reverse_nil, List.nil_append, String.ofList_toList]

theorem readString?_ofString? {blanks : List Char} (h : ∀ c ∈ blanks, isBlank c = true)
    (text : Option String) (rest : List Char) :
    readString? (blanks ++ (compactText (ofString? text) ++ rest)) = .ok (text, rest) := by
  rw [readString?, skipBlank_append h]
  cases text with
  | none =>
    have hskip : skipBlank (compactText null ++ rest) = 'n' :: (['u', 'l', 'l'] ++ rest) := by
      rw [compactText]
      exact skipBlank_cons rfl _
    rw [ofString?, hskip]
    simp only [readWord_append, Except.map]
  | some text =>
    obtain ⟨tail, htail⟩ : ∃ tail, stringText text ++ rest = '"' :: tail := ⟨_, rfl⟩
    have hread := readString_stringText text rest
    rw [htail] at hread
    rw [ofString?, compactText, htail, skipBlank_cons rfl]
    show (readString ('"' :: tail)).map _ = _
    rw [hread]
    rfl

/-- A field that a text gives: the text of its value, and what that makes of the record. -/
structure Given (ρ : Type) where
  field : TextField ρ
  value : List Char
  put : ρ → ρ

section Given

variable {ρ : Type} {l : Layout} {fields : List (TextField ρ)} {given : List (Given ρ)}

def Given.text (l : Layout) (g : Given ρ) : List Char := l.member g.field.name g.value

/-- A record has the field, and it is read from the text of its value. -/
def Given.Read (l : Layout) (fields : List (TextField ρ)) (g : Given ρ) : Prop :=
  TextField.find? fields g.field.name = some g.field ∧
    ∀ record rest, g.field.read record (l.colon ++ (g.value ++ rest)) = .ok (g.put record, rest)

/-- A field that a text gives with the value that is read from the text. -/
def Given.of {α : Type} (name : String) (aliases : List String)
    (read : List Char → Except Error (α × List Char)) (value : List Char) (x : α)
    (put : ρ → α → ρ) : Given ρ :=
  ⟨.of name aliases read put, value, fun record => put record x⟩

theorem Given.read_of {α : Type} {name : String} {aliases : List String}
    {read : List Char → Except Error (α × List Char)} {put : ρ → α → ρ} {value : List Char} {x : α}
    (hfind : TextField.find? fields name = some (.of name aliases read put))
    (hread : ∀ rest, read (l.colon ++ (value ++ rest)) = .ok (x, rest)) :
    (Given.of name aliases read value x put).Read l fields := by
  refine ⟨hfind, fun record rest => ?_⟩
  show (read (l.colon ++ (value ++ rest))).map _ = _
  rw [hread]
  rfl

theorem readFieldMember_given {g : Given ρ} (hg : g.Read l fields) {seen : List String}
    (hseen : g.field.name ∉ seen) (record : ρ) {gap : List Char}
    (hgap : ∀ c ∈ gap, isBlank c = true) (rest : List Char) :
    readFieldMember fields seen record (gap ++ (g.text l ++ rest)) =
      .ok ((g.field.name :: seen, g.put record), rest) := by
  have htext : g.text l ++ rest =
      stringText g.field.name ++ ':' :: (l.colon ++ (g.value ++ rest)) := by
    simp [Given.text, Layout.member]
  have hkey : readKey true (gap ++ (g.text l ++ rest)) =
      .ok (g.field.name, ':' :: (l.colon ++ (g.value ++ rest))) := by
    rw [readKey_append hgap, htext, readKey_stringText]
  have hcontains : seen.contains g.field.name = false := by simpa using hseen
  unfold readFieldMember
  simp only [hkey, hg.1, hcontains, readColon_cons, hg.2, Except.map]
  rfl

/-- Fields that are given one after the other, with blanks before each and at the end. -/
theorem readFieldMembers_given (hgiven : ∀ g ∈ given, g.Read l fields)
    (hnames : (given.map fun g => g.field.name).Nodup) (hne : given ≠ []) {seen : List String}
    (hseen : ∀ g ∈ given, g.field.name ∉ seen) (record : ρ) {bound first gap last : List Char}
    (hbound : given.length ≤ bound.length) (hfirst : ∀ c ∈ first, isBlank c = true)
    (hgap : ∀ c ∈ gap, isBlank c = true) (hlast : ∀ c ∈ last, isBlank c = true)
    (rest : List Char) :
    readFieldMembers fields bound seen record
        (first ++ (List.intercalate (',' :: gap) (given.map (Given.text l)) ++
          (last ++ '\x7d' :: rest))) =
      .ok (given.foldl (fun record g => g.put record) record, rest) := by
  induction given generalizing seen record bound first with
  | nil => exact absurd rfl hne
  | cons g given ih =>
    obtain ⟨hg, hothers⟩ := List.forall_mem_cons.1 hgiven
    obtain ⟨hnew, hseen⟩ := List.forall_mem_cons.1 hseen
    rw [List.map_cons, List.nodup_cons] at hnames
    cases bound with
    | nil => simp at hbound
    | cons c bound =>
      have hlength : given.length ≤ bound.length := Nat.le_of_succ_le_succ hbound
      cases given with
      | nil =>
        have htext : List.intercalate (',' :: gap) ([g].map (Given.text l)) = g.text l :=
          List.intercalate_singleton
        have hclose : skipBlank (last ++ '\x7d' :: rest) = '\x7d' :: rest := by
          rw [skipBlank_append hlast, skipBlank_cons rfl]
        rw [htext, readFieldMembers, readFieldMember_given hg hnew record hfirst]
        simp only [hclose, List.foldl_cons, List.foldl_nil]
      | cons h hs =>
        have hunseen : ∀ k ∈ h :: hs, k.field.name ∉ g.field.name :: seen := by
          intro k hk hmem
          rcases List.mem_cons.1 hmem with heq | hmem
          · exact hnames.1 (heq ▸ List.mem_map_of_mem hk)
          · exact hseen k hk hmem
        have hrest := ih hothers hnames.2 (List.cons_ne_nil _ _) hunseen (g.put record) hlength hgap
        rw [List.map_cons, List.map_cons, List.intercalate_cons_cons, List.append_assoc,
          List.append_assoc, List.cons_append, ← List.map_cons, readFieldMembers,
          readFieldMember_given hg hnew record hfirst]
        simp only [skipBlank_cons (show isBlank ',' = false from rfl), hrest, List.foldl_cons]

theorem readRecord_given (hgiven : ∀ g ∈ given, g.Read l fields)
    (hnames : (given.map fun g => g.field.name).Nodup) (hne : given ≠ []) (name : String)
    (record : ρ) (level : Nat) (rest : List Char) :
    readRecord name fields record
        (l.enclose level '\x7b' '\x7d' (given.map (Given.text l)) ++ rest) =
      .ok (given.foldl (fun record g => g.put record) record, rest) := by
  have hparts : given.map (Given.text l) ≠ [] := by simpa using hne
  have htexts : ∀ t ∈ given.map (Given.text l), t ≠ [] := by
    intro t ht
    obtain ⟨g, -, rfl⟩ := List.mem_map.1 ht
    exact List.cons_ne_nil _ _
  obtain ⟨body, hbody⟩ : ∃ body, body =
      List.intercalate (',' :: l.gap (level + 1)) (given.map (Given.text l)) ++
        (l.gap level ++ '\x7d' :: rest) := ⟨_, rfl⟩
  have henclose : l.enclose level '\x7b' '\x7d' (given.map (Given.text l)) ++ rest =
      '\x7b' :: (l.gap (level + 1) ++ body) := by
    simp [Layout.enclose, hne, hbody]
  have hhead : ∃ tail, body = '"' :: tail := by
    obtain ⟨g, others, hcons⟩ := List.exists_cons_of_ne_nil hne
    obtain ⟨tail, htail⟩ := exists_intercalate_cons (',' :: l.gap (level + 1)) (g.text l)
      (others.map (Given.text l))
    rw [hbody, hcons, List.map_cons, htail]
    exact ⟨_, rfl⟩
  have hlength : given.length ≤ body.length := by
    have h := length_le_intercalate htexts (',' :: l.gap (level + 1))
    rw [List.length_map] at h
    rw [hbody, List.length_append]
    omega
  have hnil : ∀ c ∈ ([] : List Char), isBlank c = true := by simp
  have hread := readFieldMembers_given hgiven hnames hne (fun _ _ => List.not_mem_nil) record
    hlength hnil (l.isBlank_gap (level + 1)) (l.isBlank_gap level) rest
  rw [List.nil_append, ← hbody] at hread
  obtain ⟨tail, htail⟩ := hhead
  have hskip : skipBlank (l.gap (level + 1) ++ body) = body := by
    rw [skipBlank_append (l.isBlank_gap (level + 1)), htail, skipBlank_cons rfl]
  rw [henclose, readRecord, skipBlank_cons rfl]
  simp only [hskip]
  rw [htail] at hread ⊢
  exact hread

end Given

end TraceSearch.Json
