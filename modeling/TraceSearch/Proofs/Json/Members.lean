import TraceSearch.Json.Record
import TraceSearch.Proofs.Attribute.Writes
import TraceSearch.Proofs.Json.Skipping

/-!
# Objects, member by member

An object is a list of members, each a name and a value as they are written. Main facts:
`ObjectOf.readObject_iff`, an object is read member by member, and `complete_readRecord_iff`, a
record is made by its members one after the other, each changing it by its own text alone.
-/

namespace TraceSearch.Json

section Sorted

variable {name : String} {value : Json} {members : List (String × Json)}

theorem mem_iff_lookup (h : (members.map Prod.fst).Nodup) :
    (name, value) ∈ members ↔ lookup name members = some value := by
  induction members with
  | nil => simp [lookup]
  | cons member rest ih =>
    obtain ⟨key, old⟩ := member
    obtain ⟨hkey, hrest⟩ := List.nodup_cons.1 h
    rw [lookup, List.mem_cons]
    split
    · rename_i hname
      subst hname
      constructor
      · rintro (heq | hmem)
        · cases heq
          rfl
        · exact absurd (List.mem_map_of_mem (f := Prod.fst) hmem) hkey
      · intro heq
        cases heq
        exact Or.inl rfl
    · rename_i hname
      rw [← ih hrest]
      constructor
      · rintro (heq | hmem)
        · cases heq
          exact absurd rfl hname
        · exact hmem
      · exact Or.inr

theorem nodup_ofMembers (members : List (String × Json)) :
    ((ofMembers members).map Prod.fst).Nodup :=
  (ascending_ofMembers members).imp fun h => fun heq => String.lt_irrefl _ (heq ▸ h)

/-- Of the members of one name the last is kept. -/
theorem mem_ofMembers_iff : (name, value) ∈ ofMembers members ↔ LastWrite members name value := by
  rw [mem_iff_lookup (nodup_ofMembers members)]
  induction members using List.reverseRecOn with
  | nil =>
    constructor
    · intro h
      cases h
    · rintro ⟨before, after, heq, -⟩
      cases before <;> cases heq
  | append_singleton members member ih =>
    obtain ⟨key, last⟩ := member
    have hinsert :
        ofMembers (members ++ [(key, last)]) = insertMember key last (ofMembers members) :=
      List.foldl_concat _ _ _ _
    rw [hinsert, lastWrite_concat_iff, ← ih]
    by_cases hname : name = key
    · subst hname
      rw [lookup_insertMember_self]
      simp [eq_comm]
    · rw [lookup_insertMember_of_ne hname]
      simp [hname]

end Sorted

/-- A member of an object as it is written. -/
structure Member where
  name : List Char
  value : List Char

/-- A text with the name and the value of a member, whether they may be kept or not. -/
inductive Member.Is : List Char → Member → Prop where
  | parts {name gap gap' value : List Char} (hname : ∃ s, StringText false name s)
      (hgap : Blanks gap) (hgap' : Blanks gap') (hvalue : IsValue value) :
      Member.Is (name ++ (gap ++ ':' :: (gap' ++ value))) ⟨name, value⟩

def Member.Named (m : Member) (s : String) : Prop := StringText true m.name s

/-- What a member is kept as: the name and the value that its two texts spell. -/
def Member.Kept (depth : Nat) (m : Member) (pair : String × Json) : Prop :=
  m.Named pair.1 ∧ Spelled true depth m.value pair.2

/-- A text that is an object of these members, in their order. -/
def ObjectOf : List Char → List Member → Prop := Enclosed '\x7b' '\x7d' Member.Is

section Objects

variable {m : Member} {members : List Member} {text : List Char}

theorem StringText.unique {kept : Bool} {s s' : String} (h : StringText kept text s)
    (h' : StringText kept text s') : s = s' := by
  have hread := takes_readKey [] text s [] blanks_nil h (endsNumber_blanks blanks_nil)
  have hread' := takes_readKey [] text s' [] blanks_nil h' (endsNumber_blanks blanks_nil)
  cases hread.symm.trans hread'
  rfl

theorem Spelled.unique {kept : Bool} {depth : Nat} {j j' : Json} (h : Spelled kept depth text j)
    (h' : Spelled kept depth text j') : j = j' := by
  obtain ⟨htakes, -⟩ := follows_readValue kept depth
  have hread := htakes [] text j [] blanks_nil h (endsNumber_blanks blanks_nil)
  have hread' := htakes [] text j' [] blanks_nil h' (endsNumber_blanks blanks_nil)
  cases hread.symm.trans hread'
  rfl

theorem Member.is_tight {s : String} {name value : List Char} (hname : StringText false name s)
    (hvalue : IsValue value) : Member.Is (name ++ ':' :: value) ⟨name, value⟩ :=
  .parts ⟨s, hname⟩ blanks_nil blanks_nil hvalue

theorem Member.Is.head (h : Member.Is text m) :
    ∃ c cs, text = c :: cs ∧ isBlank c = false ∧ c ≠ '\x7d' := by
  obtain ⟨⟨s, hname⟩, -, -, -⟩ := h
  cases hname
  exact ⟨_, _, rfl, by decide⟩

theorem ObjectOf.isValue (h : ObjectOf text members) : IsValue text := by
  have hmember (t : List Char) (ht : t.length < text.length) (m : Member) (h : Member.Is t m) :
      ∃ pair, MemberText false (Spelled false text.length) t pair ∧ True := by
    obtain @⟨name, gap, gap', value, ⟨s, hname⟩, hgap, hgap', depth, j, hvalue⟩ := h
    simp only [List.length_append, List.length_cons] at ht
    exact ⟨(s, j), .parts hname hgap hgap' (hvalue.within (by omega)), trivial⟩
  obtain ⟨pairs, hpairs, -⟩ :=
    Enclosed.exists_related (R := fun _ _ => True) h fun t ht m _ => hmember t ht m
  exact ⟨text.length + 1, _, .object rfl hpairs⟩

theorem Member.Is.readKey_iff (h : Member.Is text m) {gap : List Char} (hgap : Blanks gap)
    (rest : List Char) :
    ∃ after gap', Blanks gap' ∧ readColon after = .ok (gap' ++ (m.value ++ rest)) ∧
      IsValue m.value ∧ ∀ key left, readKey true (gap ++ (text ++ rest)) = .ok (key, left) ↔
        left = after ∧ m.Named key := by
  obtain @⟨name, gap', gap'', value, hname, hgap', hgap'', hvalue⟩ := h
  refine ⟨gap' ++ ':' :: (gap'' ++ (value ++ rest)), gap'', hgap'', readColon_append hgap' _,
    hvalue, fun key left => ?_⟩
  have hends : EndsNumber (gap' ++ ':' :: (gap'' ++ (value ++ rest))) :=
    endsNumber_append hgap' (endsNumber_colon _)
  rw [List.append_assoc, List.append_assoc, List.cons_append, List.append_assoc]
  exact readKey_parses gap name name _ hgap ⟨rfl, hname⟩ hends key left

theorem readMember_parses (depth : Nat) :
    Parses (readMember true (readValue true depth)) Member.Is (Member.Kept depth) := by
  intro gap text m rest hgap h hrest pair left
  obtain ⟨after, gap', hgap', hcolon, hvalue, hkey⟩ := h.readKey_iff hgap rest
  have hread := readValue_parses depth gap' m.value m.value rest hgap' ⟨rfl, hvalue⟩ hrest
  constructor
  · intro hmember
    unfold readMember at hmember
    split at hmember
    · contradiction
    rename_i name last hleft
    obtain ⟨rfl, hname⟩ := (hkey _ _).1 hleft
    rw [hcolon] at hmember
    dsimp only at hmember
    split at hmember
    · contradiction
    rename_i j last hleft
    obtain ⟨rfl, hj⟩ := (hread _ _).1 hleft
    cases hmember
    exact ⟨rfl, hname, hj⟩
  · rintro ⟨rfl, hname, hj⟩
    simp only [readMember, (hkey _ _).2 ⟨rfl, hname⟩, hcolon, (hread _ _).2 ⟨rfl, hj⟩]

theorem ObjectOf.readObject_iff (h : ObjectOf text members) (depth : Nat) (rest : List Char) :
    ∃ body, text ++ rest = '\x7b' :: body ∧ ∀ pairs left,
      readObject true (readValue true depth) body = .ok (pairs, left) ↔
        left = rest ∧ List.Forall₂ (Member.Kept depth) members pairs :=
  h.readEnclosed_iff (readMember_parses depth) closes_brace (fun _ _ h => h.head) rest

end Objects

section Records

variable {ρ α : Type} {fields : List (TextField ρ)}

/-- A field that makes of a value the same wherever it stands. -/
def TextField.Local (f : TextField ρ) : Prop :=
  ∀ record, Parses (f.read record) (fun text value => value = text ∧ IsValue value)
    fun value r => f.read record value = .ok (r, [])

section Fields

variable {read : List Char → Except Error (α × List Char)} {depth : Nat} {P : Json → α → Prop}
  (hread : ∀ s x rest, read s = .ok (x, rest) ↔
    ∃ j, readValue true depth s = .ok (j, rest) ∧ P j x)

include hread

/-- A reader that sees nothing but the value it is given. -/
theorem parses_of_readValue :
    Parses read (fun text value => value = text ∧ IsValue value)
      fun value x => ∃ j, Spelled true depth value j ∧ P j x := by
  intro gap text value rest hgap htext hrest x left
  have hvalue := readValue_parses depth gap text value rest hgap htext hrest
  rw [hread]
  constructor
  · rintro ⟨j, hj, hx⟩
    obtain ⟨hleft, hj⟩ := (hvalue j left).1 hj
    exact ⟨hleft, j, hj, hx⟩
  · rintro ⟨hleft, j, hj, hx⟩
    exact ⟨j, (hvalue j left).2 ⟨hleft, hj⟩, hx⟩

theorem read_alone_iff {value : List Char} (h : IsValue value) {x : α} :
    read value = .ok (x, []) ↔ ∃ j, Spelled true depth value j ∧ P j x := by
  have halone := parses_of_readValue hread [] value value [] blanks_nil ⟨rfl, h⟩
    (endsNumber_blanks blanks_nil) x []
  simpa using halone

theorem TextField.local_of (name : String) (aliases : List String) (put : ρ → α → ρ) :
    (TextField.of name aliases read put).Local := by
  rintro record gap _ value rest hgap ⟨rfl, h⟩ hrest r left
  have hall := parses_of_readValue hread gap value value rest hgap ⟨rfl, h⟩ hrest
  show (read _).map _ = .ok (r, left) ↔ left = rest ∧ (read value).map _ = .ok (r, [])
  rw [map_eq_ok_iff, map_eq_ok_iff]
  constructor
  · rintro ⟨⟨x, after⟩, hx, heq⟩
    cases heq
    obtain ⟨hafter, hx⟩ := (hall x _).1 hx
    exact ⟨hafter, (x, []), (read_alone_iff hread h).2 hx, rfl⟩
  · rintro ⟨rfl, ⟨x, after⟩, hx, heq⟩
    cases heq
    exact ⟨(x, left), (hall x _).2 ⟨rfl, (read_alone_iff hread h).1 hx⟩, rfl⟩

end Fields

/-- What one member does to a record and to the names of the fields that were given. -/
inductive Sets (fields : List (TextField ρ)) :
    List String × ρ → Member → List String × ρ → Prop where
  | unknown {state : List String × ρ} {m : Member} {key : String} (hname : m.Named key)
      (hfield : TextField.find? fields key = none) : Sets fields state m state
  | given {seen : List String} {record r : ρ} {m : Member} {key : String} {f : TextField ρ}
      (hname : m.Named key) (hfield : TextField.find? fields key = some f)
      (hnew : f.name ∉ seen) (hread : f.read record m.value = .ok (r, [])) :
      Sets fields (seen, record) m (f.name :: seen, r)

inductive SetsAll (fields : List (TextField ρ)) :
    List String × ρ → List Member → List String × ρ → Prop where
  | nil {state : List String × ρ} : SetsAll fields state [] state
  | cons {state next last : List String × ρ} {m : Member} {members : List Member}
      (h : Sets fields state m next) (hrest : SetsAll fields next members last) :
      SetsAll fields state (m :: members) last

theorem setsAll_append_iff {state last : List String × ρ} {before after : List Member} :
    SetsAll fields state (before ++ after) last ↔
      ∃ middle, SetsAll fields state before middle ∧ SetsAll fields middle after last := by
  induction before generalizing state with
  | nil =>
    constructor
    · exact fun h => ⟨state, .nil, h⟩
    · rintro ⟨_, _ | _, h⟩
      exact h
  | cons m before ih =>
    constructor
    · rintro (_ | ⟨h, hrest⟩)
      obtain ⟨middle, hbefore, hafter⟩ := ih.1 hrest
      exact ⟨middle, .cons h hbefore, hafter⟩
    · rintro ⟨middle, _ | ⟨h, hbefore⟩, hafter⟩
      exact .cons h (ih.2 ⟨middle, hbefore, hafter⟩)

theorem TextField.mem_of_find? {key : String} {f : TextField ρ}
    (h : TextField.find? fields key = some f) : f ∈ fields :=
  List.mem_of_find?_eq_some h

variable (hfields : ∀ f ∈ fields, f.Local)

include hfields

theorem readFieldMember_parses (seen : List String) (record : ρ) :
    Parses (readFieldMember fields seen record) Member.Is fun m state =>
      Sets fields (seen, record) m state := by
  intro gap text m rest hgap h hrest state left
  obtain ⟨after, gap', hgap', hcolon, hvalue, hkey⟩ := h.readKey_iff hgap rest
  have hlocal (f : TextField ρ) (hf : f ∈ fields) :=
    hfields f hf record gap' m.value m.value rest hgap' ⟨rfl, hvalue⟩ hrest
  have hskip := hvalue.skipValue hgap' hrest
  constructor
  · intro hmember
    unfold readFieldMember at hmember
    split at hmember
    · contradiction
    rename_i key last hleft
    obtain ⟨rfl, hname⟩ := (hkey _ _).1 hleft
    rw [hcolon] at hmember
    dsimp only at hmember
    split at hmember
    · rename_i hfield
      rw [hskip] at hmember
      cases hmember
      exact ⟨rfl, .unknown hname hfield⟩
    · rename_i f hfield
      split at hmember
      · contradiction
      rename_i hnew
      obtain ⟨⟨r, last⟩, hleft, heq⟩ := map_eq_ok_iff.1 hmember
      cases heq
      obtain ⟨rfl, hr⟩ := (hlocal f (TextField.mem_of_find? hfield) _ _).1 hleft
      exact ⟨rfl, .given hname hfield (by simpa using hnew) hr⟩
  · rintro ⟨rfl, h⟩
    cases h with
    | unknown hname hfield =>
      simp only [readFieldMember, (hkey _ _).2 ⟨rfl, hname⟩, hfield, hcolon, hskip, Except.map]
    | given hname hfield hnew hr =>
      have hr := (hlocal _ (TextField.mem_of_find? hfield) _ _).2 ⟨rfl, hr⟩
      simp only [readFieldMember, (hkey _ _).2 ⟨rfl, hname⟩, hfield, hcolon, hr, Except.map]
      exact if_neg (by simpa using hnew)

omit hfields in
/-- One round of the reader of records: a member, and then the closing brace or a comma. -/
theorem readFieldMembers_cons_eq_ok_iff {c : Char} {bound s left : List Char}
    {seen : List String} {record x : ρ} :
    readFieldMembers fields (c :: bound) seen record s = .ok (x, left) ↔
      ∃ state next, ReadsTo (readFieldMember fields seen record) s state next ∧
        (next = '\x7d' :: left ∧ state.2 = x ∨
          ∃ t, next = ',' :: t ∧
            readFieldMembers fields bound state.1 state.2 t = .ok (x, left)) := by
  rw [readFieldMembers]
  constructor
  · intro h
    split at h
    · contradiction
    rename_i seen' record' rest hmember
    refine ⟨(seen', record'), _, ⟨rest, hmember, rfl⟩, ?_⟩
    split at h
    · rename_i hskip
      cases h
      exact Or.inl ⟨hskip, rfl⟩
    · rename_i t hskip
      exact Or.inr ⟨t, hskip, h⟩
    · contradiction
    · contradiction
  · rintro ⟨⟨seen', record'⟩, _, ⟨rest, hmember, rfl⟩, ⟨hskip, rfl⟩ | ⟨t, hskip, h⟩⟩
    · rw [hmember]
      simp only [hskip]
    · rw [hmember]
      simp only [hskip, h]

theorem Items.readFieldMembers_iff {body rest : List Char} {members : List Member}
    (h : Items Member.Is body members) {bound : List Char} (hbound : members.length ≤ bound.length)
    {seen : List String} {record x : ρ} {left : List Char} :
    readFieldMembers fields bound seen record (body ++ '\x7d' :: rest) = .ok (x, left) ↔
      left = rest ∧ ∃ seen', SetsAll fields (seen, record) members (seen', x) := by
  induction h generalizing bound seen record with
  | last h =>
    obtain ⟨c, bound, rfl⟩ :=
      List.exists_cons_of_length_pos (Nat.lt_of_lt_of_le (Nat.succ_pos _) hbound)
    have hmember {state : List String × ρ} {next : List Char} : ReadsTo _ _ state next ↔ _ :=
      h.readsTo_iff (readFieldMember_parses hfields seen record) rfl (endsNumber_brace rest)
    rw [readFieldMembers_cons_eq_ok_iff]
    constructor
    · rintro ⟨state, _, hstate, hnext⟩
      obtain ⟨hsets, rfl⟩ := hmember.1 hstate
      rcases hnext with ⟨heq, rfl⟩ | ⟨t, heq, -⟩
      · cases heq
        exact ⟨rfl, state.1, .cons hsets .nil⟩
      · cases heq
    · rintro ⟨rfl, seen', hall⟩
      obtain _ | ⟨hsets, hnil⟩ := hall
      cases hnil
      exact ⟨_, _, hmember.2 ⟨hsets, rfl⟩, Or.inl ⟨rfl, rfl⟩⟩
  | @cons text others m members h _ ih =>
    obtain ⟨c, bound, rfl⟩ :=
      List.exists_cons_of_length_pos (Nat.lt_of_lt_of_le (Nat.succ_pos _) hbound)
    have hmember {state : List String × ρ} {next : List Char} : ReadsTo _ _ state next ↔ _ :=
      h.readsTo_iff (readFieldMember_parses hfields seen record) rfl
        (endsNumber_comma (others ++ '\x7d' :: rest))
    have hothers {state : List String × ρ} :
        readFieldMembers fields bound state.1 state.2 (others ++ '\x7d' :: rest) = .ok (x, left) ↔
          left = rest ∧ ∃ seen', SetsAll fields state members (seen', x) :=
      ih (Nat.le_of_succ_le_succ hbound)
    rw [List.append_assoc, List.cons_append, readFieldMembers_cons_eq_ok_iff]
    constructor
    · rintro ⟨state, _, hstate, hnext⟩
      obtain ⟨hsets, rfl⟩ := hmember.1 hstate
      rcases hnext with ⟨heq, -⟩ | ⟨t, heq, hrest⟩
      · cases heq
      · cases heq
        obtain ⟨hleft, seen', hall⟩ := hothers.1 hrest
        exact ⟨hleft, seen', .cons hsets hall⟩
    · rintro ⟨hleft, seen', hall⟩
      obtain _ | ⟨hsets, hall⟩ := hall
      exact ⟨_, _, hmember.2 ⟨hsets, rfl⟩, Or.inr ⟨_, rfl, hothers.2 ⟨hleft, seen', hall⟩⟩⟩

omit hfields in
theorem readRecord_brace (name : String) {gap : List Char} (hgap : Blanks gap) (record : ρ)
    (body : List Char) :
    readRecord name fields record (gap ++ '\x7b' :: body) =
      match skipBlank body with
      | '\x7d' :: rest => .ok (record, rest)
      | s => readFieldMembers fields s [] record s := by
  rw [readRecord, skipBlank_append hgap, skipBlank_cons rfl]
  rfl

theorem ObjectOf.readRecord_iff {text : List Char} {members : List Member}
    (h : ObjectOf text members) (name : String) {gap : List Char} (hgap : Blanks gap)
    {record x : ρ} {rest left : List Char} :
    readRecord name fields record (gap ++ (text ++ rest)) = .ok (x, left) ↔
      left = rest ∧ ∃ seen, SetsAll fields ([], record) members (seen, x) := by
  cases h with
  | @none gap' hgap' =>
    rw [List.cons_append, readRecord_brace name hgap, List.append_assoc, skipBlank_append hgap',
      List.singleton_append, skipBlank_cons rfl]
    constructor
    · intro heq
      cases heq
      exact ⟨rfl, [], .nil⟩
    · rintro ⟨rfl, seen, hall⟩
      cases hall
      rfl
  | @some body _ h =>
    obtain ⟨c, cs, hskip, hc, hitems⟩ := h.skipBlank fun _ _ h => h.head
    have hlength : members.length ≤ (c :: (cs ++ '\x7d' :: rest)).length := by
      have hle := hitems.length_le
      simp only [List.length_cons, List.length_append] at hle ⊢
      omega
    have hmembers : readFieldMembers fields (c :: (cs ++ '\x7d' :: rest)) [] record
        (c :: cs ++ '\x7d' :: rest) = .ok (x, left) ↔
          left = rest ∧ ∃ seen, SetsAll fields ([], record) members (seen, x) :=
      hitems.readFieldMembers_iff hfields hlength
    rw [List.cons_append, readRecord_brace name hgap, List.append_assoc, List.singleton_append,
      hskip]
    split
    · rename_i heq
      cases heq
      exact absurd rfl hc
    · exact hmembers

/-- A record is made by the members of its document, one after the other. -/
theorem complete_readRecord_iff {text : List Char} {members : List Member}
    (h : Padded ObjectOf text members) (name : String) {record x : ρ} :
    complete (readRecord name fields record text) = .ok x ↔
      ∃ seen, SetsAll fields ([], record) members (seen, x) := by
  obtain @⟨gap, text, gap', _, hgap, h, hgap'⟩ := h
  rw [complete_eq_ok_iff]
  constructor
  · rintro ⟨left, hleft, -⟩
    exact ((h.readRecord_iff hfields name hgap).1 hleft).2
  · intro hall
    exact ⟨gap', (h.readRecord_iff hfields name hgap).2 ⟨rfl, hall⟩, hgap'⟩

end Records

end TraceSearch.Json
