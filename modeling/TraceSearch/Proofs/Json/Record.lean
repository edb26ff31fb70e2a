import TraceSearch.Json.Record
import TraceSearch.Proofs.Json.Document

/-!
# Records are read in any order

The fields of a record change different parts of it, so members with distinct names may be given in
any order. Main facts: `decodeRecord_sorted`, a record is read from its members in the order of
their names if it is read from them in the order they were listed, `setMembers_unknown` and
`setMembers_idle` for members that change nothing, and `decodeRecord_invariant`, what every field
keeps the whole record keeps.
-/

namespace TraceSearch.Json

theorem insertMember_perm {name : String} (value : Json) {members : List (String × Json)}
    (h : name ∉ members.map Prod.fst) :
    (insertMember name value members).Perm ((name, value) :: members) := by
  induction members with
  | nil => exact List.Perm.refl _
  | cons member rest ih =>
    obtain ⟨key, old⟩ := member
    rw [List.map_cons, List.mem_cons, not_or] at h
    unfold insertMember
    split
    · exact List.Perm.refl _
    · rw [if_neg h.1]
      exact ((ih h.2).cons (key, old)).trans (List.Perm.swap _ _ _)

theorem foldl_insertMember_perm {members sorted : List (String × Json)}
    (h : ((members ++ sorted).map Prod.fst).Nodup) :
    (members.foldl (fun sorted (name, value) => insertMember name value sorted) sorted).Perm
      (members ++ sorted) := by
  induction members generalizing sorted with
  | nil => exact List.Perm.refl _
  | cons member rest ih =>
    obtain ⟨name, value⟩ := member
    rw [List.cons_append, List.map_cons, List.nodup_cons, List.map_append, List.mem_append,
      not_or] at h
    have hinsert : (insertMember name value sorted).Perm ((name, value) :: sorted) :=
      insertMember_perm value h.1.2
    have hmove :
        (rest ++ insertMember name value sorted).Perm ((name, value) :: (rest ++ sorted)) :=
      (hinsert.append_left rest).trans List.perm_middle
    have hnodup : ((rest ++ insertMember name value sorted).map Prod.fst).Nodup := by
      rw [(hmove.map Prod.fst).nodup_iff, List.map_cons, List.nodup_cons, List.map_append,
        List.mem_append, not_or]
      exact ⟨h.1, by simpa using h.2⟩
    exact (ih hnodup).trans hmove

/-- Members of distinct names are kept, in another order. -/
theorem ofMembers_perm {members : List (String × Json)} (h : (members.map Prod.fst).Nodup) :
    (ofMembers members).Perm members := by
  have hperm : (ofMembers members).Perm (members ++ []) :=
    foldl_insertMember_perm (by simpa using h)
  rwa [List.append_nil] at hperm

theorem insertMember_of_lt {name : String} (value : Json) {members : List (String × Json)}
    (h : ∀ key ∈ members.map Prod.fst, key < name) :
    insertMember name value members = members ++ [(name, value)] := by
  induction members with
  | nil => rfl
  | cons member rest ih =>
    obtain ⟨key, old⟩ := member
    obtain ⟨hkey, hrest⟩ := List.forall_mem_cons.1 h
    have hlt : ¬name < key := fun hname => String.lt_irrefl _ (String.lt_trans hkey hname)
    have hne : name ≠ key := fun heq => String.lt_irrefl _ (heq ▸ hkey)
    rw [insertMember, if_neg hlt, if_neg hne, ih hrest, List.cons_append]

theorem foldl_insertMember_of_ascending (members front : List (String × Json))
    (h : ((front ++ members).map Prod.fst).Pairwise (· < ·)) :
    members.foldl (fun sorted (name, value) => insertMember name value sorted) front =
      front ++ members := by
  induction members generalizing front with
  | nil => simp
  | cons member rest ih =>
    obtain ⟨name, value⟩ := member
    have hlt : ∀ key ∈ front.map Prod.fst, key < name := by
      rw [List.map_append, List.pairwise_append] at h
      exact fun key hkey => h.2.2 key hkey name List.mem_cons_self
    rw [List.append_cons] at h ⊢
    rw [List.foldl_cons]
    show rest.foldl _ (insertMember name value front) = _
    rw [insertMember_of_lt value hlt, ih _ h]

/-- Members in the order of their names are kept as they are. -/
theorem ofMembers_of_ascending {members : List (String × Json)}
    (h : (members.map Prod.fst).Pairwise (· < ·)) : ofMembers members = members :=
  foldl_insertMember_of_ascending members [] h

section Record

variable {ρ α : Type} {fields : List (RecordField ρ)}

theorem RecordField.of_set_eq_ok_iff {name : String} {decode : Json → Except Mismatch α}
    {put : ρ → α → ρ} {r s : ρ} {j : Json} :
    (RecordField.of name decode put).set r j = .ok s ↔ ∃ a, decode j = .ok a ∧ put r a = s :=
  map_eq_ok_iff

/-- Two fields of a record that may be set in either order. -/
def Commute (f g : RecordField ρ) : Prop :=
  ∀ r a b t, (∃ s, f.set r a = .ok s ∧ g.set s b = .ok t) ↔
    ∃ s, g.set r b = .ok s ∧ f.set s a = .ok t

theorem Commute.symm {f g : RecordField ρ} (h : Commute f g) : Commute g f :=
  fun r a b t => (h r b a t).symm

theorem commute_of {β : Type} {name name' : String} {decode : Json → Except Mismatch α}
    {decode' : Json → Except Mismatch β} {put : ρ → α → ρ} {put' : ρ → β → ρ}
    (h : ∀ r a b, put' (put r a) b = put (put' r b) a) :
    Commute (RecordField.of name decode put) (RecordField.of name' decode' put') := by
  intro r a b t
  simp only [RecordField.of_set_eq_ok_iff]
  constructor
  · rintro ⟨_, ⟨x, hx, rfl⟩, y, hy, rfl⟩
    exact ⟨_, ⟨y, hy, rfl⟩, x, hx, (h r x y).symm⟩
  · rintro ⟨_, ⟨y, hy, rfl⟩, x, hx, rfl⟩
    exact ⟨_, ⟨x, hx, rfl⟩, y, hy, h r x y⟩

theorem commute_of_pairwise (h : fields.Pairwise Commute) :
    ∀ f ∈ fields, ∀ g ∈ fields, f.name ≠ g.name → Commute f g := by
  induction h with
  | nil => simp
  | @cons f rest hf _ ih =>
    intro g hg k hk hne
    rcases List.mem_cons.1 hg with hgf | hg <;> rcases List.mem_cons.1 hk with hkf | hk
    · exact absurd (by rw [hgf, hkf]) hne
    · exact hgf ▸ hf k hk
    · exact hkf ▸ (hf g hg).symm
    · exact ih g hg k hk hne

/-- One member of a record. -/
def setMember (fields : List (RecordField ρ)) (record : ρ) (member : String × Json) :
    Except Mismatch ρ :=
  match RecordField.find? fields member.1 with
  | none => .ok record
  | some field => field.set record member.2

theorem setMembers_cons_iff {record x : ρ} {member : String × Json} {rest : List (String × Json)} :
    setMembers fields record (member :: rest) = .ok x ↔
      ∃ s, setMember fields record member = .ok s ∧ setMembers fields s rest = .ok x := by
  obtain ⟨name, value⟩ := member
  unfold setMember
  rw [setMembers]
  cases RecordField.find? fields name with
  | none => simp
  | some field =>
    dsimp only
    cases field.set record value with
    | error e => simp
    | ok s => simp

theorem RecordField.find?_cons (field : RecordField ρ) (fields : List (RecordField ρ))
    (name : String) :
    RecordField.find? (field :: fields) name =
      if field.name = name then some field else RecordField.find? fields name := by
  by_cases h : field.name = name <;> simp [RecordField.find?, h]

theorem name_of_find? {name : String} {field : RecordField ρ}
    (h : RecordField.find? fields name = some field) : field ∈ fields ∧ field.name = name := by
  unfold RecordField.find? at h
  have hname := List.find?_some h
  exact ⟨List.mem_of_find?_eq_some h, eq_of_beq hname⟩

theorem setMember_comm (hfields : fields.Pairwise Commute) {m n : String × Json}
    (hne : m.1 ≠ n.1) {record s x : ρ} (hm : setMember fields record m = .ok s)
    (hn : setMember fields s n = .ok x) :
    ∃ s, setMember fields record n = .ok s ∧ setMember fields s m = .ok x := by
  unfold setMember at *
  cases hf : RecordField.find? fields m.1 with
  | none =>
    rw [hf] at hm
    cases hm
    exact ⟨x, hn, rfl⟩
  | some f =>
    cases hg : RecordField.find? fields n.1 with
    | none =>
      rw [hg] at hn
      cases hn
      rw [hf] at hm
      exact ⟨record, rfl, hm⟩
    | some g =>
      rw [hf] at hm
      rw [hg] at hn
      obtain ⟨hfmem, hfname⟩ := name_of_find? hf
      obtain ⟨hgmem, hgname⟩ := name_of_find? hg
      have hcommute := commute_of_pairwise hfields f hfmem g hgmem (by rwa [hfname, hgname])
      exact (hcommute record m.2 n.2 x).1 ⟨s, hm, hn⟩

/-- Members of distinct names may be given in any order. -/
theorem setMembers_perm (hfields : fields.Pairwise Commute)
    {members members' : List (String × Json)} (hperm : members.Perm members')
    (hnames : (members.map Prod.fst).Nodup) {record x : ρ}
    (h : setMembers fields record members = .ok x) : setMembers fields record members' = .ok x := by
  induction hperm generalizing record with
  | nil => exact h
  | cons m _ ih =>
    obtain ⟨s, hs, hrest⟩ := setMembers_cons_iff.1 h
    exact setMembers_cons_iff.2 ⟨s, hs, ih (List.nodup_cons.1 hnames).2 hrest⟩
  | swap m n rest =>
    have hne : n.1 ≠ m.1 := by
      intro heq
      rw [List.map_cons, List.map_cons, heq] at hnames
      exact (List.nodup_cons.1 hnames).1 List.mem_cons_self
    obtain ⟨s, hs, hrest⟩ := setMembers_cons_iff.1 h
    obtain ⟨t, ht, hrest⟩ := setMembers_cons_iff.1 hrest
    obtain ⟨u, hu, ht⟩ := setMember_comm hfields hne hs ht
    exact setMembers_cons_iff.2 ⟨u, hu, setMembers_cons_iff.2 ⟨t, ht, hrest⟩⟩
  | trans hfirst _ ih ih' => exact ih' ((hfirst.map Prod.fst).nodup_iff.1 hnames) (ih hnames h)

section Spelling

variable {name : String} {value : Json} {before after : List (String × Json)} {record x : ρ}

theorem setMembers_append_iff :
    setMembers fields record (before ++ after) = .ok x ↔
      ∃ s, setMembers fields record before = .ok s ∧ setMembers fields s after = .ok x := by
  induction before generalizing record with
  | nil => simp [setMembers]
  | cons m rest ih =>
    simp only [List.cons_append, setMembers_cons_iff, ih]
    constructor
    · rintro ⟨s, hs, t, ht, hx⟩
      exact ⟨t, ⟨s, hs, ht⟩, hx⟩
    · rintro ⟨t, ⟨s, hs, ht⟩, hx⟩
      exact ⟨s, hs, t, ht, hx⟩

/-- Members that do the same to every record are interchangeable. -/
theorem setMembers_congr {m m' : String × Json}
    (h : ∀ r s, setMember fields r m = .ok s ↔ setMember fields r m' = .ok s) :
    setMembers fields record (before ++ m :: after) = .ok x ↔
      setMembers fields record (before ++ m' :: after) = .ok x := by
  simp only [setMembers_append_iff, setMembers_cons_iff, h]

theorem setMembers_unknown (hname : RecordField.find? fields name = none) :
    setMembers fields record (before ++ (name, value) :: after) = .ok x ↔
      setMembers fields record (before ++ after) = .ok x := by
  simp [setMembers_append_iff, setMembers_cons_iff, setMember, hname]

theorem setMembers_middle (hfields : fields.Pairwise Commute) {m : String × Json}
    (hname : m.1 ∉ before.map Prod.fst) :
    setMembers fields record (before ++ m :: after) = .ok x ↔
      setMembers fields record (m :: (before ++ after)) = .ok x := by
  induction before generalizing record with
  | nil => exact Iff.rfl
  | cons n rest ih =>
    rw [List.map_cons, List.mem_cons, not_or] at hname
    simp only [List.cons_append, setMembers_cons_iff, ih hname.2]
    constructor
    · rintro ⟨s, hs, t, ht, hx⟩
      obtain ⟨u, hu, ht⟩ := setMember_comm hfields (Ne.symm hname.1) hs ht
      exact ⟨u, hu, t, ht, hx⟩
    · rintro ⟨s, hs, t, ht, hx⟩
      obtain ⟨u, hu, ht⟩ := setMember_comm hfields hname.1 hs ht
      exact ⟨u, hu, t, ht, hx⟩

/-- A member that leaves the record as it is may be left out, if its name is not given before. -/
theorem setMembers_idle (hfields : fields.Pairwise Commute) (hname : name ∉ before.map Prod.fst)
    (hidle : setMember fields record (name, value) = .ok record) :
    setMembers fields record (before ++ (name, value) :: after) = .ok x ↔
      setMembers fields record (before ++ after) = .ok x := by
  rw [setMembers_middle hfields hname, setMembers_cons_iff, hidle]
  simp

/-- Elements that do the same to every record in the field of their place are interchangeable. -/
theorem setElements_congr {count : Nat} {item item' : Json} {items others : List Json}
    (h : ∀ field, fields[items.length]? = some field →
      ∀ r s, field.set r item = .ok s ↔ field.set r item' = .ok s) :
    setElements count record fields (items ++ item :: others) = .ok x ↔
      setElements count record fields (items ++ item' :: others) = .ok x := by
  induction items generalizing fields record with
  | nil =>
    cases fields with
    | nil => exact Iff.rfl
    | cons field fields =>
      have hset := h field rfl record
      rw [List.nil_append, List.nil_append, setElements, setElements]
      cases hitem : field.set record item with
      | ok s => rw [(hset s).1 hitem]
      | error e =>
        cases hitem' : field.set record item' with
        | ok s =>
          rw [(hset s).2 hitem'] at hitem
          cases hitem
        | error e' => simp
  | cons first rest ih =>
    cases fields with
    | nil => exact Iff.rfl
    | cons field fields =>
      rw [List.cons_append, List.cons_append, setElements, setElements]
      cases field.set record first with
      | error e => exact Iff.rfl
      | ok s => exact ih fun f hf => h f (by simpa using hf)

end Spelling

section Only

variable {name : String} {decode : Json → Except Mismatch α} {a : α} {member : String × Json}
  {members : List (String × Json)} {count : Nat} {item : Json} {items : List Json}

/-- A record that consists of one field. -/
theorem setMembers_only_cons :
    setMembers [.of name decode fun _ x => x] a (member :: members) =
      if member.1 = name then
        match decode member.2 with
        | .error m => .error m
        | .ok x => setMembers [.of name decode fun _ x => x] x members
      else setMembers [.of name decode fun _ x => x] a members := by
  obtain ⟨key, value⟩ := member
  rw [setMembers, RecordField.find?_cons]
  by_cases hname : key = name
  · subst hname
    simp only [RecordField.of, if_true]
    cases decode value <;> rfl
  · simp only [RecordField.of, hname, Ne.symm hname, if_false]
    rfl

theorem setElements_only_one :
    setElements count a [.of name decode fun _ x => x] [item] = decode item := by
  simp only [setElements, RecordField.of]
  cases decode item <;> rfl

theorem setElements_only_cons {next : Json} :
    setElements count a [.of name decode fun _ x => x] (item :: next :: items) =
      match decode item with
      | .error m => .error m
      | .ok _ => .error (.tooManyElements count) := by
  simp only [setElements, RecordField.of]
  cases decode item <;> rfl

end Only

theorem decodeRecord_sorted (hfields : fields.Pairwise Commute) {members : List (String × Json)}
    (hnames : (members.map Prod.fst).Nodup) {name : String} {record x : ρ}
    (h : setMembers fields record (sortedMembers members) = .ok x) :
    decodeRecord name fields record (sorted (object members)) = .ok x := by
  have hsorted : ((sortedMembers members).map Prod.fst).Nodup := by
    rw [sortedMembers_eq_map, List.map_map]
    exact hnames
  exact setMembers_perm hfields (ofMembers_perm hsorted).symm hsorted h

theorem mapM_cons_eq_ok_iff {β ε : Type} {f : α → Except ε β} {a : α} {as : List α}
    {bs : List β} :
    (a :: as).mapM f = .ok bs ↔
      ∃ b, f a = .ok b ∧ ∃ rest, as.mapM f = .ok rest ∧ b :: rest = bs := by
  rw [List.mapM_cons]
  cases f a with
  | error e => simp [bind, Except.bind]
  | ok b => cases as.mapM f <;> simp [bind, Except.bind, pure, Except.pure]

theorem mapM_congr {β ε : Type} {f : α → Except ε β} {a a' : α}
    (h : ∀ b, f a = .ok b ↔ f a' = .ok b) {before after : List α} {bs : List β} :
    (before ++ a :: after).mapM f = .ok bs ↔ (before ++ a' :: after).mapM f = .ok bs := by
  induction before generalizing bs with
  | nil => simp only [List.nil_append, mapM_cons_eq_ok_iff, h]
  | cons first rest ih => simp only [List.cons_append, mapM_cons_eq_ok_iff, ih]

/-- The values of the members or elements of a value. -/
def parts : Json → List Json
  | array items => items
  | object members => members.map Prod.snd
  | _ => []

/-- A field that keeps a property of the record, whichever of some values it is set to. -/
def RecordField.Keeps (P : ρ → Prop) (values : List Json) (field : RecordField ρ) : Prop :=
  ∀ value ∈ values, ∀ r s, P r → field.set r value = .ok s → P s

theorem RecordField.keeps_of {P : ρ → Prop} {values : List Json} {name : String}
    {decode : Json → Except Mismatch α} {put : ρ → α → ρ}
    (h : ∀ value ∈ values, ∀ a, decode value = .ok a → ∀ r, P r → P (put r a)) :
    (RecordField.of name decode put).Keeps P values := by
  intro value hvalue r s hr hs
  obtain ⟨a, ha, rfl⟩ := RecordField.of_set_eq_ok_iff.1 hs
  exact h value hvalue a ha r hr

/-- A field that leaves alone what the property is about. -/
theorem RecordField.keeps_other {P : ρ → Prop} {values : List Json} {name : String}
    {decode : Json → Except Mismatch α} {put : ρ → α → ρ} (h : ∀ r a, P r → P (put r a)) :
    (RecordField.of name decode put).Keeps P values :=
  RecordField.keeps_of fun _ _ a _ r hr => h r a hr

section Invariant

variable {P : ρ → Prop}

theorem setMembers_invariant {members : List (String × Json)}
    (hset : ∀ field ∈ fields, field.Keeps P (members.map Prod.snd))
    {record x : ρ} (hrecord : P record) (h : setMembers fields record members = .ok x) : P x := by
  induction members generalizing record with
  | nil =>
    cases h
    exact hrecord
  | cons member rest ih =>
    obtain ⟨s, hs, hrest⟩ := setMembers_cons_iff.1 h
    have htail : ∀ field ∈ fields, field.Keeps P (rest.map Prod.snd) :=
      fun field hf value hv => hset field hf value (List.mem_cons_of_mem _ hv)
    refine ih htail ?_ hrest
    unfold setMember at hs
    split at hs
    · cases hs
      exact hrecord
    · rename_i field hfind
      exact hset field (name_of_find? hfind).1 member.2 List.mem_cons_self record s hrecord hs

theorem setElements_invariant {count : Nat} {items : List Json}
    (hset : ∀ field ∈ fields, field.Keeps P items)
    {record x : ρ} (hrecord : P record) (h : setElements count record fields items = .ok x) :
    P x := by
  induction items generalizing fields record with
  | nil =>
    cases fields <;>
    · cases h
      exact hrecord
  | cons item items ih =>
    cases fields with
    | nil => cases h
    | cons field fields =>
      obtain ⟨hfirst, hothers⟩ := List.forall_mem_cons.1 hset
      unfold setElements at h
      split at h
      · contradiction
      · rename_i s hs
        have hs := hfirst item List.mem_cons_self record s hrecord hs
        exact ih (fun f hf value hv => hothers f hf value (List.mem_cons_of_mem _ hv)) hs h

/-- What every field keeps the whole record keeps. -/
theorem decodeRecord_invariant {j : Json} (hset : ∀ field ∈ fields, field.Keeps P j.parts)
    {name : String} {record x : ρ} (hrecord : P record)
    (h : decodeRecord name fields record j = .ok x) : P x := by
  unfold decodeRecord at h
  split at h
  · exact setMembers_invariant hset hrecord h
  · exact setElements_invariant hset hrecord h
  · contradiction

end Invariant

end Record

end TraceSearch.Json
