import TraceSearch.Proofs.Json.Number

/-!
# Brackets and numbers of values

How many brackets of a value are open at once, and whether its numbers can stand in a document.
Main fact: `nested_of_readValue`, a value that was read opens no more brackets than it was allowed
and holds only numbers that a document can hold.
-/

namespace TraceSearch.Json

mutual

/-- The brackets of a value that are open at once. -/
def nesting : Json → Nat
  | array items => itemsNesting items + 1
  | object members => membersNesting members + 1
  | _ => 0

def itemsNesting : List Json → Nat
  | [] => 0
  | item :: rest => max (nesting item) (itemsNesting rest)

def membersNesting : List (String × Json) → Nat
  | [] => 0
  | (_, value) :: rest => max (nesting value) (membersNesting rest)

end

@[simp] theorem itemsNesting_le_iff {items : List Json} {n : Nat} :
    itemsNesting items ≤ n ↔ ∀ item ∈ items, item.nesting ≤ n := by
  induction items with
  | nil => simp [itemsNesting]
  | cons item rest ih => simp only [itemsNesting, Nat.max_le, ih, List.forall_mem_cons]

@[simp] theorem membersNesting_le_iff {members : List (String × Json)} {n : Nat} :
    membersNesting members ≤ n ↔ ∀ member ∈ members, member.2.nesting ≤ n := by
  induction members with
  | nil => simp [membersNesting]
  | cons member rest ih => simp only [membersNesting, Nat.max_le, ih, List.forall_mem_cons]

/-- A value whose numbers all have a property. -/
inductive Numbers (P : Number → Prop) : Json → Prop
  | null : Numbers P null
  | bool (b : Bool) : Numbers P (bool b)
  | number {n : Number} (h : P n) : Numbers P (number n)
  | string (s : String) : Numbers P (string s)
  | array {items : List Json} (h : ∀ item ∈ items, Numbers P item) : Numbers P (array items)
  | object {members : List (String × Json)} (h : ∀ member ∈ members, Numbers P member.2) :
    Numbers P (object members)

/-- A value that a document can hold. -/
abbrev Stable (j : Json) : Prop := j.Numbers Number.Stable

/-- A value whose numbers are read as they were written. -/
abbrev Rereads (j : Json) : Prop := j.Numbers Number.Rereads

theorem mem_insertMember {name : String} {value : Json} {member : String × Json}
    {members : List (String × Json)} (h : member ∈ insertMember name value members) :
    member = (name, value) ∨ member ∈ members := by
  induction members with
  | nil => exact Or.inl (List.mem_singleton.1 h)
  | cons first rest ih =>
    unfold insertMember at h
    split at h
    · exact List.mem_cons.1 h
    · split at h
      · rcases List.mem_cons.1 h with h | h
        · exact Or.inl h
        · exact Or.inr (List.mem_cons_of_mem _ h)
      · rcases List.mem_cons.1 h with h | h
        · exact Or.inr (h ▸ List.mem_cons_self)
        · exact (ih h).imp_right (List.mem_cons_of_mem _)

theorem mem_foldl_insertMember {member : String × Json} {members sorted : List (String × Json)}
    (h : member ∈
      members.foldl (fun sorted (name, value) => insertMember name value sorted) sorted) :
    member ∈ members ∨ member ∈ sorted := by
  induction members generalizing sorted with
  | nil => exact Or.inr h
  | cons first rest ih =>
    rcases ih h with h | h
    · exact Or.inl (List.mem_cons_of_mem _ h)
    · rcases mem_insertMember h with h | h
      · exact Or.inl (h ▸ List.mem_cons_self)
      · exact Or.inr h

theorem mem_ofMembers {member : String × Json} {members : List (String × Json)}
    (h : member ∈ ofMembers members) : member ∈ members := by
  rcases mem_foldl_insertMember h with h | h
  · exact h
  · cases h

/-- What a reader has been allowed: brackets within a bound, and numbers of 64 bits. -/
def Nested (depth : Nat) (j : Json) : Prop := j.nesting ≤ depth ∧ j.Stable

theorem Nested.array {depth : Nat} {items : List Json} (h : ∀ item ∈ items, Nested depth item) :
    Nested (depth + 1) (array items) := by
  have hnesting : itemsNesting items ≤ depth := itemsNesting_le_iff.2 fun item hi => (h item hi).1
  exact ⟨Nat.succ_le_succ hnesting, Numbers.array fun item hi => (h item hi).2⟩

theorem Nested.object {depth : Nat} {members : List (String × Json)}
    (h : ∀ member ∈ members, Nested depth member.2) : Nested (depth + 1) (object members) := by
  have hnesting : membersNesting members ≤ depth :=
    membersNesting_le_iff.2 fun member hm => (h member hm).1
  exact ⟨Nat.succ_le_succ hnesting, Numbers.object fun member hm => (h member hm).2⟩

theorem mem_readList {α : Type} {closing : Char}
    {item : List Char → Except Error (α × List Char)} {bound s rest : List Char} {xs : List α}
    (h : readList closing item bound s = .ok (xs, rest)) :
    ∀ x ∈ xs, ∃ before after, item before = .ok (x, after) := by
  induction bound generalizing s rest xs with
  | nil => cases h
  | cons c bound ih =>
    unfold readList at h
    split at h
    · contradiction
    · rename_i x after hx
      split at h
      · contradiction
      · split at h
        · cases h
          simpa using ⟨_, _, hx⟩
        · split at h
          · split at h
            · contradiction
            · rename_i ys last hys
              cases h
              intro y hy
              rcases List.mem_cons.1 hy with rfl | hy
              · exact ⟨_, _, hx⟩
              · exact ih hys y hy
          · contradiction

theorem mem_readEnclosed {α : Type} {closing : Char}
    {item : List Char → Except Error (α × List Char)} {s rest : List Char} {xs : List α}
    (h : readEnclosed closing item s = .ok (xs, rest)) :
    ∀ x ∈ xs, ∃ before after, item before = .ok (x, after) := by
  unfold readEnclosed at h
  split at h
  · contradiction
  · split at h
    · cases h
      simp
    · exact mem_readList h

theorem value_of_readMember {kept : Bool} {value : List Char → Except Error (Json × List Char)}
    {s rest : List Char} {m : String × Json} (h : readMember kept value s = .ok (m, rest)) :
    ∃ before after, value before = .ok (m.2, after) := by
  unfold readMember at h
  split at h
  · contradiction
  · split at h
    · contradiction
    · split at h
      · contradiction
      · rename_i v after hv
        cases h
        exact ⟨_, _, hv⟩

theorem nested_of_readWith {kept : Bool}
    {inner : Option (List Char → Except Error (Json × List Char))} {depth : Nat}
    (hinner : ∀ value ∈ inner, ∃ d, depth = d + 1 ∧
      ∀ before j after, value before = .ok (j, after) → Nested d j)
    {s rest : List Char} {j : Json} (h : readWith kept inner s = .ok (j, rest)) :
    Nested depth j := by
  unfold readWith at h
  split at h
  · contradiction
  · obtain ⟨after, -, h⟩ := map_eq_ok_iff.1 h
    cases h
    exact ⟨Nat.zero_le _, Numbers.null⟩
  · obtain ⟨after, -, h⟩ := map_eq_ok_iff.1 h
    cases h
    exact ⟨Nat.zero_le _, Numbers.bool true⟩
  · obtain ⟨after, -, h⟩ := map_eq_ok_iff.1 h
    cases h
    exact ⟨Nat.zero_le _, Numbers.bool false⟩
  · obtain ⟨after, -, h⟩ := map_eq_ok_iff.1 h
    cases h
    exact ⟨Nat.zero_le _, Numbers.string _⟩
  · split at h
    · contradiction
    · rename_i value
      obtain ⟨d, rfl, hvalue⟩ := hinner value rfl
      obtain ⟨⟨items, after⟩, hread, h⟩ := map_eq_ok_iff.1 h
      cases h
      refine Nested.array fun item hitem => ?_
      obtain ⟨before, after, hitem⟩ := mem_readEnclosed hread item hitem
      exact hvalue before item after hitem
  · split at h
    · contradiction
    · rename_i value
      obtain ⟨d, rfl, hvalue⟩ := hinner value rfl
      obtain ⟨⟨members, after⟩, hread, h⟩ := map_eq_ok_iff.1 h
      cases h
      refine Nested.object fun member hmember => ?_
      obtain ⟨start, stop, hmember⟩ := mem_readEnclosed hread member (mem_ofMembers hmember)
      obtain ⟨before, after, hmember⟩ := value_of_readMember hmember
      exact hvalue before member.2 after hmember
  · split at h
    · obtain ⟨⟨n, after⟩, hread, h⟩ := map_eq_ok_iff.1 h
      cases h
      exact ⟨Nat.zero_le _, Numbers.number (stable_of_readNumber hread)⟩
    · contradiction

/-- A value that was read opens no more brackets than it was allowed. -/
theorem nested_of_readValue {kept : Bool} {depth : Nat} {s rest : List Char} {j : Json}
    (h : readValue kept depth s = .ok (j, rest)) : Nested depth j := by
  induction depth generalizing s rest j with
  | zero => exact nested_of_readWith (fun value hvalue => by cases hvalue) h
  | succ depth ih =>
    refine nested_of_readWith (fun value hvalue => ?_) h
    cases hvalue
    exact ⟨depth, rfl, fun before j after hread => ih hread⟩

end TraceSearch.Json
