import TraceSearch.Proofs.Json.Numeral

/-!
# The grammar of documents

What a text must be to spell a value, without a word on how it is read. Every literal has two
grammars: the one of literals that are kept, whose escapes pair up and whose numbers are doubles or
integers of 64 bits, and the one of literals that are skipped, which is the grammar of RFC 8259.
Main fact: `Spelled.within`, how many brackets a text opens is bounded by its length.
-/

namespace TraceSearch.Json

open Decimal

def Blanks (s : List Char) : Prop := ∀ c ∈ s, isBlank c = true

@[simp] theorem blanks_nil : Blanks [] := List.forall_mem_nil _

/-- The characters between the quotes of a string, and those they stand for. Only in a kept string
do the halves of a pair have to meet. -/
inductive Characters (kept : Bool) : List Char → List Char → Prop where
  | nil : Characters kept [] []
  | plain {c : Char} {source cs : List Char} (hquote : c ≠ '"') (hbackslash : c ≠ '\\')
      (hc : ¬c < ' ') (h : Characters kept source cs) : Characters kept (c :: source) (c :: cs)
  | escape {c e : Char} {source cs : List Char} (he : escaped? c = some e)
      (h : Characters kept source cs) : Characters kept ('\\' :: c :: source) (e :: cs)
  | unit {a b c d : Char} {unit : Nat} {source cs : List Char}
      (hunit : codeUnit? a b c d = some unit)
      (halone : kept = true → isLeading unit = false ∧ isTrailing unit = false)
      (h : Characters kept source cs) :
      Characters kept ('\\' :: 'u' :: a :: b :: c :: d :: source) (Char.ofNat unit :: cs)
  | pair {a b c d e f g i : Char} {unit next : Nat} {source cs : List Char} (hkept : kept = true)
      (hunit : codeUnit? a b c d = some unit) (hleading : isLeading unit = true)
      (hnext : codeUnit? e f g i = some next) (htrailing : isTrailing next = true)
      (h : Characters kept source cs) :
      Characters kept
        ('\\' :: 'u' :: a :: b :: c :: d :: '\\' :: 'u' :: e :: f :: g :: i :: source)
        (pairChar unit next :: cs)

inductive StringText (kept : Bool) : List Char → String → Prop where
  | quoted {source cs : List Char} (h : Characters kept source cs) :
      StringText kept ('"' :: (source ++ ['"'])) (String.ofList cs)

/-- The exponent of a number: its mark in either case, a sign or none, and digits. -/
inductive ExponentText : Option (Bool × List Char) → List Char → Prop where
  | absent : ExponentText none []
  | present {mark : Char} {sign : List Char} {negative : Bool} (ds : List Char)
      (hmark : mark = 'e' ∨ mark = 'E')
      (hsign : (sign, negative) ∈ [([], false), (['+'], false), (['-'], true)]) :
      ExponentText (some (negative, ds)) (mark :: (sign ++ ds))

inductive NumberLiteral.SpelledBy (l : NumberLiteral) : List Char → Prop where
  | parts {exponent : List Char} (hl : l.WellFormed) (h : ExponentText l.exponent exponent) :
      l.SpelledBy ((if l.negative then ['-'] else []) ++
        (l.whole ++ (NumberLiteral.fractionChars l.fraction ++ exponent)))

/-- A number; one that no double holds is no number to keep. -/
inductive NumberText (kept : Bool) : List Char → Number → Prop where
  | held {l : NumberLiteral} {text : List Char} {n : Number} (hl : l.SpelledBy text)
      (hn : l.toNumber? = some n) : NumberText kept text n
  | skipped {l : NumberLiteral} {text : List Char} (hkept : kept = false) (hl : l.SpelledBy text)
      (hn : l.toNumber? = none) : NumberText kept text (.integer 0)

section Lists

variable {α β : Type} {item : List Char → α → Prop}

/-- An item among blanks. -/
inductive Padded (item : List Char → α → Prop) : List Char → α → Prop where
  | around {before text after : List Char} {x : α} (hbefore : Blanks before) (h : item text x)
      (hafter : Blanks after) : Padded item (before ++ (text ++ after)) x

/-- Items among blanks, with commas between them. -/
inductive Items (item : List Char → α → Prop) : List Char → List α → Prop where
  | last {text : List Char} {x : α} (h : Padded item text x) : Items item text [x]
  | cons {text rest : List Char} {x : α} {xs : List α} (h : Padded item text x)
      (hrest : Items item rest xs) : Items item (text ++ ',' :: rest) (x :: xs)

/-- Items between brackets, if any. -/
inductive Enclosed (opening closing : Char) (item : List Char → α → Prop) :
    List Char → List α → Prop where
  | none {gap : List Char} (hgap : Blanks gap) :
      Enclosed opening closing item (opening :: (gap ++ [closing])) []
  | some {body : List Char} {xs : List α} (h : Items item body xs) :
      Enclosed opening closing item (opening :: (body ++ [closing])) xs

variable {item' : List Char → β → Prop} {R : α → β → Prop} {opening closing : Char}
  {body text : List Char} {x : α} {xs : List α}

theorem Padded.alone (h : item text x) : Padded item text x := by
  have hpadded := Padded.around blanks_nil h blanks_nil
  rwa [List.append_nil, List.nil_append] at hpadded

theorem Enclosed.single (h : item text x) :
    Enclosed opening closing item (opening :: (text ++ [closing])) [x] := .some (.last (.alone h))

theorem Padded.exists_related (h : Padded item text x)
    (hitem : ∀ t, t.length ≤ text.length → item t x → ∃ y, item' t y ∧ R x y) :
    ∃ y, Padded item' text y ∧ R x y := by
  obtain ⟨hbefore, h, hafter⟩ := h
  obtain ⟨y, hy, hrelated⟩ := hitem _ (by simp only [List.length_append]; omega) h
  exact ⟨y, .around hbefore hy hafter, hrelated⟩

theorem Items.exists_related (h : Items item body xs)
    (hitem : ∀ t, t.length ≤ body.length → ∀ x ∈ xs, item t x → ∃ y, item' t y ∧ R x y) :
    ∃ ys, Items item' body ys ∧ List.Forall₂ R xs ys := by
  induction h with
  | last h =>
    obtain ⟨y, hy, hrelated⟩ := h.exists_related fun t ht => hitem t ht _ List.mem_cons_self
    exact ⟨[y], .last hy, .cons hrelated .nil⟩
  | @cons text rest x xs h _ ih =>
    have hlength : (text ++ ',' :: rest).length = text.length + (rest.length + 1) := by
      rw [List.length_append, List.length_cons]
    obtain ⟨y, hy, hrelated⟩ := h.exists_related fun t ht =>
      hitem t (by omega) _ List.mem_cons_self
    obtain ⟨ys, hys, hall⟩ := ih fun t ht z hz => hitem t (by omega) z (List.mem_cons_of_mem _ hz)
    exact ⟨y :: ys, .cons hy hys, .cons hrelated hall⟩

/-- The items of a text may be told in another way. -/
theorem Enclosed.exists_related (h : Enclosed opening closing item text xs)
    (hitem : ∀ t, t.length < text.length → ∀ x ∈ xs, item t x → ∃ y, item' t y ∧ R x y) :
    ∃ ys, Enclosed opening closing item' text ys ∧ List.Forall₂ R xs ys := by
  cases h with
  | none hgap => exact ⟨[], .none hgap, .nil⟩
  | @some body _ h =>
    have hlength : (opening :: (body ++ [closing])).length = body.length + 2 := by simp
    obtain ⟨ys, hys, hall⟩ := h.exists_related fun t ht => hitem t (by omega)
    exact ⟨ys, .some hys, hall⟩

theorem Enclosed.map {f : α → β} (h : Enclosed opening closing item text xs)
    (hitem : ∀ t, t.length < text.length → ∀ x ∈ xs, item t x → item' t (f x)) :
    Enclosed opening closing item' text (xs.map f) := by
  obtain ⟨ys, hys, hall⟩ := h.exists_related (R := fun x y => f x = y) fun t ht x hx h =>
    ⟨f x, hitem t ht x hx h, rfl⟩
  have heq := List.forall₂_map_left_iff.2 hall
  rw [List.forall₂_eq_eq_eq] at heq
  exact heq ▸ hys

theorem Enclosed.mono {item' : List Char → α → Prop} (h : Enclosed opening closing item text xs)
    (hitem : ∀ t, t.length < text.length → ∀ x ∈ xs, item t x → item' t x) :
    Enclosed opening closing item' text xs := by
  have hmap := h.map (f := id) hitem
  rwa [List.map_id] at hmap

theorem Items.exists_of_mem (h : Items item body xs) : ∀ x ∈ xs, ∃ t, item t x := by
  have hpadded {text : List Char} {x : α} (h : Padded item text x) : ∃ t, item t x := by
    obtain ⟨-, h, -⟩ := h
    exact ⟨_, h⟩
  induction h with
  | last h => exact List.forall_mem_singleton.2 (hpadded h)
  | cons h _ ih => exact List.forall_mem_cons.2 ⟨hpadded h, ih⟩

theorem Enclosed.exists_of_mem (h : Enclosed opening closing item text xs) :
    ∀ x ∈ xs, ∃ t, item t x := by
  cases h with
  | none _ => exact List.forall_mem_nil _
  | some h => exact h.exists_of_mem

end Lists

/-- A member of an object: its name, a colon and its value. -/
inductive MemberText {α : Type} (kept : Bool) (value : List Char → α → Prop) :
    List Char → String × α → Prop where
  | parts {key gap gap' text : List Char} {name : String} {x : α} (hkey : StringText kept key name)
      (hgap : Blanks gap) (hgap' : Blanks gap') (h : value text x) :
      MemberText kept value (key ++ (gap ++ ':' :: (gap' ++ text))) (name, x)

/-- A value; with no grammar for the values in it, it has no brackets. -/
inductive ValueText (kept : Bool) (inner : Option (List Char → Json → Prop)) :
    List Char → Json → Prop where
  | null : ValueText kept inner ['n', 'u', 'l', 'l'] .null
  | isTrue : ValueText kept inner ['t', 'r', 'u', 'e'] (.bool true)
  | isFalse : ValueText kept inner ['f', 'a', 'l', 's', 'e'] (.bool false)
  | number {text : List Char} {n : Number} (h : NumberText kept text n) :
      ValueText kept inner text (.number n)
  | string {text : List Char} {s : String} (h : StringText kept text s) :
      ValueText kept inner text (.string s)
  | array {value : List Char → Json → Prop} {text : List Char} {items : List Json}
      (hinner : inner = some value) (h : Enclosed '[' ']' value text items) :
      ValueText kept inner text (.array items)
  | object {value : List Char → Json → Prop} {text : List Char} {members : List (String × Json)}
      (hinner : inner = some value)
      (h : Enclosed '\x7b' '\x7d' (MemberText kept value) text members) :
      ValueText kept inner text (.object (ofMembers members))

/-- What a text with at most `depth` brackets open at once denotes. -/
def Spelled (kept : Bool) : Nat → List Char → Json → Prop
  | 0 => ValueText kept none
  | depth + 1 => ValueText kept (some (Spelled kept depth))

theorem spelled_null (kept : Bool) (depth : Nat) :
    Spelled kept depth ['n', 'u', 'l', 'l'] .null := by
  cases depth <;> exact .null

theorem StringText.spelled {kept : Bool} {text : List Char} {s : String}
    (h : StringText kept text s) (depth : Nat) : Spelled kept depth text (.string s) := by
  cases depth <;> exact .string h

section Heads

variable {kept : Bool} {text : List Char}

theorem NumberLiteral.SpelledBy.head {l : NumberLiteral} (h : l.SpelledBy text) :
    ∃ c cs, text = c :: cs ∧ StartsNumber c := by
  obtain ⟨hl, -⟩ := h
  cases l.negative with
  | true => exact ⟨_, _, rfl, Or.inl rfl⟩
  | false =>
    obtain ⟨hne, hdigits⟩ := hl.whole
    cases hwhole : l.whole with
    | nil => exact absurd hwhole hne
    | cons d ds => exact ⟨d, _, rfl, Or.inr (hdigits d (hwhole ▸ List.mem_cons_self))⟩

theorem NumberText.head {n : Number} (h : NumberText kept text n) :
    ∃ c cs, text = c :: cs ∧ StartsNumber c := by
  cases h with
  | held hl _ => exact hl.head
  | skipped _ hl _ => exact hl.head

theorem Enclosed.head {α : Type} {opening closing : Char} {item : List Char → α → Prop}
    {xs : List α} (h : Enclosed opening closing item text xs) :
    ∃ body, text = opening :: (body ++ [closing]) := by
  cases h with
  | none _ => exact ⟨_, rfl⟩
  | some _ => exact ⟨_, rfl⟩

theorem ValueText.head {inner : Option (List Char → Json → Prop)} {j : Json}
    (h : ValueText kept inner text j) :
    ∃ c cs, text = c :: cs ∧ isBlank c = false ∧ c ≠ ']' := by
  cases h with
  | null => exact ⟨_, _, rfl, by decide⟩
  | isTrue => exact ⟨_, _, rfl, by decide⟩
  | isFalse => exact ⟨_, _, rfl, by decide⟩
  | number h =>
    obtain ⟨c, cs, htext, hc⟩ := h.head
    exact ⟨c, cs, htext, hc.not_blank, hc.ne (by decide)⟩
  | string h =>
    cases h
    exact ⟨_, _, rfl, by decide⟩
  | array _ h =>
    obtain ⟨body, hbody⟩ := h.head
    exact ⟨_, _, hbody, by decide⟩
  | object _ h =>
    obtain ⟨body, hbody⟩ := h.head
    exact ⟨_, _, hbody, by decide⟩

theorem Spelled.valueText {depth : Nat} {j : Json} (h : Spelled kept depth text j) :
    ∃ inner, ValueText kept inner text j ∧ ∀ value, inner = some value →
      ∃ d, depth = d + 1 ∧ value = Spelled kept d := by
  cases depth with
  | zero => exact ⟨none, h, fun value hvalue => by cases hvalue⟩
  | succ depth => exact ⟨_, h, fun value hvalue => ⟨depth, rfl, by cases hvalue; rfl⟩⟩

theorem Spelled.head {depth : Nat} {j : Json} (h : Spelled kept depth text j) :
    ∃ c cs, text = c :: cs ∧ isBlank c = false ∧ c ≠ ']' := by
  obtain ⟨inner, h, -⟩ := h.valueText
  exact h.head

theorem MemberText.head {α : Type} {value : List Char → α → Prop} {member : String × α}
    (h : MemberText kept value text member) :
    ∃ c cs, text = c :: cs ∧ isBlank c = false ∧ c ≠ '\x7d' := by
  obtain ⟨hkey, -, -, -⟩ := h
  cases hkey
  exact ⟨_, _, rfl, by decide⟩

end Heads

theorem MemberText.mono {α : Type} {kept : Bool} {value value' : List Char → α → Prop}
    {text : List Char} {member : String × α} (h : MemberText kept value text member)
    (hvalue : ∀ t, t.length ≤ text.length → value t member.2 → value' t member.2) :
    MemberText kept value' text member := by
  obtain ⟨hkey, hgap, hgap', h⟩ := h
  refine .parts hkey hgap hgap' (hvalue _ ?_ h)
  simp only [List.length_append, List.length_cons]
  omega

/-- Every bracket takes a character, so a text cannot open more of them than it is long. -/
theorem Spelled.within {kept : Bool} {depth limit : Nat} {text : List Char} {j : Json}
    (h : Spelled kept depth text j) (hlimit : text.length ≤ limit) :
    Spelled kept limit text j := by
  induction limit generalizing depth text j with
  | zero =>
    obtain ⟨c, cs, rfl, -⟩ := h.head
    simp at hlimit
  | succ limit ih =>
    have hinner (d : Nat) (t : List Char) (ht : t.length < text.length) (x : Json)
        (hx : Spelled kept d t x) : Spelled kept limit t x := ih hx (by omega)
    obtain ⟨inner, h, hdepth⟩ := h.valueText
    cases h with
    | null => exact .null
    | isTrue => exact .isTrue
    | isFalse => exact .isFalse
    | number hnumber => exact .number hnumber
    | string hstring => exact .string hstring
    | array hvalue h =>
      obtain ⟨d, -, rfl⟩ := hdepth _ hvalue
      exact .array rfl (h.mono fun t ht x _ => hinner d t ht x)
    | object hvalue h =>
      obtain ⟨d, -, rfl⟩ := hdepth _ hvalue
      refine .object rfl (h.mono fun t ht member _ hmember => hmember.mono fun t' ht' => ?_)
      exact hinner d t' (by omega) member.2

end TraceSearch.Json
