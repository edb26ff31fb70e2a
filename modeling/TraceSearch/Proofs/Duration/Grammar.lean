import Mathlib
import TraceSearch.Duration.Literal

/-!
# The grammar of duration literals

A literal is a sign, which may be left out, before a lone zero or before groups, each spelled by
digits, a point that may be left out, and a symbol of its unit. Main fact: `ofLiteral_eq_ok_iff`, a
text is read as a duration exactly if the grammar derives it with that value and the value is within
64 bits.
-/

namespace TraceSearch

namespace TimeUnit

/-- The symbols of a unit. -/
def symbols : TimeUnit → List (List Char)
  | nanosecond => [['n', 's']]
  | microsecond => [['u', 's'], ['\u00b5', 's'], ['\u03bc', 's']]
  | millisecond => [['m', 's']]
  | second => [['s']]
  | minute => [['m']]
  | hour => [['h']]

theorem ofSymbol?_of_mem {unit : TimeUnit} {symbol : List Char} (h : symbol ∈ unit.symbols) :
    ofSymbol? symbol = some unit := by
  cases unit <;> simp only [symbols, List.mem_cons, List.not_mem_nil, or_false] at h
  case microsecond => rcases h with rfl | rfl | rfl <;> rfl
  all_goals
    subst h
    rfl

theorem mem_symbols_of_ofSymbol? {unit : TimeUnit} {symbol : List Char}
    (h : ofSymbol? symbol = some unit) : symbol ∈ unit.symbols := by
  unfold ofSymbol? at h
  split_ifs at h <;> cases h <;> simp_all [symbols]

end TimeUnit

namespace Duration

/-- A symbol holds neither digits nor points, so it ends where the next group starts. -/
theorem isSymbolChar_of_mem {unit : TimeUnit} {symbol : List Char} (h : symbol ∈ unit.symbols) :
    symbol ≠ [] ∧ ∀ c ∈ symbol, isSymbolChar c = true := by
  have hall : ∀ unit : TimeUnit, ∀ symbol ∈ unit.symbols,
      symbol ≠ [] ∧ symbol.all isSymbolChar = true := by
    intro unit
    cases unit <;> decide
  obtain ⟨hne, hchars⟩ := hall unit symbol h
  exact ⟨hne, List.all_eq_true.1 hchars⟩

/-- The texts that spell a group: digits, of which some may stand behind a point, and a symbol of
the unit. -/
inductive Group.Spelled : Group → List Char → Prop where
  | whole {ds symbol : List Char} {unit : TimeUnit} (some : ds ≠ [])
      (digits : ∀ c ∈ ds, c.isDigit = true) (known : symbol ∈ unit.symbols) :
      Group.Spelled ⟨ds, [], unit⟩ (ds ++ symbol)
  | pointed {ds es symbol : List Char} {unit : TimeUnit} (some : ds ++ es ≠ [])
      (digits : ∀ c ∈ ds ++ es, c.isDigit = true) (known : symbol ∈ unit.symbols) :
      Group.Spelled ⟨ds, es, unit⟩ (ds ++ '.' :: es ++ symbol)

/-- The texts that spell groups, one after the other. -/
inductive Spelled : List Group → List Char → Prop where
  | nil : Spelled [] []
  | cons {g : Group} {groups : List Group} {text rest : List Char} (first : g.Spelled text)
      (others : Spelled groups rest) : Spelled (g :: groups) (text ++ rest)

/-- The nanoseconds that groups denote together. Of a fraction the first 18 digits count, and what
they give is rounded down. -/
def total (groups : List Group) : Nat :=
  (groups.map fun g =>
    Decimal.value g.whole * g.unit.nanoseconds +
      Decimal.value (g.fraction.take 18) * g.unit.nanoseconds / 10 ^ min g.fraction.length 18).sum

/-- The literals, each with the duration it denotes. -/
inductive Denotes : List Char → Duration → Prop where
  | zero {sign : List Char} (signed : sign ∈ [[], ['+'], ['-']]) : Denotes (sign ++ ['0']) ⟨0⟩
  | positive {sign body : List Char} {groups : List Group} (signed : sign ∈ [[], ['+']])
      (some : groups ≠ []) (spelled : Spelled groups body) (bounded : total groups ≤ 2 ^ 63 - 1) :
      Denotes (sign ++ body) ⟨total groups⟩
  | negative {body : List Char} {groups : List Group} (some : groups ≠ [])
      (spelled : Spelled groups body) (bounded : total groups ≤ 2 ^ 63) :
      Denotes ('-' :: body) ⟨-total groups⟩

@[simp] theorem total_cons (g : Group) (groups : List Group) :
    total (g :: groups) = g.nanoseconds + total groups := by
  have hlength : g.significant.length = min g.fraction.length 18 := by
    rw [Group.significant, List.length_take, Nat.min_comm]
    rfl
  rw [Group.nanoseconds, hlength]
  exact List.sum_cons

/-- A group starts with a digit or a point, which no symbol holds. -/
theorem Group.Spelled.head {g : Group} {text : List Char} (h : g.Spelled text) (rest : List Char) :
    ∃ c tail, text ++ rest = c :: tail ∧ isSymbolChar c = false := by
  have digit {c : Char} (hc : c.isDigit = true) : isSymbolChar c = false := by
    simp [isSymbolChar, hc]
  cases h with
  | whole hne hdigits hsymbol =>
    obtain ⟨d, ds, rfl⟩ := List.exists_cons_of_ne_nil hne
    exact ⟨d, _, rfl, digit (hdigits d List.mem_cons_self)⟩
  | @pointed ds es symbol unit hne hdigits hsymbol =>
    cases ds with
    | nil => exact ⟨'.', _, rfl, rfl⟩
    | cons d ds => exact ⟨d, _, rfl, digit (hdigits d List.mem_cons_self)⟩

theorem Spelled.head {groups : List Group} {text : List Char} (h : Spelled groups text) :
    ∀ c ∈ text.head?, isSymbolChar c = false := by
  cases h with
  | nil => nofun
  | cons first others =>
    obtain ⟨c, tail, htext, hc⟩ := first.head _
    rw [htext]
    intro d hd
    cases hd
    exact hc

/-- A run of symbol characters ends at whatever starts a group. -/
theorem symbolRun_append {symbol rest : List Char} (hsymbol : ∀ c ∈ symbol, isSymbolChar c = true)
    (hrest : ∀ c ∈ rest.head?, isSymbolChar c = false) :
    (symbol ++ rest).takeWhile isSymbolChar = symbol ∧
      (symbol ++ rest).dropWhile isSymbolChar = rest := by
  rw [List.takeWhile_append_of_pos hsymbol, List.dropWhile_append_of_pos hsymbol]
  cases rest with
  | nil => exact ⟨List.append_nil symbol, rfl⟩
  | cons c rest =>
    have hc := hrest c rfl
    simp [hc]

theorem splitDigits_symbol {ds symbol rest : List Char} {unit : TimeUnit}
    (hds : ∀ c ∈ ds, c.isDigit = true) (hsymbol : symbol ∈ unit.symbols) :
    Decimal.splitDigits (ds ++ (symbol ++ rest)) = (ds, symbol ++ rest) := by
  refine Decimal.splitDigits_of_all hds _ ?_
  obtain ⟨hne, hchars⟩ := isSymbolChar_of_mem hsymbol
  obtain ⟨c, cs, rfl⟩ := List.exists_cons_of_ne_nil hne
  have hc := hchars c List.mem_cons_self
  intro d hd
  cases hd
  simp only [isSymbolChar, Bool.not_eq_true', Bool.or_eq_false_iff] at hc
  exact hc.2

theorem splitFraction_symbol {symbol rest : List Char} {unit : TimeUnit}
    (hsymbol : symbol ∈ unit.symbols) : splitFraction (symbol ++ rest) = ([], symbol ++ rest) := by
  obtain ⟨hne, hchars⟩ := isSymbolChar_of_mem hsymbol
  obtain ⟨c, cs, rfl⟩ := List.exists_cons_of_ne_nil hne
  have hc := hchars c List.mem_cons_self
  rw [List.cons_append, splitFraction]
  intro tail hpoint
  cases hpoint
  contradiction

theorem readGroup_append {g : Group} {text rest : List Char} (h : g.Spelled text)
    (hrest : ∀ c ∈ rest.head?, isSymbolChar c = false) :
    readGroup (text ++ rest) = .ok (g, rest) := by
  cases h with
  | @whole ds symbol unit hne hdigits hsymbol =>
    obtain ⟨hsome, hchars⟩ := isSymbolChar_of_mem hsymbol
    obtain ⟨htake, hdrop⟩ := symbolRun_append hchars hrest
    rw [List.append_assoc, readGroup, splitDigits_symbol hdigits hsymbol]
    simp [splitFraction_symbol hsymbol, htake, hdrop, hne, hsome, TimeUnit.ofSymbol?_of_mem hsymbol]
  | @pointed ds es symbol unit hne hdigits hsymbol =>
    obtain ⟨hsome, hchars⟩ := isSymbolChar_of_mem hsymbol
    obtain ⟨htake, hdrop⟩ := symbolRun_append hchars hrest
    have hwhole : Decimal.splitDigits (ds ++ '.' :: (es ++ (symbol ++ rest))) =
        (ds, '.' :: (es ++ (symbol ++ rest))) := by
      refine Decimal.splitDigits_of_all (fun c hc => hdigits c (List.mem_append_left es hc)) _ ?_
      intro c hc
      cases hc
      rfl
    have hfraction : splitFraction ('.' :: (es ++ (symbol ++ rest))) = (es, symbol ++ rest) :=
      splitDigits_symbol (fun c hc => hdigits c (List.mem_append_right ds hc)) hsymbol
    have htext : ds ++ '.' :: es ++ symbol ++ rest = ds ++ '.' :: (es ++ (symbol ++ rest)) := by
      simp
    have hnumber : (ds.isEmpty && es.isEmpty) = false := by
      rw [← Bool.not_eq_true, Bool.and_eq_true, List.isEmpty_iff, List.isEmpty_iff,
        ← List.append_eq_nil_iff]
      exact hne
    rw [htext, readGroup, hwhole]
    simp [hfraction, htake, hdrop, hnumber, hsome, TimeUnit.ofSymbol?_of_mem hsymbol]

theorem splitDigits_eq {s ds rest : List Char} (h : Decimal.splitDigits s = (ds, rest)) :
    s = ds ++ rest ∧ ∀ c ∈ ds, c.isDigit = true := by
  cases h
  exact ⟨List.takeWhile_append_dropWhile.symm, fun c hc => List.mem_takeWhile_imp hc⟩

theorem splitFraction_eq {s es rest : List Char} (h : splitFraction s = (es, rest)) :
    (es = [] ∧ s = rest) ∨ (s = '.' :: es ++ rest ∧ ∀ c ∈ es, c.isDigit = true) := by
  unfold splitFraction at h
  split at h
  · obtain ⟨rfl, hes⟩ := splitDigits_eq h
    exact Or.inr ⟨rfl, hes⟩
  · cases h
    exact Or.inl ⟨rfl, rfl⟩

theorem spelled_of_readGroup {s rest : List Char} {g : Group} (h : readGroup s = .ok (g, rest)) :
    ∃ text, g.Spelled text ∧ s = text ++ rest := by
  rcases hwhole : Decimal.splitDigits s with ⟨ds, afterWhole⟩
  rcases hfraction : splitFraction afterWhole with ⟨es, afterNumber⟩
  obtain ⟨rfl, hds⟩ := splitDigits_eq hwhole
  simp only [readGroup, hwhole, hfraction] at h
  split at h
  · contradiction
  rename_i hnumber
  split at h
  · contradiction
  split at h
  · contradiction
  rename_i unit hunit
  cases h
  have hsymbol := TimeUnit.mem_symbols_of_ofSymbol? hunit
  have hrun : afterNumber.takeWhile isSymbolChar ++ afterNumber.dropWhile isSymbolChar =
      afterNumber := List.takeWhile_append_dropWhile
  have hne : ds ++ es ≠ [] := by
    intro hnil
    obtain ⟨rfl, rfl⟩ := List.append_eq_nil_iff.1 hnil
    exact hnumber rfl
  rcases splitFraction_eq hfraction with ⟨rfl, rfl⟩ | ⟨rfl, hes⟩
  · rw [List.append_nil] at hne
    refine ⟨_, .whole hne hds hsymbol, ?_⟩
    rw [List.append_assoc, hrun]
  · have hdigits : ∀ c ∈ ds ++ es, c.isDigit = true := by
      intro c hc
      rcases List.mem_append.1 hc with hc | hc
      · exact hds c hc
      · exact hes c hc
    refine ⟨_, .pointed hne hdigits hsymbol, ?_⟩
    rw [List.append_assoc, List.append_assoc, hrun]

theorem Group.Spelled.length_pos {g : Group} {text : List Char} (h : g.Spelled text) :
    0 < text.length := by
  obtain ⟨c, tail, htext, -⟩ := h.head []
  rw [List.append_nil] at htext
  rw [htext]
  exact Nat.zero_lt_succ _

theorem spelled_nil_iff {groups : List Group} : Spelled groups [] ↔ groups = [] := by
  constructor
  · intro h
    generalize htext : ([] : List Char) = text at h
    cases h with
    | nil => rfl
    | cons first others =>
      have hpos := first.length_pos
      rw [(List.nil_eq_append_iff.1 htext).1] at hpos
      contradiction
  · rintro rfl
    exact .nil

@[simp] theorem addGroups_nil (limit bound before : Nat) :
    addGroups limit bound before [] = .ok before := by
  cases bound <;> rfl

theorem spelled_of_addGroups {limit bound before n : Nat} {s : List Char}
    (hbound : s.length ≤ bound) (hbefore : before ≤ limit)
    (h : addGroups limit bound before s = .ok n) :
    n ≤ limit ∧ ∃ groups, Spelled groups s ∧ n = before + total groups := by
  induction bound generalizing before s with
  | zero =>
    obtain rfl := List.length_eq_zero_iff.1 (Nat.le_zero.1 hbound)
    cases h
    exact ⟨hbefore, [], .nil, rfl⟩
  | succ bound ih =>
    cases s with
    | nil =>
      cases h
      exact ⟨hbefore, [], .nil, rfl⟩
    | cons c s =>
      unfold addGroups at h
      cases hread : readGroup (c :: s) with
      | error fault => simp [hread] at h
      | ok group =>
        obtain ⟨g, rest⟩ := group
        obtain ⟨text, hfirst, htext⟩ := spelled_of_readGroup hread
        have hlength : rest.length ≤ bound := by
          have hpos := hfirst.length_pos
          rw [htext, List.length_append] at hbound
          omega
        simp only [hread] at h
        split at h
        · contradiction
        · rename_i hlimit
          obtain ⟨hle, groups, hspelled, rfl⟩ := ih hlength (Nat.not_lt.1 hlimit) h
          rw [htext, Nat.add_assoc, ← total_cons]
          rw [Nat.add_assoc, ← total_cons] at hle
          exact ⟨hle, g :: groups, .cons hfirst hspelled, rfl⟩

/-- The running total never falls, so it stays within a limit that the last one keeps. -/
theorem addGroups_of_spelled {limit bound before : Nat} {groups : List Group} {s : List Char}
    (hbound : s.length ≤ bound) (h : Spelled groups s) (hlimit : before + total groups ≤ limit) :
    addGroups limit bound before s = .ok (before + total groups) := by
  induction h generalizing before bound with
  | nil => exact addGroups_nil limit bound before
  | @cons g groups text rest first others ih =>
    obtain ⟨c, tail, htext, -⟩ := first.head rest
    have hread := readGroup_append first others.head
    have hpos := first.length_pos
    rw [total_cons] at hlimit ⊢
    rw [List.length_append] at hbound
    obtain ⟨bound, rfl⟩ := Nat.exists_eq_add_one.2 (Nat.lt_of_lt_of_le (by omega) hbound)
    have hnext : before + g.nanoseconds + total groups ≤ limit := by omega
    have hlength : rest.length ≤ bound := by omega
    rw [htext] at hread ⊢
    unfold addGroups
    simp only [hread]
    rw [if_neg (by omega), ih hlength hnext, Nat.add_assoc]

/-- A text spells groups in one way: the first is what the reader takes from its start. -/
theorem Spelled.unique {groups others : List Group} {text : List Char} (h : Spelled groups text)
    (hothers : Spelled others text) : groups = others := by
  induction h generalizing others with
  | nil => exact (spelled_nil_iff.1 hothers).symm
  | @cons g groups text rest first more ih =>
    have hread := readGroup_append first more.head
    generalize htext : text ++ rest = s at hothers hread
    cases hothers with
    | nil =>
      have hpos := first.length_pos
      rw [(List.append_eq_nil_iff.1 htext).1] at hpos
      contradiction
    | cons first' more' =>
      rw [readGroup_append first' more'.head] at hread
      cases hread
      rw [ih more']

/-- A zero alone is no group: it has no unit. -/
theorem not_spelled_zero {groups : List Group} : ¬ Spelled groups ['0'] := by
  intro h
  generalize htext : ['0'] = s at h
  cases h with
  | nil => contradiction
  | cons first others =>
    have hread := readGroup_append first others.head
    have hzero : readGroup ['0'] = .error .noUnit := rfl
    rw [← htext, hzero] at hread
    contradiction

theorem readMagnitude_eq_ok_iff {negative : Bool} {body : List Char} {n : Nat} :
    readMagnitude negative body = .ok n ↔
      (body = ['0'] ∧ n = 0) ∨
        ∃ groups, groups ≠ [] ∧ Spelled groups body ∧ n = total groups ∧
          n ≤ magnitudeLimit negative := by
  unfold readMagnitude
  by_cases hzero : body = ['0']
  · have hnone : ¬ ∃ groups, groups ≠ [] ∧ Spelled groups body ∧ n = total groups ∧
        n ≤ magnitudeLimit negative := by
      rintro ⟨groups, -, hspelled, -⟩
      exact not_spelled_zero (hzero ▸ hspelled)
    rw [if_pos hzero, or_iff_left hnone, Except.ok.injEq, and_iff_right hzero]
    exact eq_comm
  · rw [if_neg hzero, or_iff_right fun h => hzero h.1]
    constructor
    · intro h
      split at h
      · contradiction
      · rename_i hne
        obtain ⟨hle, groups, hspelled, hn⟩ :=
          spelled_of_addGroups (Nat.le_refl _) (Nat.zero_le _) h
        rw [Nat.zero_add] at hn
        refine ⟨groups, ?_, hspelled, hn, hle⟩
        rintro rfl
        cases hspelled
        exact hne rfl
    · rintro ⟨groups, hsome, hspelled, rfl, hle⟩
      rw [if_neg, addGroups_of_spelled (Nat.le_refl _) hspelled, Nat.zero_add]
      · rwa [Nat.zero_add]
      · rintro rfl
        exact hsome (spelled_nil_iff.1 hspelled)

/-- A body starts with no sign, so the sign before it is the one that was written. -/
theorem splitSign_append {sign body : List Char} (hsign : sign ∈ [[], ['+']])
    (hbody : ∀ c ∈ body.head?, isSymbolChar c = false) :
    splitSign (sign ++ body) = (false, body) := by
  simp only [List.mem_cons, List.not_mem_nil, or_false] at hsign
  rcases hsign with rfl | rfl
  · unfold splitSign
    split
    · rename_i rest hrest
      rw [List.nil_append] at hrest
      have hminus := hbody '-' (hrest ▸ rfl)
      contradiction
    · rename_i rest hrest
      rw [List.nil_append] at hrest
      have hplus := hbody '+' (hrest ▸ rfl)
      contradiction
    · rfl
  · rfl

theorem splitSign_eq {s body : List Char} {negative : Bool} (h : splitSign s = (negative, body)) :
    (negative = false ∧ ∃ sign ∈ [[], ['+']], s = sign ++ body) ∨
      (negative = true ∧ s = '-' :: body) := by
  unfold splitSign at h
  split at h
  · cases h
    exact Or.inr ⟨rfl, rfl⟩
  · cases h
    exact Or.inl ⟨rfl, ['+'], List.mem_cons_of_mem _ List.mem_cons_self, rfl⟩
  · cases h
    exact Or.inl ⟨rfl, [], List.mem_cons_self, rfl⟩

theorem ofLiteral_of_splitSign {literal : String} {text body : List Char} {negative : Bool}
    {n : Nat} (htext : literal.toList = text) (hne : text ≠ [])
    (hsplit : splitSign text = (negative, body)) (h : readMagnitude negative body = .ok n) :
    ofLiteral literal = .ok (signed negative n) := by
  subst htext
  unfold ofLiteral
  split
  · contradiction
  · simp only [hsplit, h]

/-- A literal that is not empty is read as its body is, and a refusal keeps it whole. -/
theorem ofLiteral_of_ne_empty {literal : String} (h : literal ≠ "") :
    ofLiteral literal =
      match readMagnitude (splitSign literal.toList).1 (splitSign literal.toList).2 with
      | .error fault => .error (.faulty fault literal)
      | .ok magnitude => .ok (signed (splitSign literal.toList).1 magnitude) := by
  unfold ofLiteral
  split
  · rename_i htext
    exact absurd (String.toList_eq_nil_iff.1 htext) h
  · rfl

theorem ofLiteral_eq_empty_iff {literal : String} :
    ofLiteral literal = .error .empty ↔ literal = "" := by
  constructor
  · intro h
    by_contra hne
    rw [ofLiteral_of_ne_empty hne] at h
    split at h <;> cases h
  · rintro rfl
    rfl

theorem readMagnitude_of_ofLiteral {literal : String} {d : Duration}
    (h : ofLiteral literal = .ok d) :
    ∃ n, readMagnitude (splitSign literal.toList).1 (splitSign literal.toList).2 = .ok n ∧
      d = signed (splitSign literal.toList).1 n := by
  have hne : literal ≠ "" := by
    intro hempty
    rw [ofLiteral_eq_empty_iff.2 hempty] at h
    cases h
  rw [ofLiteral_of_ne_empty hne] at h
  split at h
  · cases h
  · rename_i n hread
    cases h
    exact ⟨n, hread, rfl⟩

theorem denotes_of_ofLiteral {literal : String} {d : Duration} (h : ofLiteral literal = .ok d) :
    Denotes literal.toList d := by
  obtain ⟨n, hread, rfl⟩ := readMagnitude_of_ofLiteral h
  rcases hsplit : splitSign literal.toList with ⟨negative, body⟩
  rw [hsplit] at hread
  rcases readMagnitude_eq_ok_iff.1 hread with ⟨rfl, rfl⟩ | ⟨groups, hne, hspelled, rfl, hle⟩
  · rcases splitSign_eq hsplit with ⟨rfl, sign, hsign, htext⟩ | ⟨rfl, htext⟩
    · rw [htext]
      exact .zero (List.mem_append_left [['-']] hsign)
    · have hsign : ['-'] ∈ [[], ['+'], ['-']] := by decide
      rw [htext]
      exact .zero hsign
  · rcases splitSign_eq hsplit with ⟨rfl, sign, hsign, htext⟩ | ⟨rfl, htext⟩
    · rw [htext]
      exact .positive hsign hne hspelled hle
    · rw [htext]
      exact .negative hne hspelled hle

theorem ofLiteral_of_denotes {literal : String} {d : Duration} (h : Denotes literal.toList d) :
    ofLiteral literal = .ok d := by
  generalize htext : literal.toList = text at h
  cases h with
  | @zero sign hsign =>
    have hread (negative : Bool) : readMagnitude negative ['0'] = .ok 0 := rfl
    have hne : sign ++ ['0'] ≠ [] := by simp
    simp only [List.mem_cons, List.not_mem_nil, or_false] at hsign
    rcases hsign with rfl | rfl | rfl
    · exact ofLiteral_of_splitSign htext hne rfl (hread false)
    · exact ofLiteral_of_splitSign htext hne rfl (hread false)
    · exact ofLiteral_of_splitSign htext hne rfl (hread true)
  | @positive sign body groups hsign hsome hspelled hbounded =>
    have hread : readMagnitude false body = .ok (total groups) :=
      readMagnitude_eq_ok_iff.2 (Or.inr ⟨groups, hsome, hspelled, rfl, hbounded⟩)
    have hbody : body ≠ [] := fun hnil => hsome (spelled_nil_iff.1 (hnil ▸ hspelled))
    have hne : sign ++ body ≠ [] := by simp [hbody]
    exact ofLiteral_of_splitSign htext hne (splitSign_append hsign hspelled.head) hread
  | @negative body groups hsome hspelled hbounded =>
    have hread : readMagnitude true body = .ok (total groups) :=
      readMagnitude_eq_ok_iff.2 (Or.inr ⟨groups, hsome, hspelled, rfl, hbounded⟩)
    exact ofLiteral_of_splitSign htext (List.cons_ne_nil _ _) rfl hread

/-- A text is read as a duration exactly if the grammar derives it with that value. -/
theorem ofLiteral_eq_ok_iff (literal : String) (d : Duration) :
    ofLiteral literal = .ok d ↔ Denotes literal.toList d :=
  ⟨denotes_of_ofLiteral, ofLiteral_of_denotes⟩

end Duration

end TraceSearch
