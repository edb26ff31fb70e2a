import TraceSearch.Proofs.Intent.Written
import TraceSearch.Proofs.Model.Reply

/-!
# Intents recovered from replies

A document is free of fences if the texts in it are: escapes keep backticks as they stand and put
none of their own, and between the texts there are only brackets, commas, colons and blanks. Main
fact: `extract_stated`, an assistant recovers the intent that a reply states.
-/

namespace TraceSearch

namespace Model

open Json (Layout escapedChar escapedChar_ne_nil escapedChar_of_not_short shortEscaped
  stringText)

/-- A text without a fence that may follow another such text. -/
structure Plain (s : List Char) : Prop where
  unfenced : Unfenced s
  head : s.head? ≠ some tick

theorem plain_of_not_mem {s : List Char} (hs : tick ∉ s) : Plain s where
  unfenced := by
    have h := unfenced_append_of_not_mem hs unfenced_nil
    rwa [List.append_nil] at h
  head h := hs (List.mem_of_mem_head? h)

theorem plain_cons {c : Char} (hc : c ≠ tick) {s : List Char} (hs : Unfenced s) :
    Plain (c :: s) :=
  ⟨unfenced_cons_iff.2 ⟨not_fence_prefix_cons hc s, hs⟩, by simpa using hc⟩

theorem Plain.append {s t : List Char} (hs : Plain s) (ht : Plain t) : Plain (s ++ t) := by
  refine ⟨unfenced_append hs.unfenced ht.unfenced ht.head, ?_⟩
  cases s with
  | nil => exact ht.head
  | cons c s => exact hs.head

theorem plain_intercalate {sep : List Char} (hsep : Plain sep) {texts : List (List Char)}
    (h : ∀ t ∈ texts, Plain t) : Plain (List.intercalate sep texts) := by
  induction texts with
  | nil => exact plain_of_not_mem List.not_mem_nil
  | cons t texts ih =>
    obtain ⟨ht, htexts⟩ := List.forall_mem_cons.1 h
    cases texts with
    | nil =>
      rw [List.intercalate_singleton]
      exact ht
    | cons u us =>
      rw [List.intercalate_cons_cons]
      exact (ht.append hsep).append (ih htexts)

theorem tick_not_mem_control : ∀ n < 32,
    tick ∉ ['\\', 'u', '0', '0'] ++ (Nat.toDigits 16 n).leftpad 2 '0' := by
  decide

theorem tick_not_mem_escapedChar {c : Char} (hc : c ≠ tick) : tick ∉ escapedChar c := by
  by_cases hshort : c ∈ shortEscaped
  · have htick : ∀ d ∈ shortEscaped, tick ∉ escapedChar d := by
      simp [shortEscaped, escapedChar, tick]
    exact htick c hshort
  · rw [escapedChar_of_not_short hshort]
    split
    · rename_i hcontrol
      exact tick_not_mem_control c.toNat hcontrol
    · simpa using hc.symm

/-- Escapes neither join backticks nor put any. -/
theorem replicate_prefix_of_escaped {n : ℕ} {s : List Char}
    (h : List.replicate n tick <+: s.flatMap escapedChar) : List.replicate n tick <+: s := by
  induction s generalizing n with
  | nil => exact h
  | cons c s ih =>
    cases n with
    | zero => exact List.nil_prefix
    | succ n =>
      rw [List.flatMap_cons, List.replicate_succ] at h
      by_cases hc : c = tick
      · subst hc
        have hrest : List.replicate n tick <+: s.flatMap escapedChar :=
          (List.cons_prefix_cons.1 h).2
        rw [List.replicate_succ]
        exact List.cons_prefix_cons.2 ⟨rfl, ih hrest⟩
      · obtain ⟨d, ds, hd⟩ := List.exists_cons_of_ne_nil (escapedChar_ne_nil c)
        have htick := tick_not_mem_escapedChar hc
        rw [hd] at h htick
        have heq : tick = d := (List.cons_prefix_cons.1 h).1
        exact absurd (heq ▸ List.mem_cons_self) htick

theorem unfenced_escaped {s : List Char} (hs : Unfenced s) :
    Unfenced (s.flatMap escapedChar) := by
  induction s with
  | nil => exact hs
  | cons c s ih =>
    obtain ⟨hfirst, hrest⟩ := unfenced_cons_iff.1 hs
    by_cases hc : c = tick
    · subst hc
      have hfence : ¬fence <+: (tick :: s).flatMap escapedChar := fun h =>
        hfirst (replicate_prefix_of_escaped (n := 3) h)
      exact unfenced_cons_iff.2 ⟨hfence, ih hrest⟩
    · rw [List.flatMap_cons]
      exact unfenced_append_of_not_mem (tick_not_mem_escapedChar hc) (ih hrest)

theorem plain_blanks {blanks : List Char} (h : ∀ c ∈ blanks, Json.isBlank c = true) :
    Plain blanks :=
  plain_of_not_mem fun htick => absurd (h tick htick) (by decide)

theorem plain_stringText {text : String} (h : Unfenced text.toList) : Plain (stringText text) :=
  (plain_cons (by decide) (unfenced_escaped h)).append (plain_of_not_mem (by decide))

theorem plain_member (l : Layout) {name : String} (hname : Unfenced name.toList)
    {value : List Char} (hvalue : Plain value) : Plain (l.member name value) :=
  (plain_stringText hname).append
    (plain_cons (by decide) ((plain_blanks l.isBlank_colon).append hvalue).unfenced)

theorem plain_enclose (l : Layout) (level : ℕ) {opening closing : Char} (hopening : opening ≠ tick)
    (hclosing : closing ≠ tick) {texts : List (List Char)} (h : ∀ t ∈ texts, Plain t) :
    Plain (l.enclose level opening closing texts) := by
  have hgap (level : ℕ) : Plain (l.gap level) := plain_blanks (l.isBlank_gap level)
  have hlast : Plain [closing] := plain_cons hclosing unfenced_nil
  have hitems : Plain (List.intercalate (',' :: l.gap (level + 1)) texts) :=
    plain_intercalate (plain_cons (by decide) (hgap _).unfenced) h
  unfold Layout.enclose
  split
  · exact plain_cons hopening hlast.unfenced
  · exact (((plain_cons hopening (hgap _).unfenced).append hitems).append (hgap _)).append hlast

theorem solid_enclose (l : Layout) (level : ℕ) {opening closing : Char}
    (hopening : Text.isBlank opening = false) (hclosing : Text.isBlank closing = false)
    (texts : List (List Char)) : Solid (l.enclose level opening closing texts) := by
  unfold Layout.enclose
  split
  · exact ⟨⟨opening, rfl, hopening⟩, ⟨closing, rfl, hclosing⟩⟩
  · exact ⟨⟨opening, rfl, hopening⟩, ⟨closing, List.getLast?_concat, hclosing⟩⟩

end Model

namespace Intent

open Model (Unfenced Plain tick)
open Json (Layout Given)

def part (i : Intent) : Part → Option String
  | .service => i.service
  | .operation => i.operation
  | .minDuration => i.minDuration
  | .maxDuration => i.maxDuration
  | .startTime => i.startTime
  | .endTime => i.endTime

/-- None of the texts of an intent holds a fence. -/
structure FenceFree (i : Intent) : Prop where
  parts : ∀ part, ∀ text ∈ i.part part, Unfenced text.toList
  tags : ∀ tag ∈ i.tags.entries, Unfenced tag.1.toList ∧ Unfenced tag.2.toList

theorem part_dropEmptyParts (i : Intent) (part : Part) :
    i.dropEmptyParts.part part = (i.part part).filter (· ≠ "") := by
  have hstated (text : Option String) : statedPart text = text.filter (· ≠ "") := by
    cases text with
    | none => rfl
    | some text => by_cases h : text = "" <;> simp [statedPart, Option.filter, h]
  cases part <;> exact hstated _

theorem dropEmptyParts_dropEmptyParts (i : Intent) :
    i.dropEmptyParts.dropEmptyParts = i.dropEmptyParts := by
  have hstated (text : Option String) : statedPart (statedPart text) = statedPart text := by
    by_cases h : text = some "" <;> simp [statedPart, h]
  simp only [dropEmptyParts, hstated]

theorem FenceFree.dropEmptyParts {i : Intent} (h : i.FenceFree) : i.dropEmptyParts.FenceFree where
  parts part text htext := by
    rw [part_dropEmptyParts, Option.mem_filter_iff] at htext
    exact h.parts part text htext.1
  tags := h.tags

theorem plain_partText {part : Option String} (h : ∀ text ∈ part, Unfenced text.toList) :
    Plain (partText part) := by
  cases part with
  | none => exact Model.plain_of_not_mem (by decide)
  | some text => exact Model.plain_stringText (h text rfl)

theorem plain_tags (l : Layout) {i : Intent} (h : i.FenceFree) : Plain (i.tags.text l) := by
  refine Model.plain_enclose l 1 (by decide) (by decide) fun t ht => ?_
  obtain ⟨tag, htag, rfl⟩ := List.mem_map.1 ht
  obtain ⟨hkey, htext⟩ := h.tags tag htag
  exact Model.plain_member l hkey (Model.plain_stringText htext)

theorem plain_written (l : Layout) {i : Intent} (h : i.FenceFree) : Plain (written l i) := by
  have hnames : ∀ g ∈ given l i, Unfenced g.field.name.toList := by
    have hfields : ∀ f ∈ fields, tick ∉ f.name.toList := by decide
    exact fun g hg => (Model.plain_of_not_mem (hfields g.field (List.mem_map_of_mem hg))).unfenced
  have hvalues : ∀ g ∈ given l i, Plain g.value := by
    simp only [given, List.forall_mem_cons, List.not_mem_nil, false_imp_iff, implies_true, and_true]
    exact ⟨plain_partText (h.parts .service), plain_partText (h.parts .operation),
      plain_partText (h.parts .minDuration), plain_partText (h.parts .maxDuration),
      plain_partText (h.parts .startTime), plain_partText (h.parts .endTime), plain_tags l h⟩
  refine Model.plain_enclose l 0 (by decide) (by decide) fun t ht => ?_
  obtain ⟨g, hg, rfl⟩ := List.mem_map.1 ht
  exact Model.plain_member l (hnames g hg) (hvalues g hg)

/-- What an intent is written as, without blanks or on lines. -/
def documents (i : Intent) : List String := [i.toJson.compact, i.toJson.pretty]

theorem exists_layout {i : Intent} {document : String} (h : document ∈ i.documents) :
    ∃ l, document = String.ofList (written l i) := by
  rcases List.mem_pair.1 h with rfl | rfl
  · exact ⟨.tight, compact_toJson i⟩
  · exact ⟨.lines, pretty_toJson i⟩

end Intent

namespace Model

theorem mem_of_states {document reply : List Char} (h : States document reply) {c : Char}
    (hc : c ∈ document) : c ∈ reply := by
  cases h <;> simp [hc]

theorem not_isBlankText {document : List Char} (hsolid : Solid document) {reply : String}
    (h : States document reply.toList) : Text.isBlankText reply = false := by
  obtain ⟨c, hc, hblank⟩ := hsolid.head
  have hmem : c ∈ reply.toList := mem_of_states h (List.mem_of_mem_head? hc)
  exact List.all_eq_false.2 ⟨c, hmem, by simp [hblank]⟩

theorem completedIntent_of_states {document : List Char} (hsolid : Solid document)
    (hdocument : Unfenced document) {reply : String} (h : States document reply.toList) :
    completedIntent (.ok reply) = statedIntent (String.ofList document) := by
  rw [completedIntent, completionText, not_isBlankText hsolid h]
  exact congrArg statedIntent (jsonBlock_of_states hsolid hdocument h)

theorem completedIntent_written {i : Intent} (hfree : i.FenceFree) {document reply : String}
    (hdocument : document ∈ i.documents) (h : States document.toList reply.toList) :
    completedIntent (.ok reply) = .ok i.dropEmptyParts := by
  obtain ⟨l, rfl⟩ := Intent.exists_layout hdocument
  rw [String.toList_ofList] at h
  have hsolid : Solid (Intent.written l i) := solid_enclose l 0 (by decide) (by decide) _
  have hne : String.ofList (Intent.written l i) ≠ "" := by
    intro hempty
    obtain ⟨c, hc, -⟩ := hsolid.head
    rw [← String.toList_ofList (l := Intent.written l i), hempty] at hc
    cases hc
  rw [completedIntent_of_states hsolid (Intent.plain_written l hfree).unfenced h, statedIntent,
    if_neg hne, Intent.read_written]

variable {m : Type → Type} [Monad m]

/-- However a generator comes to a reply that states the document, the intent is extracted. -/
def Recovers (m : Type → Type) [Monad m] (document : String) (i : Intent) : Prop :=
  ∀ (g : Generator m) (text : String) {α : Type} (run : m α) (reply : α → String),
    (∀ a, States document.toList (reply a).toList) →
      g.generate (Template.search.fill text) = (fun a => .ok (reply a)) <$> run →
        (Assistant.ofGenerator g).extract text = (fun _ => .ok i) <$> run

theorem recovers_documents [LawfulMonad m] {i : Intent} (hfree : i.FenceFree) :
    ∀ document ∈ i.documents, Recovers m document i.dropEmptyParts := by
  intro document hdocument g text α run reply hstates hgenerate
  have hextract : ∀ a, completedIntent (.ok (reply a)) = .ok i.dropEmptyParts := fun a =>
    completedIntent_written hfree hdocument (hstates a)
  calc (Assistant.ofGenerator g).extract text
      = completedIntent <$> g.generate (Template.search.fill text) := (map_eq_pure_bind _ _).symm
    _ = (fun a => completedIntent (.ok (reply a))) <$> run := by
      rw [hgenerate, Functor.map_map]
    _ = (fun _ => .ok i.dropEmptyParts) <$> run := by simp only [hextract]

/-- The intent a reply states is recovered without its empty parts, and what is recovered is
recovered again as it is. -/
theorem extract_stated [LawfulMonad m] {i : Intent} (hfree : i.FenceFree) :
    (∀ part, i.dropEmptyParts.part part = (i.part part).filter (· ≠ "")) ∧
      i.dropEmptyParts.tags = i.tags ∧
      (∀ document ∈ i.documents, Recovers m document i.dropEmptyParts) ∧
      ∀ document ∈ i.dropEmptyParts.documents, Recovers m document i.dropEmptyParts := by
  have hagain : ∀ document ∈ i.dropEmptyParts.documents,
      Recovers m document i.dropEmptyParts.dropEmptyParts :=
    recovers_documents hfree.dropEmptyParts
  rw [Intent.dropEmptyParts_dropEmptyParts] at hagain
  exact ⟨i.part_dropEmptyParts, rfl, recovers_documents hfree, hagain⟩

/-- An intent with an empty part, the name of whose service ends in backticks. -/
def cartIntent : Intent :=
  { Intent.empty with
    service := some "cart``"
    operation := some ""
    tags := ⟨[("http.route", "/cart")], List.pairwise_singleton _ _⟩ }

/-- The prose before the block ends in backticks that go on into its fence. -/
theorem extract_stated_cart :
    cartIntent.FenceFree ∧
      (Assistant.ofGenerator (m := Id)
          ⟨fun _ => .ok ("Use ``" ++ "```json\n" ++ cartIntent.toJson.pretty ++
            "\n``` or ```")⟩).extract "requests to the cart" =
        .ok { cartIntent with operation := none } := by
  have hfree : cartIntent.FenceFree := by
    refine ⟨fun part text htext => ?_, fun tag htag => ?_⟩
    · cases part <;> cases htext <;> (unfold Unfenced; decide)
    · rw [List.mem_singleton.1 htag]
      constructor <;> (unfold Unfenced; decide)
  have hprose : Unfenced "Use ``".toList := by
    unfold Unfenced
    decide
  have hstates (document : String) : States document.toList
      ("Use ``" ++ "```json\n" ++ document ++ "\n``` or ```").toList := by
    have htext : ("Use ``" ++ "```json\n" ++ document ++ "\n``` or ```").toList =
        "Use ``".toList ++ (fence ++ (['j', 's', 'o', 'n'] ++
          '\n' :: (document.toList ++ '\n' :: (fence ++ " or ```".toList)))) := by
      simp [fence, tick]
    rw [htext]
    exact .fenced hprose (.inr rfl) _
  exact ⟨hfree, (extract_stated hfree).2.2.1 _ (by simp [Intent.documents]) _ _ (pure ())
    (fun _ => _) (fun _ => hstates _) rfl⟩

end Model

end TraceSearch
