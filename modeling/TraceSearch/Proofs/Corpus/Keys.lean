import Mathlib.Logic.Relation
import TraceSearch.Proofs.Attribute.Writes
import TraceSearch.Proofs.Corpus.Reload

/-!
# Keys of loaded attributes

Attributes are kept as a document lists them, so a key that is listed twice is loaded twice, and no
later write takes the second one away. Collecting writes anew gives distinct keys. Main facts:
`Attributes.nodup_keys_edited` for a run of writes, and `keys_of_parse` for attributes that were
loaded and then written to.
-/

namespace TraceSearch

namespace Attributes

/-- A change of attributes; collecting starts from none. -/
inductive Edit where
  | put (key : String) (value : AttributeValue)
  | putString (key value : String)
  | collect (writes : List (String × AttributeValue))

def Edit.apply (a : Attributes) : Edit → Attributes
  | put key value => a.put key value
  | putString key value => a.putString key value
  | collect writes => ofList writes

def edited (a : Attributes) (edits : List Edit) : Attributes := edits.foldl Edit.apply a

/-- One change makes keys distinct only by collecting, and never repeats one. -/
theorem Edit.nodup_keys_apply (a : Attributes) (edit : Edit) :
    (edit.apply a).keys.Nodup ↔ (∃ writes, edit = collect writes) ∨ a.keys.Nodup := by
  cases edit with
  | put key value => simpa [apply] using nodup_keys_put a key value
  | putString key value =>
    have hput : (a.putString key value).keys.Nodup ↔ a.keys.Nodup := nodup_keys_put a key _
    simpa [apply] using hput
  | collect writes => simpa [apply] using nodup_keys_ofList writes

theorem nodup_keys_edited (a : Attributes) (edits : List Edit) :
    (a.edited edits).keys.Nodup ↔ (∃ writes, .collect writes ∈ edits) ∨ a.keys.Nodup := by
  induction edits generalizing a with
  | nil => simp [edited]
  | cons edit rest ih =>
    have hrest : (a.edited (edit :: rest)).keys.Nodup ↔ (∃ writes, .collect writes ∈ rest) ∨
        (∃ writes, edit = .collect writes) ∨ a.keys.Nodup := by
      rw [← Edit.nodup_keys_apply]
      exact ih (edit.apply a)
    simp only [hrest, List.mem_cons, exists_or, eq_comm, or_assoc, or_left_comm]

end Attributes

/-- The attributes of a span and of its events. -/
def Span.attributeSets (s : Span) : List Attributes := s.attributes :: s.events.map Event.attributes

def ScopeSpans.attributeSets (s : ScopeSpans) : List Attributes :=
  s.spans.flatMap Span.attributeSets

def ResourceSpans.attributeSets (r : ResourceSpans) : List Attributes :=
  r.resource.attributes :: r.scopes.flatMap ScopeSpans.attributeSets

/-- All attributes that a trace holds: of its resources, spans and events. -/
def Trace.attributeSets (t : Trace) : List Attributes :=
  t.resources.flatMap ResourceSpans.attributeSets

namespace Json

/-- A value that stands somewhere inside another. -/
def Within : Json → Json → Prop := Relation.TransGen fun part whole => part ∈ whole.parts

def string? : Json → Option String
  | string s => some s
  | _ => none

theorem string?_of_decodeString {j : Json} {s : String} (h : decodeString j = .ok s) :
    j.string? = some s := by
  unfold decodeString at h
  split at h
  · cases h
    rfl
  · contradiction

theorem lookup_append (name : String) (members others : List (String × Json)) :
    lookup name (members ++ others) = (lookup name members).or (lookup name others) := by
  induction members with
  | nil => grind
  | cons member rest ih => grind

end Json

namespace Otlp

open Json (Mismatch RecordField)

variable {j part : Json}

/-- The key an entry of a list states: its last member `key`, or its first element. -/
def statedKey? : Json → Option String
  | .object members => (Json.lookup "key" members.reverse).bind Json.string?
  | .array (key :: _) => key.string?
  | _ => none

theorem key_of_decodeEntryMembers {members : List (String × Json)} {key : Option String}
    {value : Option AttributeValue} {entry : String × AttributeValue}
    (h : decodeEntryMembers key value members = .ok entry) :
    (Json.lookup "key" members.reverse).elim key Json.string? = some entry.1 := by
  -- on the members from the front, the key stated before them general
  induction members generalizing key value with
  | nil =>
    rw [decodeEntryMembers] at h
    unfold completeEntry at h
    split at h
    · contradiction
    · contradiction
    · cases h
      rfl
  | cons member rest ih =>
    obtain ⟨name, content⟩ := member
    rw [List.reverse_cons, Json.lookup_append]
    rw [decodeEntryMembers] at h
    split at h
    · rename_i hname
      split at h
      · contradiction
      · rename_i k hk
        have hcontent := Json.string?_of_decodeString hk
        have hrest := ih h
        cases hlookup : Json.lookup "key" rest.reverse with
        | none => simpa [hlookup, Json.lookup, hname, hcontent] using hrest
        | some last => simpa [hlookup] using hrest
    · rename_i hname
      have hother : Json.lookup "key" [(name, content)] = none := by
        rw [Json.lookup, if_neg hname, Json.lookup]
      rw [hother, Option.or_none]
      split at h
      · split at h
        · contradiction
        · exact ih h
      · exact ih h

theorem statedKey?_of_decodeEntry {entry : String × AttributeValue}
    (h : decodeEntry j = .ok entry) : statedKey? j = some entry.1 := by
  unfold decodeEntry at h
  split at h
  · have hkey := key_of_decodeEntryMembers h
    rename_i members
    rw [statedKey?]
    cases hlookup : Json.lookup "key" members.reverse with
    | none => simp [hlookup] at hkey
    | some last => simpa [hlookup] using hkey
  · contradiction
  · split at h <;> contradiction
  · split at h
    · contradiction
    · contradiction
    · rename_i hkey _
      split at h
      · cases h
        exact Json.string?_of_decodeString hkey
      · contradiction
  · contradiction

theorem statedKey?_of_decodeEachEntry {items : List Json} {entries : List (String × AttributeValue)}
    (h : decodeEachEntry items = .ok entries) :
    entries.map (some ∘ Prod.fst) = items.map statedKey? := by
  induction items generalizing entries with
  | nil =>
    rw [decodeEachEntry] at h
    cases h
    rfl
  | cons item rest ih =>
    rw [decodeEachEntry] at h
    split at h
    · contradiction
    · rename_i entry hentry
      obtain ⟨es, hes, rfl⟩ := Json.map_eq_ok_iff.1 h
      rw [List.map_cons, List.map_cons, ih hes, statedKey?_of_decodeEntry hentry]
      rfl

/-- Attributes with the keys that a list in a document states, or with none. -/
def Listed (j : Json) (a : Attributes) : Prop :=
  ∃ items : List Json, (items = [] ∨ (Json.array items).Within j) ∧
    a.keys.map some = items.map statedKey?

theorem listed_default : Listed j default := ⟨[], .inl rfl, rfl⟩

theorem Listed.within {a : Attributes} (h : Listed part a) (hpart : part.Within j) :
    Listed j a := by
  obtain ⟨items, hitems, hkeys⟩ := h
  exact ⟨items, hitems.imp_right fun hwithin => hwithin.trans hpart, hkeys⟩

theorem listed_of_attributesField (hpart : part ∈ j.parts) {a : Attributes}
    (h : decodeAttributes part = .ok a) : Listed j a := by
  obtain ⟨entries, hentries, rfl⟩ := Json.map_eq_ok_iff.1 h
  unfold decodeEntries at hentries
  split at hentries
  · rename_i items
    refine ⟨items, .inr (.single hpart), ?_⟩
    rw [← statedKey?_of_decodeEachEntry hentries, Attributes.keys, List.map_map]
  · contradiction

/-- A record that is listed in a field of another stands inside it. -/
theorem within_of_mem_decodeArray {α : Type} {decode : Json → Except Mismatch α}
    (hpart : part ∈ j.parts) {xs : List α} (h : Json.decodeArray decode part = .ok xs) {x : α}
    (hx : x ∈ xs) : ∃ item : Json, item.Within j ∧ decode item = .ok x := by
  obtain ⟨item, hitem, hdecoded⟩ := Json.mem_decodeArray h x hx
  exact ⟨item, .tail (.single hitem) hpart, hdecoded⟩

theorem listed_of_decodeEvent {e : Event} (h : decodeEvent j = .ok e) : Listed j e.attributes := by
  have hset : ∀ field ∈ eventFields, field.Keeps (fun e => Listed j e.attributes) j.parts := by
    simp only [eventFields, List.forall_mem_cons]
    refine ⟨?_, ?_, ?attributes, List.forall_mem_nil _⟩
    case attributes =>
      exact RecordField.keeps_of fun part hpart a ha e _ => listed_of_attributesField hpart ha
    all_goals exact RecordField.keeps_other fun e x he => he
  exact Json.decodeRecord_invariant hset listed_default h

theorem listed_of_decodeSpan {s : Span} (h : decodeSpan j = .ok s) :
    ∀ a ∈ s.attributeSets, Listed j a := by
  have hset : ∀ field ∈ spanFields, field.Keeps
      (fun s => ∀ a ∈ s.attributeSets, Listed j a) j.parts := by
    simp only [spanFields, List.forall_mem_cons, Span.attributeSets]
    refine ⟨?_, ?_, ?_, ?_, ?_, ?_, ?_, ?attributes, ?events, ?_, List.forall_mem_nil _⟩
    case attributes =>
      exact RecordField.keeps_of fun part hpart a ha s hs =>
        ⟨listed_of_attributesField hpart ha, hs.2⟩
    case events =>
      refine RecordField.keeps_of fun part hpart events hevents s hs => ⟨hs.1, ?_⟩
      refine List.forall_mem_map.2 fun e he => ?_
      obtain ⟨item, hwithin, hdecoded⟩ := within_of_mem_decodeArray hpart hevents he
      exact (listed_of_decodeEvent hdecoded).within hwithin
    all_goals exact RecordField.keeps_other fun s x hs => hs
  have hdefault : ∀ a ∈ (default : Span).attributeSets, Listed j a :=
    List.forall_mem_singleton.2 listed_default
  exact Json.decodeRecord_invariant hset hdefault h

theorem listed_of_decodeScopeSpans {s : ScopeSpans} (h : decodeScopeSpans j = .ok s) :
    ∀ a ∈ s.attributeSets, Listed j a := by
  have hset : ∀ field ∈ scopeSpansFields, field.Keeps
      (fun s => ∀ a ∈ s.attributeSets, Listed j a) j.parts := by
    simp only [scopeSpansFields, List.forall_mem_cons]
    refine ⟨RecordField.keeps_other fun s x hs => hs, ?spans, List.forall_mem_nil _⟩
    case spans =>
      refine RecordField.keeps_of fun part hpart spans hspans s _ => ?_
      refine List.forall_mem_flatMap.2 fun span hspan => ?_
      obtain ⟨item, hwithin, hdecoded⟩ := within_of_mem_decodeArray hpart hspans hspan
      exact fun a ha => (listed_of_decodeSpan hdecoded a ha).within hwithin
  exact Json.decodeRecord_invariant hset (List.forall_mem_nil _) h

theorem listed_of_decodeResource {r : Resource} (h : decodeResource j = .ok r) :
    Listed j r.attributes := by
  have hset : ∀ field ∈ resourceFields, field.Keeps (fun r => Listed j r.attributes) j.parts := by
    rw [resourceFields, List.forall_mem_singleton]
    exact RecordField.keeps_of fun part hpart a ha r _ => listed_of_attributesField hpart ha
  exact Json.decodeRecord_invariant hset listed_default h

theorem listed_of_decodeResourceSpans {r : ResourceSpans} (h : decodeResourceSpans j = .ok r) :
    ∀ a ∈ r.attributeSets, Listed j a := by
  have hset : ∀ field ∈ resourceSpansFields, field.Keeps
      (fun r => ∀ a ∈ r.attributeSets, Listed j a) j.parts := by
    simp only [resourceSpansFields, List.forall_mem_cons, ResourceSpans.attributeSets]
    refine ⟨?resource, ?scopes, List.forall_mem_nil _⟩
    case resource =>
      exact RecordField.keeps_of fun part hpart resource hresource r hr =>
        ⟨(listed_of_decodeResource hresource).within (.single hpart), hr.2⟩
    case scopes =>
      refine RecordField.keeps_of fun part hpart scopes hscopes r hr => ⟨hr.1, ?_⟩
      refine List.forall_mem_flatMap.2 fun scope hscope => ?_
      obtain ⟨item, hwithin, hdecoded⟩ := within_of_mem_decodeArray hpart hscopes hscope
      exact fun a ha => (listed_of_decodeScopeSpans hdecoded a ha).within hwithin
  have hdefault : ∀ a ∈ (default : ResourceSpans).attributeSets, Listed j a :=
    List.forall_mem_singleton.2 listed_default
  exact Json.decodeRecord_invariant hset hdefault h

theorem listed_of_decodeTrace {t : Trace} (h : decodeTrace j = .ok t) :
    ∀ a ∈ t.attributeSets, Listed j a := by
  have hset : ∀ field ∈ traceFields, field.Keeps
      (fun t => ∀ a ∈ t.attributeSets, Listed j a) j.parts := by
    rw [traceFields, List.forall_mem_singleton]
    refine RecordField.keeps_of fun part hpart resources hresources t _ => ?_
    refine List.forall_mem_flatMap.2 fun r hr => ?_
    obtain ⟨item, hwithin, hdecoded⟩ := within_of_mem_decodeArray hpart hresources hr
    exact fun a ha => (listed_of_decodeResourceSpans hdecoded a ha).within hwithin
  exact Json.decodeRecord_invariant hset (List.forall_mem_nil _) h

end Otlp

namespace Corpus

/-- Attributes of a loaded corpus have the keys that one list of its text states, each as often as
it is listed. Whatever is written to them later, their keys are distinct exactly if that list states
distinct keys or they were collected anew. -/
theorem keys_of_parse {text : String} {traces : List Trace} (h : parse text = .ok traces)
    {t : Trace} (ht : t ∈ traces) {a : Attributes} (ha : a ∈ t.attributeSets) :
    ∃ documents items, readDocuments text = .ok documents ∧
      (items = [] ∨ ∃ d ∈ documents, (Json.array items).Within d) ∧
      a.keys.map some = items.map Otlp.statedKey? ∧
      ∀ edits, (a.edited edits).keys.Nodup ↔
        (∃ writes, .collect writes ∈ edits) ∨ (items.map Otlp.statedKey?).Nodup := by
  obtain ⟨documents, hread, hdecode⟩ := parse_eq_ok_iff.1 h
  obtain ⟨d, hd, hdecoded⟩ := mem_decodeFrom hdecode t ht
  obtain ⟨items, hitems, hkeys⟩ := Otlp.listed_of_decodeTrace hdecoded a ha
  refine ⟨documents, items, hread, hitems.imp_right fun hwithin => ⟨d, hd, hwithin⟩, hkeys, ?_⟩
  intro edits
  have hsome : a.keys.Nodup ↔ (items.map Otlp.statedKey?).Nodup := by
    rw [← hkeys, List.nodup_map_iff (Option.some_injective _)]
  rw [Attributes.nodup_keys_edited, hsome]

/-- A span that states a key twice. -/
def repeatedKeyText : String :=
  "[\x7b\"resourceSpans\":[\x7b\"scopeSpans\":[\x7b\"spans\":[\x7b\"attributes\":[" ++
    "\x7b\"key\":\"k\",\"value\":\x7b\"stringValue\":\"a\"\x7d\x7d," ++
    "\x7b\"key\":\"k\",\"value\":\x7b\"stringValue\":\"b\"\x7d\x7d]\x7d]\x7d]\x7d]\x7d]"

def repeatedKeys : Attributes := ⟨[("k", .string "a"), ("k", .string "b")]⟩

def repeatedKeyTrace : Trace :=
  ⟨[⟨default, [⟨default, [{ (default : Span) with attributes := repeatedKeys }]⟩]⟩]⟩

theorem parse_repeatedKeyText : parse repeatedKeyText = .ok [repeatedKeyTrace] := by cbv

theorem keys_of_parse_repeated :
    parse repeatedKeyText = .ok [repeatedKeyTrace] ∧
      repeatedKeys ∈ repeatedKeyTrace.attributeSets ∧
      ∃ documents items, readDocuments repeatedKeyText = .ok documents ∧
        (items = [] ∨ ∃ d ∈ documents, (Json.array items).Within d) ∧
        repeatedKeys.keys.map some = items.map Otlp.statedKey? ∧
        ∀ edits, (repeatedKeys.edited edits).keys.Nodup ↔
          (∃ writes, .collect writes ∈ edits) ∨ (items.map Otlp.statedKey?).Nodup := by
  have hmem : repeatedKeys ∈ repeatedKeyTrace.attributeSets :=
    List.mem_cons_of_mem _ List.mem_cons_self
  exact ⟨parse_repeatedKeyText, hmem, keys_of_parse parse_repeatedKeyText List.mem_cons_self hmem⟩

/-- A corpus that is loaded with a key repeated, which a write to the key does not mend: the second
value stays. -/
theorem loaded_keys_not_distinct :
    parse repeatedKeyText = .ok [repeatedKeyTrace] ∧
      ∃ a ∈ repeatedKeyTrace.attributeSets, ¬ a.keys.Nodup ∧
        a.edited [.put "k" (.string "c")] = ⟨[("k", .string "c"), ("k", .string "b")]⟩ := by
  have hmem : repeatedKeys ∈ repeatedKeyTrace.attributeSets :=
    List.mem_cons_of_mem _ List.mem_cons_self
  exact ⟨parse_repeatedKeyText, repeatedKeys, hmem, by decide, rfl⟩

end Corpus

end TraceSearch
