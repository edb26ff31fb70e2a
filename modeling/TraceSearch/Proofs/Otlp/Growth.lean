import TraceSearch.Proofs.Otlp.Value

/-!
# How encoding grows what was decoded

A value that was decoded holds finite doubles, and what it is encoded as opens at most one bracket
more than what it was decoded from: a list that may be left out is written out. Main fact:
`kept_of_decodeValue`.
-/

namespace TraceSearch

namespace Json

theorem nesting_lt_of_mem_parts {j part : Json} (h : part ∈ j.parts) :
    part.nesting < j.nesting := by
  cases j with
  | array items => exact Nat.lt_succ_of_le (itemsNesting_le_iff.1 (Nat.le_refl _) part h)
  | object members =>
    obtain ⟨member, hm, rfl⟩ := List.mem_map.1 h
    exact Nat.lt_succ_of_le (membersNesting_le_iff.1 (Nat.le_refl _) member hm)
  | _ => cases h

theorem stable_of_mem_parts {j part : Json} (hj : j.Stable) (h : part ∈ j.parts) :
    part.Stable := by
  cases hj with
  | array hitems => exact hitems part h
  | object hmembers =>
    obtain ⟨member, hm, rfl⟩ := List.mem_map.1 h
    exact hmembers member hm
  | _ => cases h

end Json

namespace Otlp

open Json (Mismatch Stable)
open Decimal (Range isFinite)

section Parts

variable {P : AttributeValue → Prop}

theorem forall_of_decodeEachValue {items : List Json}
    (hitem : ∀ item ∈ items, ∀ v, decodeValue item = .ok v → P v) {values : List AttributeValue}
    (h : decodeEachValue items = .ok values) : ∀ v ∈ values, P v := by
  induction items generalizing values with
  | nil =>
    rw [decodeEachValue] at h
    cases h
    simp
  | cons item rest ih =>
    rw [decodeEachValue] at h
    split at h
    · contradiction
    · rename_i v hv
      obtain ⟨vs, hvs, rfl⟩ := Json.map_eq_ok_iff.1 h
      obtain ⟨hfirst, hrest⟩ := List.forall_mem_cons.1 hitem
      exact List.forall_mem_cons.2 ⟨hfirst v hv, ih hrest hvs⟩

theorem forall_of_decodeValues {j : Json}
    (hitem : ∀ item ∈ j.parts, ∀ v, decodeValue item = .ok v → P v) {values : List AttributeValue}
    (h : decodeValues j = .ok values) : ∀ v ∈ values, P v := by
  unfold decodeValues at h
  split at h
  · exact forall_of_decodeEachValue hitem h
  · contradiction

theorem forall_of_decodeArrayMembers {members : List (String × Json)}
    (hitem : ∀ listed ∈ members.map Prod.snd, ∀ item ∈ listed.parts, ∀ v,
      decodeValue item = .ok v → P v)
    {before values : List AttributeValue} (hbefore : ∀ v ∈ before, P v)
    (h : decodeArrayMembers before members = .ok values) : ∀ v ∈ values, P v := by
  induction members generalizing before with
  | nil =>
    rw [decodeArrayMembers] at h
    cases h
    exact hbefore
  | cons member rest ih =>
    obtain ⟨name, listed⟩ := member
    obtain ⟨hlisted, hrest⟩ := List.forall_mem_cons.1 hitem
    rw [decodeArrayMembers] at h
    split at h
    · split at h
      · contradiction
      · rename_i vs hvs
        exact ih hrest (forall_of_decodeValues hlisted hvs) h
    · exact ih hrest hbefore h

theorem forall_of_decodeArrayValue {j : Json}
    (hitem : ∀ listed ∈ j.parts, ∀ item ∈ listed.parts, ∀ v, decodeValue item = .ok v → P v)
    {values : List AttributeValue} (h : decodeArrayValue j = .ok values) :
    0 < j.nesting ∧ ∀ v ∈ values, P v := by
  unfold decodeArrayValue at h
  split at h
  · exact ⟨Nat.succ_pos _, forall_of_decodeArrayMembers hitem (by simp) h⟩
  · cases h
    exact ⟨Nat.succ_pos _, by simp⟩
  · rename_i listed
    exact ⟨Nat.succ_pos _, forall_of_decodeValues (hitem listed List.mem_cons_self) h⟩
  · split at h <;> contradiction
  · contradiction

theorem forall_of_decodeEntryMembers {members : List (String × Json)}
    (hpart : ∀ part ∈ members.map Prod.snd, ∀ v, decodeValue part = .ok v → P v)
    {key : Option String} {value : Option AttributeValue} (hvalue : ∀ v ∈ value, P v)
    {entry : String × AttributeValue} (h : decodeEntryMembers key value members = .ok entry) :
    P entry.2 := by
  induction members generalizing key value with
  | nil =>
    rw [decodeEntryMembers] at h
    unfold completeEntry at h
    split at h
    · contradiction
    · contradiction
    · cases h
      exact hvalue _ rfl
  | cons member rest ih =>
    obtain ⟨name, part⟩ := member
    obtain ⟨hfirst, hrest⟩ := List.forall_mem_cons.1 hpart
    rw [decodeEntryMembers] at h
    split at h
    · split at h
      · contradiction
      · exact ih hrest hvalue h
    · split at h
      · split at h
        · contradiction
        · rename_i v hv
          refine ih hrest (fun w hw => ?_) h
          cases hw
          exact hfirst v hv
      · exact ih hrest hvalue h

theorem forall_of_decodeEntry {j : Json}
    (hpart : ∀ part ∈ j.parts, ∀ v, decodeValue part = .ok v → P v)
    {entry : String × AttributeValue} (h : decodeEntry j = .ok entry) : P entry.2 := by
  unfold decodeEntry at h
  split at h
  · exact forall_of_decodeEntryMembers hpart (by simp) h
  · contradiction
  · split at h <;> contradiction
  · rename_i key value items
    split at h
    · contradiction
    · contradiction
    · rename_i v hkey hv
      split at h
      · cases h
        exact hpart value (List.mem_cons_of_mem _ List.mem_cons_self) v hv
      · contradiction
  · contradiction

theorem forall_of_decodeEachEntry {items : List Json}
    (hpart : ∀ item ∈ items, ∀ part ∈ item.parts, ∀ v, decodeValue part = .ok v → P v)
    {entries : List (String × AttributeValue)} (h : decodeEachEntry items = .ok entries) :
    ∀ entry ∈ entries, P entry.2 := by
  induction items generalizing entries with
  | nil =>
    rw [decodeEachEntry] at h
    cases h
    simp
  | cons item rest ih =>
    rw [decodeEachEntry] at h
    split at h
    · contradiction
    · rename_i entry hentry
      obtain ⟨es, hes, rfl⟩ := Json.map_eq_ok_iff.1 h
      obtain ⟨hfirst, hrest⟩ := List.forall_mem_cons.1 hpart
      exact List.forall_mem_cons.2 ⟨forall_of_decodeEntry hfirst hentry, ih hrest hes⟩

theorem forall_of_decodeEntries {j : Json}
    (hpart : ∀ item ∈ j.parts, ∀ part ∈ item.parts, ∀ v, decodeValue part = .ok v → P v)
    {entries : List (String × AttributeValue)} (h : decodeEntries j = .ok entries) :
    0 < j.nesting ∧ ∀ entry ∈ entries, P entry.2 := by
  unfold decodeEntries at h
  split at h
  · exact ⟨Nat.succ_pos _, forall_of_decodeEachEntry hpart h⟩
  · contradiction

theorem forall_of_decodeListMembers {members : List (String × Json)}
    (hpart : ∀ listed ∈ members.map Prod.snd, ∀ item ∈ listed.parts, ∀ part ∈ item.parts, ∀ v,
      decodeValue part = .ok v → P v)
    {before entries : List (String × AttributeValue)} (hbefore : ∀ entry ∈ before, P entry.2)
    (h : decodeListMembers before members = .ok entries) : ∀ entry ∈ entries, P entry.2 := by
  induction members generalizing before with
  | nil =>
    rw [decodeListMembers] at h
    cases h
    exact hbefore
  | cons member rest ih =>
    obtain ⟨name, listed⟩ := member
    obtain ⟨hlisted, hrest⟩ := List.forall_mem_cons.1 hpart
    rw [decodeListMembers] at h
    split at h
    · split at h
      · contradiction
      · rename_i es hes
        exact ih hrest (forall_of_decodeEntries hlisted hes).2 h
    · exact ih hrest hbefore h

theorem forall_of_decodeKeyValueList {j : Json}
    (hpart : ∀ listed ∈ j.parts, ∀ item ∈ listed.parts, ∀ part ∈ item.parts, ∀ v,
      decodeValue part = .ok v → P v)
    {entries : List (String × AttributeValue)} (h : decodeKeyValueList j = .ok entries) :
    0 < j.nesting ∧ ∀ entry ∈ entries, P entry.2 := by
  unfold decodeKeyValueList at h
  split at h
  · exact ⟨Nat.succ_pos _, forall_of_decodeListMembers hpart (by simp) h⟩
  · cases h
    exact ⟨Nat.succ_pos _, by simp⟩
  · rename_i listed
    exact ⟨Nat.succ_pos _, (forall_of_decodeEntries (hpart listed List.mem_cons_self) h).2⟩
  · split at h <;> contradiction
  · contradiction

end Parts

theorem nesting_encodeArray_le_iff {items : List AttributeValue} {n : Nat} :
    (encodeValue (.array items)).nesting ≤ n + 3 ↔
      ∀ item ∈ items, (encodeValue item).nesting ≤ n := by
  have hnesting : (encodeValue (.array items)).nesting =
      Json.itemsNesting (items.map encodeValue) + 3 := by
    simp [encodeValue, Json.nesting, Json.membersNesting, encodeValues_eq_map]
  rw [hnesting, Nat.add_le_add_iff_right, Json.itemsNesting_le_iff, List.forall_mem_map]

theorem nesting_encodeEntries_le_iff {entries : List (String × AttributeValue)} {n : Nat} :
    (Json.array (encodeEntries entries)).nesting ≤ n + 1 ↔
      ∀ entry ∈ entries, (encodeValue entry.2).nesting + 1 ≤ n := by
  have hentry (entry : String × AttributeValue) :
      (encodeEntry entry).nesting = (encodeValue entry.2).nesting + 1 := by
    simp [encodeEntry, Json.nesting, Json.membersNesting]
  rw [Json.nesting, Nat.add_le_add_iff_right, encodeEntries_eq_map, Json.itemsNesting_le_iff,
    List.forall_mem_map]
  simp only [hentry]

@[simp] theorem nesting_encodeKeyValues (entries : List (String × AttributeValue)) :
    (encodeValue (.keyValues entries)).nesting =
      (Json.array (encodeEntries entries)).nesting + 2 := by
  simp [encodeValue, Json.nesting, Json.membersNesting]

/-- Finite doubles, written within a number of brackets. -/
def Kept (n : Nat) (doubles : List Float) (written : Json) : Prop :=
  (∀ x ∈ doubles, isFinite x = true) ∧ written.nesting ≤ n

theorem Kept.mono {m n : Nat} {doubles : List Float} {written : Json} (h : Kept m doubles written)
    (hle : m ≤ n) : Kept n doubles written :=
  ⟨h.1, Nat.le_trans h.2 hle⟩

theorem isFinite_of_decodeFloat {j : Json} (hj : j.Stable) {x : Float}
    (h : Json.decodeFloat j = .ok x) : isFinite x = true := by
  unfold Json.decodeFloat at h
  split at h
  · rename_i n
    cases h
    cases hj with
    | number hn =>
      have hrange : (-9223372036854775808 : Int) ≤ n ∧ n ≤ 18446744073709551615 := hn
      exact Decimal.isFinite_floatOfInt (by omega)
  · cases h
    cases hj with
    | number hx => exact hx
  · contradiction

theorem kept_array {items : List AttributeValue} {n : Nat}
    (h : ∀ item ∈ items, Kept n item.doubles (encodeValue item)) :
    Kept (n + 3) (AttributeValue.array items).doubles (encodeValue (.array items)) :=
  ⟨AttributeValue.forall_mem_array_iff.2 fun item hi => (h item hi).1,
    nesting_encodeArray_le_iff.2 fun item hi => (h item hi).2⟩

theorem kept_keyValues {entries : List (String × AttributeValue)} {n : Nat}
    (h : ∀ entry ∈ entries, entry.2.Finite ∧ (encodeValue entry.2).nesting + 1 ≤ n) :
    Kept (n + 3) (AttributeValue.keyValues entries).doubles (encodeValue (.keyValues entries)) := by
  refine ⟨AttributeValue.forall_mem_keyValues_iff.2 fun entry he => (h entry he).1, ?_⟩
  rw [nesting_encodeKeyValues, Nat.add_le_add_iff_right (n := 2), nesting_encodeEntries_le_iff]
  exact fun entry he => (h entry he).2

theorem kept_scalar {v : AttributeValue} (hdoubles : v.doubles = [])
    (hnesting : (encodeValue v).nesting = 1) (n : Nat) :
    Kept (n + 1) v.doubles (encodeValue v) := by
  refine ⟨?_, by omega⟩
  simp [hdoubles]

/-- The values below the content of a variant decide how the variant is encoded. -/
theorem kept_of_decodeVariant {name : String} {content : Json} (hcontent : content.Stable)
    (hvalue : ∀ j : Json, j.Stable → j.nesting < content.nesting → ∀ v, decodeValue j = .ok v →
      Kept (j.nesting + 1) v.doubles (encodeValue v))
    {v : AttributeValue} (h : decodeVariant name content = .ok v) :
    Kept (content.nesting + 2) v.doubles (encodeValue v) := by
  unfold decodeVariant at h
  split at h
  · obtain ⟨s, -, rfl⟩ := Json.map_eq_ok_iff.1 h
    exact kept_scalar rfl rfl _
  split at h
  · obtain ⟨b, -, rfl⟩ := Json.map_eq_ok_iff.1 h
    exact kept_scalar rfl rfl _
  split at h
  · obtain ⟨n, -, rfl⟩ := Json.map_eq_ok_iff.1 h
    exact kept_scalar rfl rfl _
  split at h
  · obtain ⟨x, hx, rfl⟩ := Json.map_eq_ok_iff.1 h
    have hfinite := isFinite_of_decodeFloat hcontent hx
    refine ⟨by simpa [AttributeValue.doubles] using hfinite, ?_⟩
    have hnesting : (encodeValue (.double x)).nesting = 1 := by
      simp [encodeValue, Json.ofFloat, hfinite, Json.nesting, Json.membersNesting]
    omega
  split at h
  · obtain ⟨items, hitems, rfl⟩ := Json.map_eq_ok_iff.1 h
    have hitem : ∀ listed ∈ content.parts, ∀ item ∈ listed.parts, ∀ v, decodeValue item = .ok v →
        Kept (content.nesting - 1) v.doubles (encodeValue v) := by
      intro listed hlisted item hitem v hv
      have hlt := Json.nesting_lt_of_mem_parts hlisted
      have hlt' := Json.nesting_lt_of_mem_parts hitem
      have hstable := Json.stable_of_mem_parts (Json.stable_of_mem_parts hcontent hlisted) hitem
      exact (hvalue item hstable (by omega) v hv).mono (by omega)
    obtain ⟨hpos, hkept⟩ := forall_of_decodeArrayValue hitem hitems
    have hsum : content.nesting - 1 + 3 = content.nesting + 2 := by omega
    exact hsum ▸ kept_array hkept
  split at h
  · obtain ⟨entries, hentries, rfl⟩ := Json.map_eq_ok_iff.1 h
    have hpart : ∀ listed ∈ content.parts, ∀ item ∈ listed.parts, ∀ part ∈ item.parts, ∀ v,
        decodeValue part = .ok v →
          v.Finite ∧ (encodeValue v).nesting + 1 ≤ content.nesting - 1 := by
      intro listed hlisted item hitem part hpart v hv
      have hlt := Json.nesting_lt_of_mem_parts hlisted
      have hlt' := Json.nesting_lt_of_mem_parts hitem
      have hlt'' := Json.nesting_lt_of_mem_parts hpart
      have hstable := Json.stable_of_mem_parts
        (Json.stable_of_mem_parts (Json.stable_of_mem_parts hcontent hlisted) hitem) hpart
      obtain ⟨hfinite, hnesting⟩ := hvalue part hstable (by omega) v hv
      exact ⟨hfinite, by omega⟩
    obtain ⟨hpos, hkept⟩ := forall_of_decodeKeyValueList hpart hentries
    have hsum : content.nesting - 1 + 3 = content.nesting + 2 := by omega
    exact hsum ▸ kept_keyValues hkept
  split at h
  · obtain ⟨encoded, -, rfl⟩ := Json.map_eq_ok_iff.1 h
    exact kept_scalar rfl rfl _
  · contradiction

/-- A value that was decoded is encoded with at most one bracket more. -/
theorem kept_of_decodeValue {j : Json} (hj : j.Stable) {v : AttributeValue}
    (h : decodeValue j = .ok v) : Kept (j.nesting + 1) v.doubles (encodeValue v) := by
  -- on the brackets of the value, since the values of a list stand several levels below it
  induction hn : j.nesting using Nat.strongRecOn generalizing j v with
  | ind n ih =>
    unfold decodeValue at h
    split at h
    · rename_i name content
      have hcontent : content.Stable :=
        Json.stable_of_mem_parts hj (show content ∈ [content] from List.mem_cons_self)
      have hnesting : content.nesting + 1 = n := by
        simpa [Json.nesting, Json.membersNesting] using hn
      have hkept := kept_of_decodeVariant hcontent
        (fun item hitem hlt w hw => ih item.nesting (by omega) hitem hw rfl) h
      rw [← hnesting]
      exact hkept
    · contradiction
    · split at h <;> contradiction
    · contradiction

end Otlp

end TraceSearch
