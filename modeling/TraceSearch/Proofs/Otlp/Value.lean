import TraceSearch.Otlp.Reader
import TraceSearch.Otlp.Writer
import TraceSearch.Proofs.Json.Record

/-!
# Written attribute values read back

A value whose doubles are finite is decoded from what it was encoded as, times and integers from
their digits. Main fact: `decodeValue_encodeValue`.
-/

namespace TraceSearch

/-- The finite ones of some doubles are read as they were written. -/
def RereadDoubles (xs : List Float) : Prop :=
  ∀ x ∈ xs, Decimal.isFinite x = true → (Json.Number.real x).Rereads

instance : DecidablePred RereadDoubles := fun xs =>
  inferInstanceAs (Decidable (∀ x ∈ xs, Decimal.isFinite x = true → (Json.Number.real x).Rereads))

@[simp] theorem rereadDoubles_nil : RereadDoubles [] := List.forall_mem_nil _

@[simp] theorem rereadDoubles_append {xs ys : List Float} :
    RereadDoubles (xs ++ ys) ↔ RereadDoubles xs ∧ RereadDoubles ys := List.forall_mem_append

@[simp] theorem rereadDoubles_flatMap {α : Type} {f : α → List Float} {xs : List α} :
    RereadDoubles (xs.flatMap f) ↔ ∀ x ∈ xs, RereadDoubles (f x) := List.forall_mem_flatMap

namespace AttributeValue

mutual

/-- The doubles of a value. -/
def doubles : AttributeValue → List Float
  | double x => [x]
  | array items => itemDoubles items
  | keyValues entries => entryDoubles entries
  | _ => []

def itemDoubles : List AttributeValue → List Float
  | [] => []
  | item :: rest => doubles item ++ itemDoubles rest

def entryDoubles : List (String × AttributeValue) → List Float
  | [] => []
  | (_, value) :: rest => doubles value ++ entryDoubles rest

end

section Doubles

variable {P : Float → Prop}

theorem forall_mem_array_iff {items : List AttributeValue} :
    (∀ x ∈ (array items).doubles, P x) ↔ ∀ item ∈ items, ∀ x ∈ item.doubles, P x := by
  show (∀ x ∈ itemDoubles items, P x) ↔ _
  induction items with
  | nil => simp [itemDoubles]
  | cons item rest ih => rw [itemDoubles, List.forall_mem_append, ih, List.forall_mem_cons]

theorem forall_mem_keyValues_iff {entries : List (String × AttributeValue)} :
    (∀ x ∈ (keyValues entries).doubles, P x) ↔ ∀ entry ∈ entries, ∀ x ∈ entry.2.doubles, P x := by
  show (∀ x ∈ entryDoubles entries, P x) ↔ _
  induction entries with
  | nil => simp [entryDoubles]
  | cons entry rest ih => rw [entryDoubles, List.forall_mem_append, ih, List.forall_mem_cons]

end Doubles

def Finite (v : AttributeValue) : Prop := ∀ x ∈ v.doubles, Decimal.isFinite x = true

end AttributeValue

namespace Otlp

open Json (Mismatch Numbers)
open Decimal (Range isFinite)

def encodeEntry (entry : String × AttributeValue) : Json :=
  .object [("key", .string entry.1), ("value", encodeValue entry.2)]

theorem encodeValues_eq_map (items : List AttributeValue) :
    encodeValues items = items.map encodeValue := by
  induction items with
  | nil => rfl
  | cons item rest ih => rw [encodeValues, ih, List.map_cons]

theorem encodeEntries_eq_map (entries : List (String × AttributeValue)) :
    encodeEntries entries = entries.map encodeEntry := by
  induction entries with
  | nil => rfl
  | cons entry rest ih => rw [encodeEntries, ih, List.map_cons, encodeEntry]

theorem rereads_object_one {name : String} {j : Json} (h : j.Rereads) :
    (Json.object [(name, j)]).Rereads :=
  Numbers.object (by simpa using h)

mutual

theorem rereads_encodeValue :
    ∀ v : AttributeValue, RereadDoubles v.doubles → (encodeValue v).Rereads
  | .string s, _ => rereads_object_one (Numbers.string s)
  | .bool b, _ => rereads_object_one (Numbers.bool b)
  | .int n, _ => rereads_object_one (Numbers.string _)
  | .double x, h => by
    refine rereads_object_one ?_
    unfold Json.ofFloat
    split
    · rename_i hx
      exact Numbers.number (h x List.mem_cons_self hx)
    · exact Numbers.null
  | .array items, h => by
    have hitems := rereads_encodeValues items (AttributeValue.forall_mem_array_iff.1 h)
    exact rereads_object_one (rereads_object_one (Numbers.array hitems))
  | .keyValues entries, h => by
    have hentries := rereads_encodeEntries entries (AttributeValue.forall_mem_keyValues_iff.1 h)
    exact rereads_object_one (rereads_object_one (Numbers.array hentries))
  | .bytes encoded, _ => rereads_object_one (Numbers.string encoded)

theorem rereads_encodeValues :
    ∀ items : List AttributeValue, (∀ item ∈ items, RereadDoubles item.doubles) →
      ∀ j ∈ encodeValues items, j.Rereads
  | [], _, _, h => by cases h
  | item :: rest, hitems, j, h => by
    obtain ⟨hitem, hrest⟩ := List.forall_mem_cons.1 hitems
    rcases List.mem_cons.1 h with rfl | h
    · exact rereads_encodeValue item hitem
    · exact rereads_encodeValues rest hrest j h

theorem rereads_encodeEntries :
    ∀ entries : List (String × AttributeValue), (∀ entry ∈ entries, RereadDoubles entry.2.doubles) →
      ∀ j ∈ encodeEntries entries, j.Rereads
  | [], _, _, h => by cases h
  | (key, value) :: rest, hentries, j, h => by
    obtain ⟨hentry, hrest⟩ := List.forall_mem_cons.1 hentries
    rcases List.mem_cons.1 h with rfl | h
    · have hvalue := rereads_encodeValue value hentry
      exact Numbers.object (by simpa using ⟨Numbers.string key, hvalue⟩)
    · exact rereads_encodeEntries rest hrest j h

end

theorem read_integer_iff {r : Range} {n m : Int} :
    r.read (Decimal.integer n) = .ok m ↔ r.contains n = true ∧ m = n := by
  rw [Range.read, Decimal.integer, String.toList_ofList, Decimal.readChars_integerText_iff]

theorem decodeInteger_digitsOf {r : Range} {n : Int} (h : r.contains n = true) :
    Json.decodeInteger r (digitsOf n).sorted = .ok n := by
  show (r.read (Decimal.integer n)).mapError _ = _
  rw [read_integer_iff.2 ⟨h, rfl⟩]
  rfl

theorem decodeTime_encodeTime (t : UInt64) : decodeTime (encodeTime t).sorted = .ok t := by
  have hlt := t.toNat_lt
  have hrange : Range.unsigned64.contains t.toNat = true := by
    rw [Range.unsigned64_contains_iff]
    omega
  unfold decodeTime encodeTime
  rw [decodeInteger_digitsOf hrange]
  simp [Except.map]

theorem decodeInt_digitsOf (n : Int64) : decodeInt (digitsOf n.toInt).sorted = .ok n := by
  have hlower := n.le_toInt
  have hupper := n.toInt_lt
  have hrange : Range.signed64.contains n.toInt = true := by
    rw [Range.signed64_contains_iff]
    omega
  unfold decodeInt
  rw [decodeInteger_digitsOf hrange]
  simp [Except.map]

theorem decodeFloat_ofFloat {x : Float} (h : isFinite x = true) :
    Json.decodeFloat (Json.ofFloat x).sorted = .ok x := by
  rw [Json.ofFloat, if_pos h]
  rfl

theorem decodeValue_sorted_one (name : String) (content : Json) :
    decodeValue (Json.object [(name, content)]).sorted = decodeVariant name content.sorted := by
  have hsorted : (Json.object [(name, content)]).sorted = .object [(name, content.sorted)] := by
    simp [Json.sorted, Json.sortedMembers, Json.ofMembers, Json.insertMember]
  rw [hsorted, decodeValue]

theorem sorted_values (items : List Json) :
    (Json.object [("values", .array items)]).sorted =
      .object [("values", .array (items.map Json.sorted))] := by
  simp [Json.sorted, Json.sortedMembers, Json.ofMembers, Json.insertMember]

theorem decodeArrayValue_values {listed : List Json} {items : List AttributeValue}
    (h : decodeEachValue listed = .ok items) :
    decodeArrayValue (.object [("values", .array listed)]) = .ok items := by
  simp [decodeArrayValue, decodeArrayMembers, decodeValues, h]

theorem decodeKeyValueList_values {listed : List Json} {entries : List (String × AttributeValue)}
    (h : decodeEachEntry listed = .ok entries) :
    decodeKeyValueList (.object [("values", .array listed)]) = .ok entries := by
  simp [decodeKeyValueList, decodeListMembers, decodeEntries, h]

theorem decodeEntry_sorted (key : String) {content : Json} {value : AttributeValue}
    (h : decodeValue content.sorted = .ok value) :
    decodeEntry (Json.object [("key", .string key), ("value", content)]).sorted =
      .ok (key, value) := by
  have hsorted : (Json.object [("key", .string key), ("value", content)]).sorted =
      .object [("key", .string key), ("value", content.sorted)] := by
    have hasymm : ¬"value" < "key" := by decide
    simp [Json.sorted, Json.sortedMembers, Json.ofMembers, Json.insertMember, hasymm]
  rw [hsorted]
  simp [decodeEntry, decodeEntryMembers, Json.decodeString, h, completeEntry]

mutual

/-- A value with finite doubles is decoded from what it was encoded as. -/
theorem decodeValue_encodeValue : ∀ v : AttributeValue, v.Finite →
    decodeValue (encodeValue v).sorted = .ok v
  | .string s, _ => by
    rw [encodeValue, decodeValue_sorted_one]
    simp [decodeVariant, Json.sorted, Json.decodeString, Except.map]
  | .bool b, _ => by
    rw [encodeValue, decodeValue_sorted_one]
    simp [decodeVariant, Json.sorted, Json.decodeBool, Except.map]
  | .int n, _ => by
    rw [encodeValue, decodeValue_sorted_one]
    simp [decodeVariant, decodeInt_digitsOf, Except.map]
  | .double x, h => by
    have hx : isFinite x = true := h x List.mem_cons_self
    rw [encodeValue, decodeValue_sorted_one]
    simp [decodeVariant, decodeFloat_ofFloat hx, Except.map]
  | .array items, h => by
    have hitems := decodeEachValue_encodeValues items (AttributeValue.forall_mem_array_iff.1 h)
    rw [encodeValue, decodeValue_sorted_one, sorted_values]
    simp [decodeVariant, decodeArrayValue_values hitems, Except.map]
  | .keyValues entries, h => by
    have hentries :=
      decodeEachEntry_encodeEntries entries (AttributeValue.forall_mem_keyValues_iff.1 h)
    rw [encodeValue, decodeValue_sorted_one, sorted_values]
    simp [decodeVariant, decodeKeyValueList_values hentries, Except.map]
  | .bytes encoded, _ => by
    rw [encodeValue, decodeValue_sorted_one]
    simp [decodeVariant, Json.sorted, Json.decodeString, Except.map]

theorem decodeEachValue_encodeValues : ∀ items : List AttributeValue,
    (∀ item ∈ items, item.Finite) →
    decodeEachValue ((encodeValues items).map Json.sorted) = .ok items
  | [], _ => by rw [encodeValues, List.map_nil, decodeEachValue]
  | item :: rest, h => by
    obtain ⟨hitem, hrest⟩ := List.forall_mem_cons.1 h
    have hvalue := decodeValue_encodeValue item hitem
    have hvalues := decodeEachValue_encodeValues rest hrest
    simp [encodeValues, decodeEachValue, hvalue, hvalues, Except.map]

theorem decodeEachEntry_encodeEntries : ∀ entries : List (String × AttributeValue),
    (∀ entry ∈ entries, entry.2.Finite) →
    decodeEachEntry ((encodeEntries entries).map Json.sorted) = .ok entries
  | [], _ => by rw [encodeEntries, List.map_nil, decodeEachEntry]
  | (key, value) :: rest, h => by
    obtain ⟨hvalue, hrest⟩ := List.forall_mem_cons.1 h
    have hentry := decodeEntry_sorted key (decodeValue_encodeValue value hvalue)
    have hentries := decodeEachEntry_encodeEntries rest hrest
    simp [encodeEntries, decodeEachEntry, hentry, hentries, Except.map]

end

end Otlp

end TraceSearch
