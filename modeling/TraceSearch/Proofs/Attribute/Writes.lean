import Mathlib.Data.List.Induction
import Mathlib.Data.List.Nodup
import TraceSearch.Attribute.Basic

/-!
# Attributes under writes

Attributes behave as a map that remembers when a key came in, even if a document has listed a key
twice: a run of writes adds the new keys in the order of their first write, and under a written key
the last value is found. Main fact: `ordered_map_under_writes`.
-/

namespace TraceSearch

/-- The last of the writes to a key gives it the value. -/
def LastWrite {α : Type} (writes : List (String × α)) (key : String) (value : α) : Prop :=
  ∃ before after, writes = before ++ (key, value) :: after ∧ key ∉ after.map Prod.fst

theorem lastWrite_concat_iff {α : Type} {writes : List (String × α)} {key other : String}
    {value last : α} :
    LastWrite (writes ++ [(other, last)]) key value ↔
      key = other ∧ value = last ∨ key ≠ other ∧ LastWrite writes key value := by
  constructor
  · rintro ⟨before, after, heq, hafter⟩
    cases after using List.reverseRecOn with
    | nil =>
      obtain ⟨-, hlast⟩ := List.append_inj' heq rfl
      cases hlast
      exact .inl ⟨rfl, rfl⟩
    | append_singleton after write =>
      rw [← List.cons_append, ← List.append_assoc] at heq
      obtain ⟨hfront, hlast⟩ := List.append_inj' heq rfl
      cases hlast
      rw [List.map_append, List.mem_append, not_or] at hafter
      exact .inr ⟨by simpa using hafter.2, before, after, hfront, hafter.1⟩
  · rintro (⟨rfl, rfl⟩ | ⟨hkey, before, after, rfl, hafter⟩)
    · exact ⟨writes, [], rfl, List.not_mem_nil⟩
    · refine ⟨before, after ++ [(other, last)], by simp, ?_⟩
      rw [List.map_append, List.mem_append, not_or]
      exact ⟨hafter, by simpa using hkey⟩

namespace Attributes

variable (a : Attributes) (key : String) (value : AttributeValue)
  (writes : List (String × AttributeValue))

@[grind =]
theorem get?_put (other : String) :
    (a.put key value).get? other = if other = key then some value else a.get? other := by
  split
  · rename_i h
    rw [h, get?_put_self]
  · rename_i h
    exact get?_put_of_ne h a value

@[grind =]
theorem size_eq_length_keys : a.size = a.keys.length := (List.length_map _).symm

theorem size_put : (a.put key value).size = if key ∈ a.keys then a.size else a.size + 1 := by
  grind

theorem nodup_keys_put : (a.put key value).keys.Nodup ↔ a.keys.Nodup := by
  grind

/-- Attributes after a run of writes. -/
def putAll : Attributes := writes.foldl (fun a (key, value) => a.put key value) a

theorem ofList_eq_putAll : ofList writes = empty.putAll writes := rfl

theorem putAll_cons :
    a.putAll ((key, value) :: writes) = (a.put key value).putAll writes := rfl

theorem putAll_concat :
    a.putAll (writes ++ [(key, value)]) = (a.putAll writes).put key value := by
  rw [putAll, List.foldl_append]
  rfl

theorem nodup_keys_putAll : (a.putAll writes).keys.Nodup ↔ a.keys.Nodup := by
  induction writes generalizing a with
  | nil => exact Iff.rfl
  | cons write rest ih =>
    obtain ⟨key, value⟩ := write
    rw [putAll_cons, ih, nodup_keys_put]

theorem nodup_keys_ofList : (ofList writes).keys.Nodup :=
  (nodup_keys_putAll empty writes).2 List.nodup_nil

/-- The keys of a run of writes that are new come in where they are written first. -/
theorem keys_putAll :
    (a.putAll writes).keys = a.keys ++ ((writes.map Prod.fst).removeAll a.keys).eraseDups := by
  induction writes generalizing a with
  | nil => simp [putAll]
  | cons write rest ih =>
    obtain ⟨key, value⟩ := write
    rw [putAll_cons, ih, keys_put, List.map_cons]
    by_cases hkey : key ∈ a.keys
    · rw [if_pos hkey]
      simp [List.removeAll, hkey]
    · rw [if_neg hkey]
      simp [List.removeAll, hkey, List.eraseDups_cons, List.filter_filter, Bool.and_comm,
        beq_eq_decide]

/-- What is found under a key after a run of writes: the value it was given last, or else what was
found before. -/
theorem get?_putAll_eq_some_iff :
    (a.putAll writes).get? key = some value ↔
      LastWrite writes key value ∨ key ∉ writes.map Prod.fst ∧ a.get? key = some value := by
  induction writes using List.reverseRecOn with
  | nil => simp [putAll, LastWrite]
  | append_singleton writes write ih =>
    obtain ⟨other, last⟩ := write
    rw [putAll_concat, get?_put, lastWrite_concat_iff]
    by_cases hkey : key = other
    · subst hkey
      simp [eq_comm]
    · simp [hkey, ih]

section Entries

variable {key value}

theorem mem_of_find?_eq_some {entries : List (String × AttributeValue)}
    (h : find? key entries = some value) : (key, value) ∈ entries := by
  induction entries with
  | nil => grind
  | cons entry rest ih => grind

theorem find?_of_mem {entries : List (String × AttributeValue)}
    (hkeys : (entries.map Prod.fst).Nodup) (h : (key, value) ∈ entries) :
    find? key entries = some value := by
  induction entries with
  | nil => cases h
  | cons entry rest ih =>
    obtain ⟨k, v⟩ := entry
    rw [List.map_cons, List.nodup_cons] at hkeys
    rcases List.mem_cons.1 h with heq | hmem
    · cases heq
      exact if_pos rfl
    · have hkey : key ∈ rest.map Prod.fst := List.mem_map_of_mem hmem
      have hne : k ≠ key := fun heq => hkeys.1 (heq ▸ hkey)
      rw [find?, if_neg hne, ih hkeys.2 hmem]

end Entries

/-- Distinct keys hold exactly the entries that are found under them. -/
theorem mem_entries_iff (hkeys : a.keys.Nodup) (entry : String × AttributeValue) :
    entry ∈ a.entries ↔ a.get? entry.1 = some entry.2 :=
  ⟨find?_of_mem hkeys, mem_of_find?_eq_some⟩

theorem mem_entries_ofList_iff (entry : String × AttributeValue) :
    entry ∈ (ofList writes).entries ↔ LastWrite writes entry.1 entry.2 := by
  rw [mem_entries_iff _ (nodup_keys_ofList writes), ofList_eq_putAll, get?_putAll_eq_some_iff]
  simp [get?, find?, empty]

theorem keys_ofList : (ofList writes).keys = (writes.map Prod.fst).eraseDups := by
  rw [ofList_eq_putAll, keys_putAll]
  simp [keys, empty]

/-- Attributes are a map in the order of insertion, whatever keys they started with. One write
changes what is found under its key alone, and adds the key at the end if it is new. A run of writes
adds the new keys in the order of their first writes, gives each written key its last value, and
repeats no key; so collected writes are their distinct keys in the order of their first writes, each
with its last value. -/
theorem ordered_map_under_writes (a : Attributes) (writes : List (String × AttributeValue)) :
    (∀ key value,
      (∀ other, (a.put key value).get? other = if other = key then some value else a.get? other) ∧
      (a.put key value).keys = (if key ∈ a.keys then a.keys else a.keys ++ [key]) ∧
      (a.put key value).size = if key ∈ a.keys then a.size else a.size + 1) ∧
    (a.putAll writes).keys = a.keys ++ ((writes.map Prod.fst).removeAll a.keys).eraseDups ∧
    (∀ key value, (a.putAll writes).get? key = some value ↔
      LastWrite writes key value ∨ key ∉ writes.map Prod.fst ∧ a.get? key = some value) ∧
    ((a.putAll writes).keys.Nodup ↔ a.keys.Nodup) ∧
    (ofList writes).keys = (writes.map Prod.fst).eraseDups ∧
    (ofList writes).keys.Nodup ∧
    ∀ entry, entry ∈ (ofList writes).entries ↔ LastWrite writes entry.1 entry.2 := by
  refine ⟨fun key value => ?_, a.keys_putAll writes,
    fun key value => a.get?_putAll_eq_some_iff key value writes,
    a.nodup_keys_putAll writes, keys_ofList writes, nodup_keys_ofList writes,
    mem_entries_ofList_iff writes⟩
  exact ⟨a.get?_put key value, a.keys_put key value, a.size_put key value⟩

end Attributes

end TraceSearch
