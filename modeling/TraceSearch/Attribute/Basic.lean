import TraceSearch.Attribute.Value

/-!
# Attributes

A list of keyed values in order of insertion. Writing replaces the first value of a key in place or
adds the key at the end. Main facts: writing a key changes what is found under that key alone, and
the keys stay in their order.

Source: `Attributes::get`, `Attributes::get_str`, `Attributes::put` and `Attributes::put_str`.
-/

namespace TraceSearch

/-- An ordered list of keyed values. -/
structure Attributes where
  entries : List (String × AttributeValue)
deriving BEq, Inhabited

namespace Attributes

def empty : Attributes := ⟨[]⟩

def size (a : Attributes) : Nat := a.entries.length

def isEmpty (a : Attributes) : Bool := a.entries.isEmpty

def keys (a : Attributes) : List String := a.entries.map Prod.fst

/-- The first value of a key among entries. -/
@[grind =]
def find? (key : String) : List (String × AttributeValue) → Option AttributeValue
  | [] => none
  | (k, v) :: rest => if k = key then some v else find? key rest

def get? (a : Attributes) (key : String) : Option AttributeValue := find? key a.entries

/-- The value under a key, if it is a string. -/
def getString? (a : Attributes) (key : String) : Option String :=
  (a.get? key).bind AttributeValue.asString?

/-- Entries with a value under a key: in place of the first value of the key, or at the end. -/
@[grind =]
def write (key : String) (value : AttributeValue) :
    List (String × AttributeValue) → List (String × AttributeValue)
  | [] => [(key, value)]
  | (k, v) :: rest => if k = key then (k, value) :: rest else (k, v) :: write key value rest

def put (a : Attributes) (key : String) (value : AttributeValue) : Attributes :=
  ⟨write key value a.entries⟩

def putString (a : Attributes) (key value : String) : Attributes := a.put key (.string value)

def ofList (writes : List (String × AttributeValue)) : Attributes :=
  writes.foldl (fun a (key, value) => a.put key value) empty

def ofStrings (writes : List (String × String)) : Attributes :=
  ofList (writes.map fun (key, value) => (key, .string value))

@[simp] theorem find?_write_self (key : String) (value : AttributeValue)
    (entries : List (String × AttributeValue)) :
    find? key (write key value entries) = some value := by
  induction entries with
  | nil => grind
  | cons entry rest ih => grind

theorem find?_write_of_ne {key other : String} (h : other ≠ key) (value : AttributeValue)
    (entries : List (String × AttributeValue)) :
    find? other (write key value entries) = find? other entries := by
  induction entries with
  | nil => grind
  | cons entry rest ih => grind

theorem map_fst_write (key : String) (value : AttributeValue)
    (entries : List (String × AttributeValue)) :
    (write key value entries).map Prod.fst =
      if key ∈ entries.map Prod.fst then entries.map Prod.fst
      else entries.map Prod.fst ++ [key] := by
  induction entries with
  | nil => grind
  | cons entry rest ih => grind

theorem write_of_not_mem {key : String} {entries : List (String × AttributeValue)}
    (h : key ∉ entries.map Prod.fst) (value : AttributeValue) :
    write key value entries = entries ++ [(key, value)] := by
  induction entries with
  | nil => grind
  | cons entry rest ih => grind

theorem foldl_put_of_nodup (front writes : List (String × AttributeValue))
    (h : ((front ++ writes).map Prod.fst).Nodup) :
    writes.foldl (fun a (key, value) => a.put key value) (⟨front⟩ : Attributes) =
      ⟨front ++ writes⟩ := by
  induction writes generalizing front with
  | nil => rw [List.append_nil]; rfl
  | cons entry rest ih =>
    obtain ⟨key, value⟩ := entry
    have hkey : key ∉ front.map Prod.fst := by
      rw [List.map_append, List.nodup_append] at h
      intro hmem
      exact h.2.2 key hmem key List.mem_cons_self rfl
    have hput : (⟨front⟩ : Attributes).put key value = ⟨front ++ [(key, value)]⟩ := by
      rw [put, write_of_not_mem hkey]
    have htail : front ++ (key, value) :: rest = front ++ [(key, value)] ++ rest :=
      List.append_cons front (key, value) rest
    rw [htail] at h ⊢
    simp only [List.foldl_cons, hput]
    exact ih _ h

/-- Writes of distinct keys are kept as they come. -/
theorem entries_ofList {writes : List (String × AttributeValue)}
    (h : (writes.map Prod.fst).Nodup) : (ofList writes).entries = writes :=
  congrArg entries (foldl_put_of_nodup [] writes h)

theorem entries_ofStrings {writes : List (String × String)} (h : (writes.map Prod.fst).Nodup) :
    (ofStrings writes).entries = writes.map fun (key, value) => (key, .string value) := by
  apply entries_ofList
  rwa [List.map_map]

@[simp] theorem get?_put_self (a : Attributes) (key : String) (value : AttributeValue) :
    (a.put key value).get? key = some value :=
  find?_write_self key value a.entries

theorem get?_put_of_ne {key other : String} (h : other ≠ key) (a : Attributes)
    (value : AttributeValue) : (a.put key value).get? other = a.get? other :=
  find?_write_of_ne h value a.entries

@[grind =]
theorem keys_put (a : Attributes) (key : String) (value : AttributeValue) :
    (a.put key value).keys = if key ∈ a.keys then a.keys else a.keys ++ [key] :=
  map_fst_write key value a.entries

end Attributes

end TraceSearch
