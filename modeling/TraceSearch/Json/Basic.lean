import TraceSearch.Decimal.Bits

/-!
# JSON values

A number is an integer as long as it is written as one and fits 64 bits, and a double otherwise. An
object is a list of members; `ofMembers` brings members into the order of their names, where the
last of several members of one name wins. Main facts: the names of `ofMembers` ascend strictly, and
a lookup answers with the member of its name that was put in last.

Source: `Value`, `Number` and `Map` of serde_json, its maps in the order of their keys.
-/

namespace TraceSearch

namespace Json

/-- A number of a document. -/
inductive Number where
  | integer (n : Int)
  | real (x : Float)
deriving DecidableEq

end Json

/-- A JSON value. -/
inductive Json where
  | null
  | bool (b : Bool)
  | number (n : Json.Number)
  | string (s : String)
  | array (items : List Json)
  | object (members : List (String × Json))

namespace Json

instance : Inhabited Json := ⟨null⟩

def int (n : Int) : Json := number (.integer n)

def nat (n : Nat) : Json := number (.integer n)

/-- A double; one that is not finite has no notation in a document and becomes `null`. -/
def ofFloat (x : Float) : Json := if Decimal.isFinite x then number (.real x) else null

/-- A string, or `null` for none. -/
def ofString? : Option String → Json
  | none => null
  | some s => string s

/-- The value under a name in a list of members, the first if there are several. -/
@[grind =]
def lookup (name : String) : List (String × Json) → Option Json
  | [] => none
  | (key, value) :: rest => if key = name then some value else lookup name rest

/-- Puts a member into a list ordered by name; it replaces a member of its name. -/
@[grind =]
def insertMember (name : String) (value : Json) : List (String × Json) → List (String × Json)
  | [] => [(name, value)]
  | (key, old) :: rest =>
    if name < key then (name, value) :: (key, old) :: rest
    else if name = key then (name, value) :: rest
    else (key, old) :: insertMember name value rest

/-- Members in the order of their names, the last of each name. -/
def ofMembers (members : List (String × Json)) : List (String × Json) :=
  members.foldl (fun sorted (name, value) => insertMember name value sorted) []

theorem mem_keys_insertMember {name other : String} {value : Json} {members : List (String × Json)}
    (h : other ∈ (insertMember name value members).map Prod.fst) :
    other = name ∨ other ∈ members.map Prod.fst := by
  induction members with
  | nil => grind
  | cons member rest ih => grind

theorem ascending_insertMember (name : String) (value : Json) {members : List (String × Json)}
    (h : (members.map Prod.fst).Pairwise (· < ·)) :
    ((insertMember name value members).map Prod.fst).Pairwise (· < ·) := by
  induction members with
  | nil => simp [insertMember]
  | cons member rest ih =>
    obtain ⟨key, old⟩ := member
    obtain ⟨hkey, hrest⟩ := List.pairwise_cons.1 h
    unfold insertMember
    split
    · rename_i hlt
      refine List.pairwise_cons.2 ⟨fun other hother => ?_, h⟩
      rcases List.mem_cons.1 hother with hother | hother
      · exact hother ▸ hlt
      · exact String.lt_trans hlt (hkey other hother)
    · split
      · rename_i hk
        subst hk
        exact h
      · rename_i hle hne
        have hlt : key < name :=
          Decidable.byContradiction fun hn => hne (String.le_antisymm hn hle)
        refine List.pairwise_cons.2 ⟨fun other hother => ?_, ih hrest⟩
        rcases mem_keys_insertMember hother with hother | hother
        · exact hother ▸ hlt
        · exact hkey other hother

/-- The names of ordered members ascend. -/
theorem ascending_ofMembers (members : List (String × Json)) :
    ((ofMembers members).map Prod.fst).Pairwise (· < ·) := by
  have fold (sorted : List (String × Json)) (h : (sorted.map Prod.fst).Pairwise (· < ·)) :
      ((members.foldl (fun sorted (name, value) => insertMember name value sorted) sorted).map
        Prod.fst).Pairwise (· < ·) := by
    induction members generalizing sorted with
    | nil => exact h
    | cons member rest ih => exact ih _ (ascending_insertMember member.1 member.2 h)
  exact fold [] List.Pairwise.nil

@[simp]
theorem lookup_insertMember_self (name : String) (value : Json) (members : List (String × Json)) :
    lookup name (insertMember name value members) = some value := by
  induction members with
  | nil => grind
  | cons member rest ih => grind

theorem lookup_insertMember_of_ne {name other : String} (h : other ≠ name) (value : Json)
    (members : List (String × Json)) :
    lookup other (insertMember name value members) = lookup other members := by
  induction members with
  | nil => grind
  | cons member rest ih => grind

end Json

end TraceSearch
