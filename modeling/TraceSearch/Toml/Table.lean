import TraceSearch.Json.Basic

/-!
# Tables under construction

A TOML document builds a tree of tables. A table is opened by a header, implied by a longer header,
or made by a dotted key, and this decides what may still be done to it: a header opens a table once,
and a dotted key adds only to tables that no header opened. So no key of a table is given twice.

Source: the tables and dotted keys of toml.
-/

namespace TraceSearch.Toml

/-- How a table came about. -/
inductive Origin where
  | opened | implied | dotted
deriving DecidableEq

/-- A value, a table, or an array of tables, whose last one is under construction. -/
inductive Node where
  | leaf (value : Json)
  | table (origin : Origin) (members : List (String × Node))
  | tables (done : List (List (String × Node))) (last : List (String × Node))

abbrev Members := List (String × Node)

/-- Changes what a key holds, where nothing stands for a key that is not given yet. -/
def edit (key : String) (change : Option Node → Option Node) : Members → Option Members
  | [] => (change none).map fun node => [(key, node)]
  | (k, node) :: rest =>
    if k = key then (change (some node)).map fun node => (k, node) :: rest
    else (edit key change rest).map ((k, node) :: ·)

/-- Goes on in the table that a node is, or in a new one of the given origin. -/
def descend (origin : Origin) (inner : Origin → Members → Option Members) :
    Option Node → Option Node
  | none => (inner origin []).map (.table origin)
  | some (.leaf _) => none
  | some (.table o members) => (inner o members).map (.table o)
  | some (.tables done last) => (inner .opened last).map (.tables done)

def openTable : List String → Members → Option Members
  | [], _ => none
  | [key], members =>
    edit key (fun
      | none => some (.table .opened [])
      | some (.table .implied members) => some (.table .opened members)
      | _ => none) members
  | key :: path, members =>
    edit key (descend .implied fun _ inner => openTable path inner) members

def openElement : List String → Members → Option Members
  | [], _ => none
  | [key], members =>
    edit key (fun
      | none => some (.tables [] [])
      | some (.tables done last) => some (.tables (done ++ [last]) [])
      | _ => none) members
  | key :: path, members =>
    edit key (descend .implied fun _ inner => openElement path inner) members

/-- Gives a value to a dotted key; `reached` tells whether keys may be added to the table itself. -/
def assign (reached : Bool) (value : Json) : List String → Members → Option Members
  | [], _ => none
  | [key], members =>
    if reached then
      edit key (fun
        | none => some (.leaf value)
        | some _ => none) members
    else none
  | key :: path, members =>
    edit key
      (fun node =>
        match node with
        | some (.table .opened _) => none
        | node => descend .dotted (fun o inner => assign (o != .opened) value path inner) node)
      members

def atTable (change : Members → Option Members) : List String → Members → Option Members
  | [], members => change members
  | key :: path, members =>
    edit key (descend .opened fun _ inner => atTable change path inner) members

mutual

def Node.toJson : Node → Json
  | .leaf value => value
  | .table _ members => .object (Json.ofMembers (membersJson members))
  | .tables done last =>
    .array (elementsJson done ++ [.object (Json.ofMembers (membersJson last))])

def membersJson : List (String × Node) → List (String × Json)
  | [] => []
  | (key, node) :: rest => (key, node.toJson) :: membersJson rest

def elementsJson : List (List (String × Node)) → List Json
  | [] => []
  | members :: rest => .object (Json.ofMembers (membersJson members)) :: elementsJson rest

end

def Members.toJson (members : Members) : Json := .object (Json.ofMembers (membersJson members))

end TraceSearch.Toml
