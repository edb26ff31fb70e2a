import TraceSearch.Yaml.Node

/-!
# YAML documents

A text holds at most one document, and one that holds none stands for an empty map. A node is a
value of JSON where the keys of its maps are scalars; infinities and not-a-number have no value
there.

Source: yaml-rust2, with which config reads files ending in .yaml and .yml.
-/

namespace TraceSearch.Yaml

def Node.name? : Node → Option String
  | text s => some s
  | real s => some s
  | int n => some (Decimal.integer n)
  | bool b => some (if b then "true" else "false")
  | null | invalid | list _ | map _ => none

mutual

def Node.toJson? : Node → Option Json
  | .null => some .null
  | .invalid => some .null
  | .bool b => some (.bool b)
  | .int n => some (.int n)
  | .text s => some (.string s)
  | .real s => (Decimal.readFloat? s).map fun x => .number (.real x)
  | .list items => (itemsToJson? items).map .array
  | .map entries => (entriesToJson? entries).map fun ms => .object (Json.ofMembers ms)

def itemsToJson? : List Node → Option (List Json)
  | [] => some []
  | node :: rest => do
    let j ← node.toJson?
    let js ← itemsToJson? rest
    return j :: js

def entriesToJson? : List (Node × Node) → Option (List (String × Json))
  | [] => some []
  | (key, value) :: rest => do
    let name ← key.name?
    let j ← value.toJson?
    let ms ← entriesToJson? rest
    return (name, j) :: ms

end

/-- The node of a document after its first mark, which may be missing; nothing else may follow it.
-/
def readRoot (marked : Bool) (tokens : List Token) : Option Node :=
  let b : Builder := ⟨tokens, []⟩
  let read :=
    if marked && (tokens.isEmpty || b.at? [.documentEnd]) then some (.null, b)
    else readNode (tokens.length * 4 + 4) true false b
  match read with
  | some (node, b) => if b.tokens.all (· == .documentEnd) then some node else none
  | none => none

/-- The only document of a list of tokens: none is an empty map. Directives need a mark after them.
-/
def readDocument (tokens : List Token) : Option Node :=
  match tokens.dropWhile (· == .documentEnd) with
  | [] => some (.map [])
  | .documentStart :: rest => readRoot true rest
  | .directive :: rest =>
    match rest.dropWhile (· == .directive) with
    | .documentStart :: rest => readRoot true rest
    | _ => none
  | rest => readRoot false rest

def read (text : String) : Option Json := do
  let tokens ← Token.ofText? text
  let node ← readDocument tokens
  node.toJson?

end TraceSearch.Yaml
