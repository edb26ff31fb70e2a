import TraceSearch.Decimal.Integer
import TraceSearch.Decimal.Real
import TraceSearch.Json.Basic
import TraceSearch.Yaml.Token

/-!
# The nodes of YAML

Tokens make up nodes: scalars, lists and maps. A plain scalar is nothing, a truth value, a number or
text by its spelling unless a tag says otherwise, and an alias stands for a copy of the node that
bears its anchor. No key of a map is given twice.

Source: yaml-rust2, the tree of a document.
-/

namespace TraceSearch.Yaml

/-- A node. A real number is kept as it is spelled, and a scalar that does not fit its tag is
`invalid`. -/
inductive Node where
  | null
  | invalid
  | bool (b : Bool)
  | int (n : Int)
  | real (text : String)
  | text (s : String)
  | list (items : List Node)
  | map (entries : List (Node × Node))
deriving BEq

namespace Node

/-- The spellings of a double that is no number of digits. -/
def specials : List String :=
  let signs := ["", "+", "-"]
  let words := [".inf", ".Inf", ".INF"]
  (signs.flatMap fun sign => words.map (sign ++ ·)) ++ [".nan", ".NaN", ".NAN"]

def isReal (s : String) : Bool :=
  specials.contains s || (s.toList.any Char.isDigit && (Decimal.readFloat? s).isSome)

/-- The integer of 64 bits that a text spells. -/
def integer? (s : List Char) : Option Int := (Decimal.Range.signed64.readChars s).toOption

/-- The integer of 64 bits that digits of a base spell, with a sign before them or without. -/
def based? (base : Nat) (s : List Char) : Option Int :=
  let (negative, ds) := Text.splitSign s
  if ds.isEmpty || !ds.all (Text.isDigitOf base) then none
  else
    let n := Text.signedInt negative (Text.valueInBase base ds)
    if Decimal.Range.signed64.contains n then some n else none

/-- The integer that a plain scalar spells, in one of three bases. A sign may follow the mark of a
base, and a plus may stand before another sign. -/
def plainInteger? (s : List Char) : Option Int :=
  let marked := match s with
    | '0' :: 'x' :: ds => based? 16 ds
    | '0' :: 'o' :: ds => based? 8 ds
    | '+' :: ds => integer? ds
    | _ => none
  marked.orElse fun _ => integer? s

/-- The node of a plain scalar without a tag. -/
def ofPlain (s : String) : Node :=
  if s = "" ∨ s = "~" ∨ s = "null" then null
  else if s = "true" then bool true
  else if s = "false" then bool false
  else
    match plainInteger? s.toList with
    | some n => int n
    | none => if isReal s then real s else text s

/-- The node of a plain scalar with a tag; one that is not common leaves it as text. -/
def ofTagged (tag : Option String) (s : String) : Node :=
  if tag = some "bool" then
    if s = "true" then bool true else if s = "false" then bool false else invalid
  else if tag = some "int" then (integer? s.toList).elim invalid int
  else if tag = some "float" then if isReal s then real s else invalid
  else if tag = some "null" then if s = "~" ∨ s = "null" then null else invalid
  else text s

end Node

/-- What has been read: the tokens that are left, and the nodes with anchors, where one that is
still being read has none. -/
structure Builder where
  tokens : List Token
  anchors : List (String × Option Node)

/-- What stands before a node. -/
structure Properties where
  anchor : Option String
  tag : Option (Option String)

namespace Builder

def next (b : Builder) : Builder := { b with tokens := b.tokens.drop 1 }

def at? (b : Builder) (ts : List Token) : Bool := b.tokens.head?.any ts.contains

/-- The anchor and the tag before a node, in either order. -/
def readProperties (b : Builder) : Properties × Builder :=
  match b.tokens with
  | .anchor a :: .tag t :: rest => (⟨some a, some t⟩, { b with tokens := rest })
  | .tag t :: .anchor a :: rest => (⟨some a, some t⟩, { b with tokens := rest })
  | .anchor a :: rest => (⟨some a, none⟩, { b with tokens := rest })
  | .tag t :: rest => (⟨none, some t⟩, { b with tokens := rest })
  | _ => (⟨none, none⟩, b)

def announce (b : Builder) (p : Properties) : Builder :=
  match p.anchor with
  | some a => { b with anchors := (a, none) :: b.anchors }
  | none => b

def register (b : Builder) (p : Properties) (node : Node) : Builder :=
  match p.anchor with
  | some a => { b with anchors := (a, some node) :: b.anchors }
  | none => b

end Builder

/-- An entry added to those of a map, which may not hold its key. -/
def addEntry (entries : List (Node × Node)) (key value : Node) : Option (List (Node × Node)) :=
  if entries.any fun e => e.1 == key then none else some (entries ++ [(key, value)])

def plainNode (p : Properties) (s : String) : Node :=
  match p.tag with
  | some tag => .ofTagged tag s
  | none => .ofPlain s

mutual

/-- A node; the number bounds the tokens. `block` tells whether it may be a list or a map by its
indentation, and `flat` whether it may be a list without one of its own. -/
def readNode : Nat → Bool → Bool → Builder → Option (Node × Builder)
  | 0, _, _, _ => none
  | bound + 1, block, flat, b =>
    match b.tokens with
    | .alias name :: _ => (b.anchors.lookup name).map fun node => (node.getD .invalid, b.next)
    | _ =>
      let (p, b) := b.readProperties
      let b := b.announce p
      let read := match b.tokens with
        | .plain s :: _ => some (plainNode p s, b.next)
        | .text s :: _ => some (.text s, b.next)
        | .flowListStart :: _ => readFlowList bound true [] b.next
        | .flowMapStart :: _ => readFlowMap bound true [] b.next
        | .listStart :: _ => if block then readList bound [] b.next else none
        | .mapStart :: _ => if block then readMap bound [] b.next else none
        | .entry :: _ =>
          if flat then readFlatList bound [] b
          else if p.anchor.isSome || p.tag.isSome then some (plainNode p "", b)
          else none
        | _ =>
          if p.anchor.isSome || p.tag.isSome then some (plainNode p "", b) else none
      match read with
      | some (node, b) => some (node, b.register p node)
      | none => none

/-- A node, or nothing before one of some tokens. -/
def readOptional : Nat → Bool → Bool → List Token → Builder → Option (Node × Builder)
  | 0, _, _, _, _ => none
  | bound + 1, block, flat, stops, b =>
    if b.at? stops then some (.null, b) else readNode bound block flat b

/-- The value of an entry, after its key. -/
def readEntryValue : Nat → Bool → List Token → Builder → Option (Node × Builder)
  | 0, _, _, _ => none
  | bound + 1, block, stops, b =>
    if b.at? [.value] then readOptional bound block block stops b.next else some (.null, b)

def readList : Nat → List Node → Builder → Option (Node × Builder)
  | 0, _, _ => none
  | bound + 1, items, b =>
    if b.at? [.blockEnd] then some (.list items, b.next)
    else if b.at? [.entry] then
      match readOptional bound true false [.entry, .blockEnd] b.next with
      | some (node, b) => readList bound (items ++ [node]) b
      | none => none
    else none

/-- The rest of a list that is indented as the map around it. -/
def readFlatList : Nat → List Node → Builder → Option (Node × Builder)
  | 0, _, _ => none
  | bound + 1, items, b =>
    if b.at? [.entry] then
      match readOptional bound true false [.entry, .key, .value, .blockEnd] b.next with
      | some (node, b) => readFlatList bound (items ++ [node]) b
      | none => none
    else some (.list items, b)

def readMap : Nat → List (Node × Node) → Builder → Option (Node × Builder)
  | 0, _, _ => none
  | bound + 1, entries, b =>
    let stops := [Token.key, .value, .blockEnd]
    if b.at? [.blockEnd] then some (.map entries, b.next)
    else
      let key :=
        if b.at? [.key] then readOptional bound true true stops b.next
        else if b.at? [.value] then some (.null, b)
        else none
      match key with
      | none => none
      | some (key, b) =>
        match readEntryValue bound true stops b with
        | none => none
        | some (value, b) =>
          match addEntry entries key value with
          | some entries => readMap bound entries b
          | none => none

/-- The rest of a list in brackets; a pair among its items is a map of its own. -/
def readFlowList : Nat → Bool → List Node → Builder → Option (Node × Builder)
  | 0, _, _, _ => none
  | bound + 1, first, items, b =>
    if b.at? [.flowListEnd] then some (.list items, b.next)
    else if !first && !b.at? [.comma] then none
    else
      let b := if first then b else b.next
      let stops := [Token.comma, .flowListEnd]
      if b.at? [.flowListEnd] && !first then some (.list items, b.next)
      else if b.at? [.key] then
        match readOptional bound false false (.value :: stops) b.next with
        | none => none
        | some (key, b) =>
          match readEntryValue bound false stops b with
          | none => none
          | some (value, b) => readFlowList bound false (items ++ [.map [(key, value)]]) b
      else
        match readNode bound false false b with
        | some (node, b) => readFlowList bound false (items ++ [node]) b
        | none => none

/-- The rest of a map in brackets; a key may stand alone. -/
def readFlowMap : Nat → Bool → List (Node × Node) → Builder → Option (Node × Builder)
  | 0, _, _, _ => none
  | bound + 1, first, entries, b =>
    if b.at? [.flowMapEnd] then some (.map entries, b.next)
    else if !first && !b.at? [.comma] then none
    else
      let b := if first then b else b.next
      let stops := [Token.comma, .flowMapEnd]
      if b.at? [.flowMapEnd] && !first then some (.map entries, b.next)
      else
        let key :=
          if b.at? [.key] then readOptional bound false false (.value :: stops) b.next
          else if b.at? [.value] then some (.null, b)
          else readNode bound false false b
        match key with
        | none => none
        | some (key, b) =>
          match readEntryValue bound false stops b with
          | none => none
          | some (value, b) =>
            match addEntry entries key value with
            | some entries => readFlowMap bound false entries b
            | none => none

end

end TraceSearch.Yaml
