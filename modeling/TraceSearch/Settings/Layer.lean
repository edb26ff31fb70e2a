import TraceSearch.Decimal.Integer
import TraceSearch.Json.Basic

/-!
# Layers of settings

Settings come in layers, each laid over the ones before. An object is laid over an object key by
key, and anything else takes the place of what was there. The keys of a layer are paths: names
separated by points, with positions in arrays between brackets; a key that is no path is one name.

Source: config's path expressions, and how it lays a layer over another.
-/

namespace TraceSearch.Settings

/-- One step of a path into nested values. -/
inductive Step where
  | key (name : String)
  | index (position : Int)
deriving DecidableEq

def isNameChar (c : Char) : Bool := c.isAlphanum || c == '_' || c == '-'

/-- A text without the blanks at either end. -/
def trimBlanks (s : List Char) : List Char :=
  let isBlank (c : Char) : Bool := c == ' ' || c == '\t'
  ((s.dropWhile isBlank).reverse.dropWhile isBlank).reverse

/-- A position between brackets, possibly counted from the end. -/
def readPosition (s : List Char) : Option Int :=
  match trimBlanks s with
  | '+' :: _ => none
  | s => (Decimal.Range.signed64.readChars s).toOption

/-- The steps of a path after its first name; the number bounds them. -/
def readSteps : Nat → List Char → Option (List Step)
  | _, [] => some []
  | 0, _ => none
  | bound + 1, '.' :: rest =>
    match rest.takeWhile isNameChar with
    | [] => none
    | name => (readSteps bound (rest.dropWhile isNameChar)).map (.key (String.ofList name) :: ·)
  | bound + 1, '[' :: rest =>
    match readPosition (rest.takeWhile (· != ']')), rest.dropWhile (· != ']') with
    | some position, ']' :: rest => (readSteps bound rest).map (.index position :: ·)
    | _, _ => none
  | _, _ => none

/-- The path that a key spells, or the key as one name. -/
def pathOf (key : String) : List Step :=
  (readSteps (key.length + 1) ('.' :: key.toList)).getD [.key key]

/-- The members of an object; anything else counts as an empty one. -/
def members : Json → List (String × Json)
  | .object ms => ms
  | _ => []

/-- The elements of an array; anything else counts as an empty one. -/
def elements : Json → List Json
  | .array items => items
  | _ => []

mutual

def overlay : Json → Option Json → Json
  | .object ms, old => overlayMembers ms (old.getD (.object []))
  | value, _ => value

def overlayMembers : List (String × Json) → Json → Json
  | [], tree => .object (members tree)
  | (name, value) :: rest, tree =>
    let old := members tree
    overlayMembers rest
      (.object (Json.insertMember name (overlay value (Json.lookup name old)) old))

end

/-- Where a position points to in an array of a length: inside or after it, or so many places before
its start. -/
def place (length : Nat) (position : Int) : Nat ⊕ Nat :=
  if 0 ≤ position then .inl position.toNat
  else if position.natAbs ≤ length then .inl (length - position.natAbs)
  else .inr (position.natAbs - length)

/-- An array with an element changed; places that are missing up to it are filled with `null`. -/
def changeAt (position : Nat) (change : Json → Json) (items : List Json) : List Json :=
  (items ++ List.replicate (position + 1 - items.length) Json.null).modify position change

/-- A value laid over what is at the end of a path. -/
def assign (value : Json) : List Step → Json → Json
  | [], tree => overlay value (some tree)
  | .key name :: path, tree =>
    let old := members tree
    .object (Json.insertMember name (assign value path ((Json.lookup name old).getD .null)) old)
  | .index position :: path, tree =>
    let items := elements tree
    match place items.length position with
    | .inl i => .array (changeAt i (assign value path) items)
    | .inr before =>
      .array (assign value path .null :: List.replicate (before - 1) .null ++ items)

def layOver (tree : Json) (layer : List (String × Json)) : Json :=
  layer.foldl (fun tree (key, value) => assign value (pathOf key) tree) tree

end TraceSearch.Settings
