import TraceSearch.Toml.Scalar
import TraceSearch.Toml.Table
import TraceSearch.Toml.Text

/-!
# TOML documents

A document is a list of lines: keys with their values and the headers of tables. It is read into one
object, or refused as a whole. Values nest at most to `nestingLimit`, and no key has more parts.

Source: `DEFAULT_CONFIG`; toml, with which config reads files ending in .toml.
-/

namespace TraceSearch.Toml

open Text (Reader)

/-- How many brackets of a value may be open at once, and how many parts a key may have. -/
def nestingLimit : Nat := 80

def isBareChar (c : Char) : Bool := c.isAlphanum || c == '_' || c == '-'

def readKeyPart (s : List Char) : Option (String × List Char) :=
  match s.takeWhile isBareChar with
  | [] => readLineString s
  | bare => some (String.ofList bare, s.dropWhile isBareChar)

/-- A key, its parts separated by points; the number bounds the parts. -/
def readKeyParts : Nat → Reader (List String)
  | 0, _ => none
  | bound + 1, s => do
    let (part, rest) ← readKeyPart (skipBlank s)
    match skipBlank rest with
    | '.' :: rest => do
      let (parts, rest) ← readKeyParts bound rest
      return (part :: parts, rest)
    | rest => return ([part], rest)

def readKey : Reader (List String) := readKeyParts nestingLimit

/-- A key with its value; `skip` passes over what may stand on either side of the equals sign. -/
def readAssignment (skip : List Char → List Char) (value : Reader Json) (s : List Char) :
    Option ((List String × Json) × List Char) := do
  let (key, rest) ← readKey s
  match skip rest with
  | '=' :: rest => do
    let (v, rest) ← value (skip rest)
    return ((key, v), rest)
  | _ => none

/-- A date, a blank and a time are one scalar; a scalar ends at any other character that cannot
stand in one. -/
def splitScalar (s : List Char) : List Char × List Char :=
  let first := s.takeWhile isScalarChar
  match (readDate first).map Prod.snd, s.dropWhile isScalarChar with
  | some [], ' ' :: c :: rest =>
    if c.isDigit then
      (first ++ ' ' :: (c :: rest).takeWhile isScalarChar, (c :: rest).dropWhile isScalarChar)
    else (first, ' ' :: c :: rest)
  | _, rest => (first, rest)

/-- A value whose elements and members are read by `inner`; with none, no bracket may be opened. -/
def readWith (inner : Option (Reader Json)) (s : List Char) : Option (Json × List Char) :=
  match s with
  | '[' :: rest => do
    let value ← inner
    let (items, rest) ← Text.readItems skipGap ']' value (rest.length + 1) rest
    return (.array items, rest)
  | '\x7b' :: rest => do
    let value ← inner
    let member := readAssignment skipGap value
    let (given, rest) ← Text.readItems skipGap '\x7d' member (rest.length + 1) rest
    let members ← given.foldlM (fun members (key, v) => assign true v key members) []
    return (Members.toJson members, rest)
  | s =>
    match readString s with
    | some (text, rest) => some (.string text, rest)
    | none =>
      let (scalar, rest) := splitScalar s
      (readScalar scalar).map fun j => (j, rest)

/-- A value that opens at most `depth` brackets at once. -/
def readValue : Nat → Reader Json
  | 0 => readWith none
  | depth + 1 => readWith (some (readValue depth))

/-- The key of a header after its opening brackets, up to and with its closing brackets. -/
def readHeader (closing : List Char) (s : List Char) : Option (List String × List Char) := do
  let (key, rest) ← readKey s
  if closing.isPrefixOf rest then some (key, rest.drop closing.length) else none

/-- One line: the table under construction and all tables after it, and the rest of the text. -/
def readLine (path : List String) (root : Members) (s : List Char) :
    Option ((List String × Members) × List Char) :=
  match skipBlank s with
  | '[' :: '[' :: rest => do
    let (key, rest) ← readHeader [']', ']'] rest
    return ((key, ← openElement key root), ← readLineEnd rest)
  | '[' :: rest => do
    let (key, rest) ← readHeader [']'] rest
    return ((key, ← openTable key root), ← readLineEnd rest)
  | s =>
    match readLineEnd s with
    | some rest => some ((path, root), rest)
    | none => do
      let ((key, v), rest) ← readAssignment skipBlank (readValue nestingLimit) s
      return ((path, ← atTable (assign true v key) path root), ← readLineEnd rest)

/-- The lines of a document; the number bounds them. -/
def readLines : Nat → List String → Members → List Char → Option Members
  | _, _, root, [] => some root
  | 0, _, _, _ => none
  | bound + 1, path, root, s =>
    match readLine path root s with
    | none => none
    | some ((path, root), rest) => readLines bound path root rest

/-- A text without the mark that may stand before all else. -/
def dropMark : List Char → List Char
  | '\ufeff' :: rest => rest
  | s => s

def read (text : String) : Option Json :=
  let s := dropMark text.toList
  (readLines (s.length + 1) [] [] s).map Members.toJson

end TraceSearch.Toml
