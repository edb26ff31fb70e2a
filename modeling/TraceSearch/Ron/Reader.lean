import TraceSearch.Ron.Literal

/-!
# RON documents

Lists, maps whose keys are texts, structures and tuples with or without a name, options, and
scalars. A structure counts as an object, a tuple as an array, an option as what it holds, and a
name alone as nothing. The document may open with the extensions that it uses.

Source: ron, with which config reads files ending in .ron.
-/

namespace TraceSearch.Ron

open Text (Reader after? readItems)

def readEntry (value : Reader Json) (s : List Char) : Option ((String × Json) × List Char) := do
  match ← value s with
  | (.string key, rest) =>
    let rest ← after? [':'] (skipGap rest)
    let (v, rest) ← value (skipGap rest)
    return ((key, v), rest)
  | _ => none

def readField (value : Reader Json) (s : List Char) : Option ((String × Json) × List Char) := do
  let (name, rest) ← readName s
  let rest ← after? [':'] (skipGap rest)
  let (v, rest) ← value (skipGap rest)
  return ((name, v), rest)

def startsField (s : List Char) : Bool :=
  match readName (skipGap s) with
  | some (_, rest) => (skipGap rest).head? == some ':'
  | none => false

/-- What follows an opening bracket: nothing, the fields of a structure or the elements of a tuple.
-/
def readBody (value : Reader Json) (s : List Char) : Option (Json × List Char) :=
  match skipGap s with
  | ')' :: rest => some (.null, rest)
  | _ =>
    if startsField s then
      (readItems skipGap ')' (readField value) (s.length + 1) s).map fun (given, rest) =>
        (.object (Json.ofMembers given), rest)
    else
      (readItems skipGap ')' value (s.length + 1) s).map fun (items, rest) => (.array items, rest)

def readOption (value : Reader Json) (s : List Char) : Option (Json × List Char) := do
  let rest ← after? ['('] (skipGap s)
  let (j, rest) ← value (skipGap rest)
  match skipGap rest with
  | ',' :: rest => (after? [')'] (skipGap rest)).map fun rest => (j, rest)
  | rest => (after? [')'] rest).map fun rest => (j, rest)

def readNamed (value : Reader Json) (name : String) (rest : List Char) :
    Option (Json × List Char) :=
  if name = "true" then some (.bool true, rest)
  else if name = "false" then some (.bool false, rest)
  else if name = "None" then some (.null, rest)
  else if name = "Some" then readOption value rest
  else if name = "inf" then some (.number (.real (1 / 0)), rest)
  else if name = "NaN" then some (.number (.real (0 / 0)), rest)
  else
    match skipGap rest with
    | '(' :: rest => readBody value rest
    | _ => some (.null, rest)

/-- A value whose parts are read by `inner`. -/
def readWith (inner : Reader Json) (s : List Char) : Option (Json × List Char) :=
  match readString s, readName s, s with
  | some (text, rest), _, _ => some (.string text, rest)
  | none, some (name, rest), _ => readNamed inner name rest
  | none, none, '(' :: rest => readBody inner rest
  | none, none, '[' :: rest =>
    (readItems skipGap ']' inner (rest.length + 1) rest).map fun (items, rest) =>
      (.array items, rest)
  | none, none, '\x7b' :: rest =>
    (readItems skipGap '\x7d' (readEntry inner) (rest.length + 1) rest).map fun (given, rest) =>
      (.object (Json.ofMembers given), rest)
  | none, none, s =>
    match readChar s with
    | some (c, rest) => some (.string (String.singleton c), rest)
    | none => readNumber s

/-- A value that opens at most so many brackets at once. -/
def readValue : Nat → Reader Json
  | 0 => fun _ => none
  | depth + 1 => readWith (readValue depth)

/-- How many brackets may be open at once. -/
def nestingLimit : Nat := 128

def extensions : List String :=
  ["unwrap_newtypes", "implicit_some", "unwrap_variant_newtypes", "explicit_struct_names"]

def readExtension (s : List Char) : Option (String × List Char) := do
  let (name, rest) ← readName s
  if extensions.contains name then some (name, rest) else none

/-- A document after the extensions at its start; the number bounds them. -/
def skipExtensions : Nat → List Char → Option (List Char)
  | 0, s => some s
  | bound + 1, s =>
    match after? ['#'] (skipGap s) with
    | none => some (skipGap s)
    | some rest => do
      let rest ← after? ['!'] (skipGap rest)
      let rest ← after? ['['] (skipGap rest)
      let rest ← after? "enable".toList (skipGap rest)
      let rest ← after? ['('] (skipGap rest)
      let (_, rest) ← readItems skipGap ')' readExtension (rest.length + 1) rest
      let rest ← after? [']'] (skipGap rest)
      skipExtensions bound rest

def read (text : String) : Option Json := do
  let rest ← skipExtensions text.length text.toList
  let (j, rest) ← readValue nestingLimit rest
  if skipGap rest = [] then some j else none

end TraceSearch.Ron
