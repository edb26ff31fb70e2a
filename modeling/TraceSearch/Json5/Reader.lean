import TraceSearch.Json5.Literal

/-!
# JSON5 documents

JSON with comments, bare names, strings in either kind of quotes, more spellings of numbers, and a
comma after the last element or member. A document is read into one value, in which the last of
several members of one name wins.

Source: json5, with which config reads files ending in .json5.
-/

namespace TraceSearch.Json5

open Text (Reader after? readItems)

def readMember (value : Reader Json) (s : List Char) : Option ((String × Json) × List Char) := do
  let (name, rest) ← readName s
  let rest ← after? [':'] (skipGap rest)
  let (v, rest) ← value (skipGap rest)
  return ((name, v), rest)

/-- A value whose elements and members are read by `inner`. -/
def readWith (inner : Reader Json) (s : List Char) : Option (Json × List Char) :=
  match s with
  | '[' :: rest =>
    (readItems skipGap ']' inner (rest.length + 1) rest).map fun (items, rest) =>
      (.array items, rest)
  | '\x7b' :: rest =>
    (readItems skipGap '\x7d' (readMember inner) (rest.length + 1) rest).map fun (given, rest) =>
      (.object (Json.ofMembers given), rest)
  | s =>
    match after? "null".toList s, after? "true".toList s, after? "false".toList s with
    | some rest, _, _ => some (.null, rest)
    | _, some rest, _ => some (.bool true, rest)
    | _, _, some rest => some (.bool false, rest)
    | none, none, none =>
      match readString s with
      | some (text, rest) => some (.string text, rest)
      | none => readNumber s

/-- A value that opens at most so many brackets at once. -/
def readValue : Nat → Reader Json
  | 0 => fun _ => none
  | depth + 1 => readWith (readValue depth)

def read (text : String) : Option Json :=
  let s := text.toList
  match readValue (s.length + 1) (skipGap s) with
  | some (j, rest) => if skipGap rest = [] then some j else none
  | none => none

end TraceSearch.Json5
