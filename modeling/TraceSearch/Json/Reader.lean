import TraceSearch.Json.Literal

/-!
# Reading values

A value is read together with what follows it. The number of brackets that may still be opened is
the recursion's own argument. The loop over elements or members is bounded by the text it starts
from: each round takes one character off the bound and at least one off the text, so the bound never
ends the loop early, and it costs nothing to set up. A document may open at most `nestingLimit`
brackets at once; a value that is skipped may nest to any depth.

Source: serde_json's `from_str` into `Value`, with its limit of nesting, and its `ignore_value`.
-/

namespace TraceSearch.Json

/-- How many brackets of a document may be open at once. -/
def nestingLimit : Nat := 127

/-- The rest of a list from an item on, up to its closing character; the first text bounds the items
that follow. -/
def readList {α : Type} (closing : Char) (item : List Char → Except Error (α × List Char)) :
    List Char → List Char → Except Error (List α × List Char)
  | [], _ => .error .truncated
  | _ :: bound, s =>
    match item s with
    | .error e => .error e
    | .ok (x, rest) =>
      match skipBlank rest with
      | [] => .error .truncated
      | c :: rest =>
        if c = closing then .ok ([x], rest)
        else if c = ',' then
          match readList closing item bound rest with
          | .error e => .error e
          | .ok (xs, rest) => .ok (x :: xs, rest)
        else .error .malformed

/-- A list after its opening bracket. -/
def readEnclosed {α : Type} (closing : Char) (item : List Char → Except Error (α × List Char))
    (s : List Char) : Except Error (List α × List Char) :=
  match skipBlank s with
  | [] => .error .truncated
  | c :: rest =>
    if c = closing then .ok ([], rest) else readList closing item (c :: rest) (c :: rest)

def readSequence {α : Type} (element : List Char → Except Error (α × List Char)) (s : List Char) :
    Except Error (List α × List Char) := readEnclosed ']' element s

def readKey (kept : Bool) (s : List Char) : Except Error (String × List Char) :=
  match skipBlank s with
  | '"' :: rest => readStringRest kept [] rest
  | [] => .error .truncated
  | _ => .error .malformed

def readColon (s : List Char) : Except Error (List Char) :=
  match skipBlank s with
  | ':' :: rest => .ok rest
  | [] => .error .truncated
  | _ => .error .malformed

/-- A member: its name, a colon and its value. -/
def readMember (kept : Bool) (value : List Char → Except Error (Json × List Char)) (s : List Char) :
    Except Error ((String × Json) × List Char) :=
  match readKey kept s with
  | .error e => .error e
  | .ok (name, rest) =>
    match readColon rest with
    | .error e => .error e
    | .ok rest =>
      match value rest with
      | .error e => .error e
      | .ok (v, rest) => .ok ((name, v), rest)

/-- The members of an object after its opening brace, in the order of the text. -/
def readObject (kept : Bool) (value : List Char → Except Error (Json × List Char)) (s : List Char) :
    Except Error (List (String × Json) × List Char) := readEnclosed '\x7d' (readMember kept value) s

/-- A value whose elements and members are read by `inner`; with none, no bracket may be opened. -/
def readWith (kept : Bool) (inner : Option (List Char → Except Error (Json × List Char)))
    (s : List Char) : Except Error (Json × List Char) :=
  match skipBlank s with
  | [] => .error .truncated
  | 'n' :: rest => (readWord ['u', 'l', 'l'] rest).map fun rest => (null, rest)
  | 't' :: rest => (readWord ['r', 'u', 'e'] rest).map fun rest => (bool true, rest)
  | 'f' :: rest => (readWord ['a', 'l', 's', 'e'] rest).map fun rest => (bool false, rest)
  | '"' :: rest => (readStringRest kept [] rest).map fun (text, rest) => (string text, rest)
  | '[' :: rest =>
    match inner with
    | none => .error .malformed
    | some value => (readSequence value rest).map fun (items, rest) => (array items, rest)
  | '\x7b' :: rest =>
    match inner with
    | none => .error .malformed
    | some value =>
      (readObject kept value rest).map fun (members, rest) => (object (ofMembers members), rest)
  | c :: rest =>
    if c = '-' ∨ c.isDigit then
      (readNumber kept (c :: rest)).map fun (n, rest) => (number n, rest)
    else .error .malformed

/-- A value that opens at most `depth` brackets at once. -/
def readValue (kept : Bool) : Nat → List Char → Except Error (Json × List Char)
  | 0 => readWith kept none
  | depth + 1 => readWith kept (some (readValue kept depth))

def skipValue (s : List Char) : Except Error (List Char) :=
  (readValue false s.length s).map Prod.snd

/-- The result of a reader after which nothing but blanks may follow. -/
def complete {α : Type} (result : Except Error (α × List Char)) : Except Error α :=
  match result with
  | .error e => .error e
  | .ok (x, rest) => if skipBlank rest = [] then .ok x else .error .malformed

def read (text : String) : Except Error Json := complete (readValue true nestingLimit text.toList)

end TraceSearch.Json
