import TraceSearch.Json.Basic
import TraceSearch.Text.Blank
import TraceSearch.Text.Reader

/-!
# INI documents

Keys with values in sections. A key ends at an equals sign or a colon and a value at the end of its
line, both without the blanks around them; values are text. A value may hold parts in quotes, which
keep their blanks and may go on over several lines, and a backslash opens an escape everywhere. A
comment takes a line of its own. A section given again takes the place of the one before.

Source: rust-ini, with which config reads files ending in .ini.
-/

namespace TraceSearch.Ini

open Text (Reader)

/-- The members of a document before they are put in order. -/
abbrev Members := List (String × Json)

/-- The character of an escape of one letter: any letter without a meaning stands for itself. -/
def escaped (c : Char) : Char :=
  if c = '0' then '\x00'
  else if c = 'a' then '\x07'
  else if c = 'b' then '\x08'
  else if c = 't' then '\t'
  else if c = 'r' then '\r'
  else if c = 'n' then '\n'
  else c

/-- An escape after its backslash; one at the end of a line stands for nothing. -/
def readEscape : Reader (List Char)
  | '\n' :: rest => some ([], rest)
  | 'x' :: rest => (Text.readCode 4 rest).map fun (c, rest) => ([c], rest)
  | c :: rest => some ([escaped c], rest)
  | [] => none

/-- The text up to a character at which it ends, which is not taken; `before` is what has been read,
last first, and the number bounds the characters. It must come to such a character, or to the end of
the document where `mayStop`. -/
def readUntil (ends : Char → Bool) (mayStop : Bool) : Nat → List Char → Reader (List Char)
  | 0, _, _ => none
  | bound + 1, before, c :: rest =>
    if ends c then some (before.reverse, c :: rest)
    else if c = '\\' then
      match readEscape rest with
      | some (chars, rest) => readUntil ends mayStop bound (chars ++ before) rest
      | none => none
    else readUntil ends mayStop bound (c :: before) rest
  | _ + 1, before, [] => if mayStop then some (before.reverse, []) else none

def endsLine (c : Char) : Bool := c == '\n' || c == '\r'

def isLineBlank (c : Char) : Bool := Text.isBlank c && !endsLine c

/-- The parts of a value; blanks at the start are dropped unless a part in quotes comes first, and
the number bounds the parts. -/
def readParts : Nat → Bool → Reader (List Char)
  | 0, _, _ => none
  | bound + 1, first, s =>
    let quoted (quote : Char) (rest : List Char) : Option (List Char × List Char) := do
      let (part, rest) ← readUntil (· == quote) false (rest.length + 1) [] rest
      let (parts, rest) ← readParts bound false (rest.drop 1)
      return (part ++ parts, rest)
    match s with
    | [] => some ([], [])
    | '"' :: rest => quoted '"' rest
    | '\'' :: rest => quoted '\'' rest
    | s => do
      let (line, rest) ← readUntil endsLine true (s.length + 1) [] s
      return (Text.trimEnd (if first then line.dropWhile Text.isBlank else line), rest)

def readValue (s : List Char) : Option (String × List Char) := do
  let (value, rest) ← readParts (s.length + 1) true (s.dropWhile isLineBlank)
  return (String.ofList value, rest)

def endsKey (c : Char) : Bool := c == '=' || c == ':'

def readAssignment (s : List Char) : Option ((String × Json) × List Char) := do
  let (key, rest) ← readUntil endsKey false (s.length + 1) [] s
  let key := Text.trimChars key
  if key = [] then none
  let (value, rest) ← readValue (rest.drop 1)
  return ((String.ofList key, .string value), rest)

def readSection (s : List Char) : Option (String × List Char) := do
  let (name, rest) ← readUntil (· == ']') false (s.length + 1) [] s
  return (String.ofList (Text.trimChars name), rest.drop 1)

/-- The document that is under construction: what has been given outside the sections and in those
that are complete, and the section under way. -/
structure Draft where
  members : Members
  current : Option (String × Members)

namespace Draft

def empty : Draft := ⟨[], none⟩

def close (d : Draft) : Members :=
  match d.current with
  | none => d.members
  | some (name, given) => d.members ++ [(name, .object (Json.ofMembers given))]

def openSection (d : Draft) (name : String) : Draft := ⟨d.close, some (name, [])⟩

def add (d : Draft) (member : String × Json) : Draft :=
  match d.current with
  | none => ⟨d.members ++ [member], none⟩
  | some (name, given) => ⟨d.members, some (name, given ++ [member])⟩

end Draft

/-- Whether a comment may stand after what has been passed over: only at the start of a line. -/
def startsLine (passed : List Char) : Bool :=
  match passed.getLast? with
  | none => true
  | some c => c == '\n'

/-- The rest of a document, where `fresh` tells whether it is at the start of a line; the number
bounds the lines. -/
def readLines : Nat → Bool → Draft → List Char → Option Draft
  | 0, _, _, _ => none
  | bound + 1, fresh, d, s =>
    let blanks := s.takeWhile Text.isBlank
    let fresh := if blanks = [] then fresh else startsLine blanks
    match s.dropWhile Text.isBlank with
    | [] => some d
    | '[' :: rest =>
      match readSection rest with
      | some (name, rest) => readLines bound false (d.openSection name) rest
      | none => none
    | c :: rest =>
      if c = ';' ∨ c = '#' then
        if fresh then
          readLines bound true d ((rest.dropWhile (· != '\n')).drop 1)
        else none
      else
        match readAssignment (c :: rest) with
        | some (member, rest) => readLines bound false (d.add member) rest
        | none => none

def read (text : String) : Option Json :=
  let s := text.toList
  (readLines (s.length + 1) true .empty s).map fun d => .object (Json.ofMembers d.close)

end TraceSearch.Ini
