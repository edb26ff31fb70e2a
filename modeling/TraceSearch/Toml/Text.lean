import TraceSearch.Text.Reader

/-!
# The characters and strings of TOML

Blanks, line ends and comments, and the four kinds of strings: basic and literal, on one line or
over several. Readers take a text and return what they read with the rest, or nothing where the text
is not of their form.

Source: the strings, blanks and comments of toml.
-/

namespace TraceSearch.Toml

open Text (Reader afterNewline? readCode)

def isBlank (c : Char) : Bool := c == ' ' || c == '\t'

/-- A text from its first character that is not blank. -/
def skipBlank (s : List Char) : List Char := s.dropWhile isBlank

/-- The characters that may stand in comments and strings as they are. -/
def isPlain (c : Char) : Bool := c == '\t' || (' ' ≤ c && c != '\x7f')

/-- A text from its line end on, if nothing but blanks and a comment stands before that. -/
def skipComment (s : List Char) : List Char :=
  match skipBlank s with
  | '#' :: rest => rest.dropWhile isPlain
  | s => s

/-- What follows a line on which nothing but blanks and a comment is left. -/
def readLineEnd (s : List Char) : Option (List Char) :=
  match skipComment s with
  | [] => some []
  | s => afterNewline? s

/-- A text without the blanks, comments and line ends at its start; the number bounds the lines. -/
def skipLines : Nat → List Char → List Char
  | 0, s => s
  | bound + 1, s =>
    match afterNewline? (skipComment s) with
    | some rest => skipLines bound rest
    | none => skipComment s

/-- A text without the blanks, comments and line ends at its start. -/
def skipGap (s : List Char) : List Char := skipLines s.length s

/-- A text without the blanks and line ends at its start; the number bounds the lines. -/
def skipBlankLines : Nat → List Char → List Char
  | 0, s => s
  | bound + 1, s =>
    match afterNewline? (skipBlank s) with
    | some rest => skipBlankLines bound rest
    | none => skipBlank s

def escaped? (c : Char) : Option Char :=
  if c = '"' ∨ c = '\\' then some c
  else if c = 'b' then some '\x08'
  else if c = 't' then some '\t'
  else if c = 'n' then some '\n'
  else if c = 'f' then some '\x0c'
  else if c = 'r' then some '\r'
  else if c = 'e' then some '\x1b'
  else none

def readEscape : Reader Char
  | 'x' :: rest => readCode 2 rest
  | 'u' :: rest => readCode 4 rest
  | 'U' :: rest => readCode 8 rest
  | c :: rest => (escaped? c).map fun e => (e, rest)
  | [] => none

/-- The rest of a basic string on one line; `before` is what has been read, last first, and the
number bounds the characters. -/
def readBasicRest : Nat → List Char → Reader String
  | 0, _, _ => none
  | _ + 1, before, '"' :: rest => some (String.ofList before.reverse, rest)
  | bound + 1, before, '\\' :: rest => do
    let (c, rest) ← readEscape rest
    readBasicRest bound (c :: before) rest
  | bound + 1, before, c :: rest =>
    if isPlain c then readBasicRest bound (c :: before) rest else none
  | _ + 1, _, [] => none

/-- The end of a string over several lines after its three closing quotes: up to two more quotes
belong to the string. -/
def closeLines (quote : Char) (before rest : List Char) : String × List Char :=
  let extra := (rest.takeWhile (· == quote)).take 2
  (String.ofList (before.reverse ++ extra), rest.drop extra.length)

/-- The character or line end at the start of a string over several lines, last character first. -/
def splitLineChar : List Char → Option (List Char × List Char)
  | '\n' :: rest => some (['\n'], rest)
  | '\r' :: '\n' :: rest => some (['\n', '\r'], rest)
  | c :: rest => if isPlain c then some ([c], rest) else none
  | [] => none

/-- The rest of a basic string over several lines. A backslash at the end of a line takes away the
blanks and line ends up to the next character. -/
def readBasicLines : Nat → List Char → Reader String
  | 0, _, _ => none
  | _ + 1, before, '"' :: '"' :: '"' :: rest => some (closeLines '"' before rest)
  | bound + 1, before, '\\' :: rest =>
    match afterNewline? (skipBlank rest) with
    | some after => readBasicLines bound before (skipBlankLines after.length after)
    | none => do
      let (c, rest) ← readEscape rest
      readBasicLines bound (c :: before) rest
  | bound + 1, before, s =>
    match splitLineChar s with
    | some (chars, rest) => readBasicLines bound (chars ++ before) rest
    | none => none

def readLiteralRest (s : List Char) : Option (String × List Char) :=
  match s.dropWhile fun c => isPlain c && c != '\'' with
  | '\'' :: rest => some (String.ofList (s.takeWhile fun c => isPlain c && c != '\''), rest)
  | _ => none

def readLiteralLines : Nat → List Char → Reader String
  | 0, _, _ => none
  | _ + 1, before, '\'' :: '\'' :: '\'' :: rest => some (closeLines '\'' before rest)
  | bound + 1, before, s =>
    match splitLineChar s with
    | some (chars, rest) => readLiteralLines bound (chars ++ before) rest
    | none => none

/-- The text of a string over several lines after its opening quotes; a line end that follows them
does not count. -/
def dropFirstNewline (s : List Char) : List Char := (afterNewline? s).getD s

def readLineString : Reader String
  | '"' :: rest => readBasicRest (rest.length + 1) [] rest
  | '\'' :: rest => readLiteralRest rest
  | _ => none

def readString : Reader String
  | '"' :: '"' :: '"' :: rest => readBasicLines (rest.length + 1) [] (dropFirstNewline rest)
  | '\'' :: '\'' :: '\'' :: rest => readLiteralLines (rest.length + 1) [] (dropFirstNewline rest)
  | s => readLineString s

end TraceSearch.Toml
