import TraceSearch.Text.Reader

/-!
# Places in a YAML text

The structure of a YAML text hangs on lines and columns, so reading it keeps a place: what is left
of the text, the line and column, and whether nothing but blanks stands before it on its line. Line
ends are single line feeds here.

Source: yaml-rust2, its positions in the text.
-/

namespace TraceSearch.Yaml

def isBlank (c : Char) : Bool := c == ' ' || c == '\t'

def isFlowMark (c : Char) : Bool :=
  c == ',' || c == '[' || c == ']' || c == '\x7b' || c == '\x7d'

/-- Whether a text ends or has a blank or a line end first. -/
def isBreak : List Char → Bool
  | [] => true
  | c :: _ => isBlank c || c == '\n'

/-- Whether a line ends where a text starts. -/
def isLineEnd : List Char → Bool
  | [] => true
  | c :: _ => c == '\n'

/-- A place in a text. -/
structure Cursor where
  rest : List Char
  line : Nat
  column : Nat
  offset : Nat
  /-- Whether nothing but blanks stands before the place on its line. -/
  fresh : Bool

namespace Cursor

def ofText (s : List Char) : Cursor := ⟨s, 0, 0, 0, true⟩

def peek (c : Cursor) : Option Char := c.rest.head?

def next (c : Cursor) : Cursor :=
  match c.rest with
  | [] => c
  | '\n' :: rest => ⟨rest, c.line + 1, 0, c.offset + 1, true⟩
  | x :: rest => ⟨rest, c.line, c.column + 1, c.offset + 1, c.fresh && isBlank x⟩

def advance : Nat → Cursor → Cursor
  | 0, c => c
  | n + 1, c => c.next.advance n

def skipWhile (accepts : Char → Bool) (c : Cursor) : Cursor :=
  c.advance (c.rest.takeWhile accepts).length

/-- Whether a mark of three characters that begins or ends a document stands at a place. -/
def atMark (mark : Char) (c : Cursor) : Bool :=
  c.column == 0 && c.rest.take 3 == List.replicate 3 mark && isBreak (c.rest.drop 3)

def atDocumentMark (c : Cursor) : Bool := c.atMark '-' || c.atMark '.'

/-- The place after the blanks and the comment that may stand before the end of a line, and whether
there were spaces and tabs. A comment needs a blank before it. -/
def skipLineGap (tabs : Bool) (c : Cursor) : Option (Cursor × Bool × Bool) :=
  let blanks := c.rest.takeWhile fun x => x == ' ' || (tabs && x == '\t')
  let after := c.advance blanks.length
  let seen := (blanks.contains ' ', blanks.contains '\t')
  match after.peek with
  | some '#' => if blanks = [] then none else some (after.skipWhile (· != '\n'), seen)
  | _ => some (after, seen)

end Cursor

end TraceSearch.Yaml
