import TraceSearch.Yaml.Cursor

/-!
# The scalars of YAML

A scalar is plain, in quotes of either kind, or a block under its own indentation. In the first two
line ends are folded: one becomes a space, and of several all but the first are kept. A block keeps
its lines, or folds those that do not begin with a blank.

Source: yaml-rust2, its plain, quoted and block scalars.
-/

namespace TraceSearch.Yaml

/-- What blanks and line ends between two characters of a scalar stand for. -/
def folded (blanks : List Char) (breaks : Nat) : List Char :=
  if breaks = 0 then blanks else if breaks = 1 then [' '] else List.replicate (breaks - 1) '\n'

/-- The blanks before the first line end and the number of line ends up to the next character. A tab
before column `indent` of a later line must be followed by nothing. -/
def skipFold (indent : Int) : Nat → List Char → Nat → Cursor → Option (List Char × Nat × Cursor)
  | 0, _, _, _ => none
  | bound + 1, blanks, breaks, c =>
    match c.peek with
    | some '\n' => skipFold indent bound blanks (breaks + 1) c.next
    | some x =>
      if !isBlank x then some (blanks.reverse, breaks, c)
      else if breaks = 0 then skipFold indent bound (x :: blanks) 0 c.next
      else if x = '\t' && (c.column : Int) < indent then
        match c.skipLineGap true with
        | some (after, _) =>
          if isLineEnd after.rest then skipFold indent bound blanks breaks after else none
        | none => none
      else skipFold indent bound blanks breaks c.next
    | none => some (blanks.reverse, breaks, c)

/-- The characters of a plain scalar up to a blank, a line end or a mark that ends it. -/
def plainRun (inFlow : Bool) : List Char → List Char
  | [] => []
  | c :: rest =>
    if isBlank c || c == '\n' then []
    else if c = ':' && (isBreak rest || (inFlow && rest.head?.any isFlowMark)) then []
    else if inFlow && isFlowMark c then []
    else c :: plainRun inFlow rest

/-- A plain scalar from `before` on, where `gap` is what stands for the blanks and line ends that
follow it. Outside of brackets each further line must be indented to column `indent`. -/
def readPlain (inFlow : Bool) (indent : Int) : Nat → List Char → List Char → Cursor →
    Option (List Char × Cursor)
  | 0, _, _, _ => none
  | bound + 1, before, gap, c =>
    if c.atDocumentMark || c.peek == some '#' then some (before, c)
    else if inFlow && c.peek == some '-' && (c.rest.drop 1).head?.any isFlowMark then none
    else
      let run := plainRun inFlow c.rest
      let text := if run.isEmpty then before else before ++ gap ++ run
      let after := c.advance run.length
      if after.rest.isEmpty || !isBreak after.rest then some (text, after)
      else
        match skipFold indent (after.rest.length + 1) [] 0 after with
        | none => none
        | some (blanks, breaks, after) =>
          if !inFlow && (after.column : Int) < indent then some (text, after)
          else readPlain inFlow indent bound text (folded blanks breaks) after

def escaped? (c : Char) : Option Char :=
  [('0', '\x00'), ('a', '\x07'), ('b', '\x08'), ('t', '\t'), ('\t', '\t'), ('n', '\n'),
    ('v', '\x0b'), ('f', '\x0c'), ('r', '\r'), ('e', '\x1b'), (' ', ' '), ('"', '"'), ('/', '/'),
    ('\\', '\\'), ('N', '\x85'), ('_', '\xa0'), ('L', '\u2028'), ('P', '\u2029')].lookup c

/-- The character of an escape after its backslash, and how many characters spell it. -/
def readEscape : List Char → Option (Char × Nat)
  | 'x' :: rest => (Text.readCode 2 rest).map fun (c, _) => (c, 3)
  | 'u' :: rest => (Text.readCode 4 rest).map fun (c, _) => (c, 5)
  | 'U' :: rest => (Text.readCode 8 rest).map fun (c, _) => (c, 9)
  | c :: _ => (escaped? c).map fun e => (e, 1)
  | [] => none

/-- The rest of a scalar in quotes; `before` is what has been read, last first. Every line must be
indented to column `indent`. -/
def readQuoted (quote : Char) (indent : Int) : Nat → List Char → Cursor →
    Option (List Char × Cursor)
  | 0, _, _ => none
  | bound + 1, before, c =>
    if c.atDocumentMark || (c.column : Int) < indent then none
    else
      match c.rest with
      | [] => none
      | x :: rest =>
        if x = quote then
          if quote = '\'' && rest.head? == some '\'' then
            readQuoted quote indent bound ('\'' :: before) (c.advance 2)
          else some (before.reverse, c.next)
        else if x = '\\' && quote == '"' then
          if rest.head? == some '\n' then
            match skipFold indent (rest.length + 1) [] 1 (c.advance 2) with
            | some (_, breaks, after) =>
              readQuoted quote indent bound (List.replicate (breaks - 1) '\n' ++ before) after
            | none => none
          else
            match readEscape rest with
            | some (e, n) => readQuoted quote indent bound (e :: before) (c.advance (n + 1))
            | none => none
        else if isBlank x || x == '\n' then
          match skipFold indent (c.rest.length + 1) [] 0 c with
          | some (blanks, breaks, after) =>
            readQuoted quote indent bound ((folded blanks breaks).reverse ++ before) after
          | none => none
        else readQuoted quote indent bound (x :: before) c.next

/-- What is done with the line ends after the last line of a block: all but one are dropped, all are
kept or all are dropped. -/
inductive Chomping where
  | clip | keep | strip
deriving DecidableEq

def Chomping.ofChar? (c : Char) : Option Chomping :=
  if c = '+' then some keep else if c = '-' then some strip else none

/-- The marks of a block after its first: the chomping and how far it is indented, in either order,
and how many characters they take. -/
def readBlockMarks (s : List Char) : Option (Chomping × Nat × Nat) :=
  let chomping (s : List Char) : Option Chomping := s.head?.bind Chomping.ofChar?
  let depth (s : List Char) : Option Nat :=
    s.head?.bind fun d => if d.isDigit then some (d.toNat - '0'.toNat) else none
  match chomping s, depth s with
  | some k, _ =>
    match depth (s.drop 1) with
    | some n => if n = 0 then none else some (k, n, 2)
    | none => some (k, 0, 1)
  | none, some n =>
    if n = 0 then none
    else
      match chomping (s.drop 1) with
      | some k => some (k, n, 2)
      | none => some (.clip, n, 1)
  | none, none => some (.clip, 0, 0)

/-- The place after the indentation of a block's next line, and the number of empty lines before it.
-/
def skipIndent (indent : Nat) : Nat → Nat → Cursor → Nat × Cursor
  | 0, breaks, c => (breaks, c)
  | bound + 1, breaks, c =>
    let spaces := (c.rest.takeWhile (· == ' ')).length
    let after := c.advance (min spaces (indent - c.column))
    if after.peek == some '\n' then skipIndent indent bound (breaks + 1) after.next
    else (breaks, after)

/-- The first line of a block that is not empty: the number of empty lines before it, the greatest
indentation so far, and the place after its indentation. -/
def findIndent : Nat → Nat → Nat → Cursor → Nat × Nat × Cursor
  | 0, breaks, greatest, c => (breaks, greatest, c)
  | bound + 1, breaks, greatest, c =>
    let after := c.skipWhile (· == ' ')
    let greatest := max greatest after.column
    if after.peek == some '\n' then findIndent bound (breaks + 1) greatest after.next
    else (breaks, greatest, after)

/-- What a block has given so far. -/
structure BlockState where
  text : List Char
  /-- Whether a line end follows the text. -/
  ended : Bool
  /-- The number of empty lines after it. -/
  empties : Nat
  /-- Whether the last line began with a blank. -/
  blank : Bool

def readBlockLines (literal : Bool) (indent : Nat) : Nat → BlockState → Cursor →
    BlockState × Cursor
  | 0, b, c => (b, c)
  | bound + 1, b, c =>
    if c.column ≠ indent ∨ c.rest = [] then (b, c)
    else if indent = 0 && c.atMark '.' then (b, c)
    else
      let line := c.rest.takeWhile (· != '\n')
      let blank := line.head?.any isBlank
      let empties := List.replicate b.empties '\n'
      let gap :=
        if !literal && b.ended && !b.blank && !blank then
          if b.empties = 0 then [' '] else empties
        else (if b.ended then ['\n'] else []) ++ empties
      let text := b.text ++ gap ++ line
      let after := c.advance line.length
      if after.rest.isEmpty then (⟨text, false, 0, blank⟩, after)
      else
        let (empties, after) := skipIndent indent (after.rest.length + 1) 0 after.next
        readBlockLines literal indent bound ⟨text, true, empties, blank⟩ after

/-- A block after its first mark, in a collection indented to column `parent`. -/
def readBlock (literal : Bool) (parent : Int) (start : Cursor) :
    Option (List Char × Cursor) := do
  let (chomping, depth, n) ← readBlockMarks start.rest
  let (c, _) ← (start.advance n).skipLineGap true
  if !isLineEnd c.rest then none
  let broken := c.peek == some '\n'
  let c := c.next
  if c.peek == some '\t' then none
  let (empties, indent, c) :=
    if 0 < depth then
      let indent := if 0 ≤ parent then parent.toNat + depth else depth
      let (empties, c) := skipIndent indent (c.rest.length + 1) 0 c
      (empties, indent, c)
    else
      let (empties, greatest, c) := findIndent (c.rest.length + 1) 0 0 c
      let indent := max greatest (parent + 1).toNat
      (empties, if 0 < parent then max indent 1 else indent, c)
  if c.rest.isEmpty then
    if chomping = .strip || !broken then some ([], c)
    else if chomping = .keep && 0 < empties then some (List.replicate empties '\n', c)
    else some (['\n'], c)
  else if c.column < indent && parent < (c.column : Int) then none
  else
    let (b, c) := readBlockLines literal indent (c.rest.length + 1) ⟨[], false, empties, false⟩ c
    let last := if b.ended then ['\n'] else []
    let final := if c.rest.isEmpty && max indent 1 ≤ c.column then ['\n'] else []
    match chomping with
    | .strip => some (b.text, c)
    | .clip => some (b.text ++ last ++ final, c)
    | .keep => some (b.text ++ last ++ final ++ List.replicate b.empties '\n', c)

end TraceSearch.Yaml
