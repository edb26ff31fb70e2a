import TraceSearch.Yaml.Scalar

/-!
# The tokens of YAML

A text is cut into tokens that tell its structure: the marks of brackets and of keys and values, and
for blocks a token where a list or a map begins or ends by its indentation. A key is known by the
colon after it, so the token that announces it is put in later, where a key could have begun.

Source: yaml-rust2, its scanner.
-/

namespace TraceSearch.Yaml

/-- A token. -/
inductive Token where
  | directive | documentStart | documentEnd
  | listStart | mapStart | blockEnd
  | flowListStart | flowListEnd | flowMapStart | flowMapEnd
  | entry | comma | key | value
  | anchor (name : String)
  | alias (name : String)
  /-- A tag, with its name where that is one of the common ones. -/
  | tag (common : Option String)
  | plain (text : String)
  | text (text : String)
deriving DecidableEq

/-- A place where a key may have begun. -/
structure PossibleKey where
  possible : Bool
  /-- Whether nothing but a key may stand there. -/
  required : Bool
  token : Nat
  line : Nat
  column : Nat
  offset : Nat

def PossibleKey.absent : PossibleKey := ⟨false, false, 0, 0, 0, 0⟩

/-- An indentation that is in force inside another one. -/
structure Indent where
  /-- The indentation around it. -/
  outer : Int
  /-- Whether it belongs to a list or a map, which ends with it. -/
  ends : Bool

/-- The state between two tokens. -/
structure Scanner where
  cursor : Cursor
  tokens : Array Token
  keyAllowed : Bool
  /-- Where a key may have begun, in the innermost brackets first. -/
  keys : List PossibleKey
  indent : Int
  /-- The indentations in force, the innermost first. -/
  indents : List Indent
  /-- How many brackets are open. -/
  depth : Nat
  /-- Where a colon may follow without a blank after it. -/
  adjacent : Option Nat

namespace Scanner

def ofText (s : List Char) : Scanner := ⟨.ofText s, #[], true, [.absent], -1, [], 0, none⟩

def push (s : Scanner) (t : Token) : Scanner := { s with tokens := s.tokens.push t }

def allowKey (s : Scanner) (allowed : Bool) : Scanner := { s with keyAllowed := allowed }

def advance (s : Scanner) (n : Nat) : Scanner := { s with cursor := s.cursor.advance n }

/-- Passes over the blanks and the comment before the end of a line. -/
def skipLineGap (s : Scanner) : Option Scanner :=
  (s.cursor.skipLineGap true).map fun (c, _) => { s with cursor := c }

def insert (s : Scanner) (position : Nat) (t : Token) : Scanner :=
  { s with
    tokens := s.tokens.extract 0 position ++ #[t] ++ s.tokens.extract position s.tokens.size }

/-- Remembers that a key may begin here. -/
def saveKey (s : Scanner) : Scanner :=
  if s.keyAllowed then
    let required :=
      s.depth == 0 && s.indent == (s.cursor.column : Int) && s.indents.head?.any Indent.ends
    let c := s.cursor
    { s with keys := ⟨true, required, s.tokens.size, c.line, c.column, c.offset⟩ :: s.keys.drop 1 }
  else s

/-- Forgets the key that may have begun in the innermost brackets. -/
def forgetKey (s : Scanner) : Option Scanner :=
  match s.keys with
  | k :: keys =>
    if k.possible && k.required then none
    else some { s with keys := { k with possible := false } :: keys }
  | [] => some s

/-- Whether a key can no longer have begun at a place: it must end on its line and within 1024
characters. -/
def isStale (s : Scanner) (k : PossibleKey) : Bool :=
  k.possible && s.depth == 0 && (k.line < s.cursor.line || k.offset + 1024 < s.cursor.offset)

/-- Forgets the keys that can no longer have begun. -/
def forgetStale (s : Scanner) : Option Scanner :=
  if s.keys.any fun k => s.isStale k && k.required then none
  else
    let forget (k : PossibleKey) : PossibleKey := { k with possible := k.possible && !s.isStale k }
    some { s with keys := s.keys.map forget }

/-- Ends indentations, the innermost first, as long as they lie beyond a column. -/
def unrolled (column : Int) : Int → List Indent → Array Token → Int × List Indent × Array Token
  | indent, [], tokens => (indent, [], tokens)
  | indent, i :: rest, tokens =>
    if column < indent then
      unrolled column i.outer rest (if i.ends then tokens.push .blockEnd else tokens)
    else (indent, i :: rest, tokens)

/-- Ends the lists and maps that are indented beyond a column. -/
def unroll (s : Scanner) (column : Int) : Scanner :=
  if 0 < s.depth then s
  else
    let (indent, indents, tokens) := unrolled column s.indent s.indents s.tokens
    { s with indent := indent, indents := indents, tokens := tokens }

/-- Ends the indentations that belong to no list or map, up to the first that does. -/
def unrollSoft : Int → List Indent → Int × List Indent
  | indent, [] => (indent, [])
  | indent, i :: rest => if i.ends then (indent, i :: rest) else unrollSoft i.outer rest

/-- Drops the innermost indentations that belong to no list or map. -/
def dropSoft (s : Scanner) : Scanner :=
  let (indent, indents) := unrollSoft s.indent s.indents
  { s with indent := indent, indents := indents }

/-- Begins a list or a map at a column, unless one is under way there. -/
def roll (s : Scanner) (column : Nat) (position : Nat) (t : Token) : Scanner :=
  if 0 < s.depth then s
  else
    let here : Int := column
    let s : Scanner := match s.indents with
      | i :: rest =>
        if s.indent ≤ here && !i.ends then { s with indent := i.outer, indents := rest } else s
      | [] => s
    if s.indent < here then
      { s.insert position t with indent := here, indents := ⟨s.indent, true⟩ :: s.indents }
    else s

/-- Demands that what belongs to an entry is indented by one more column. -/
def rollOne (s : Scanner) : Scanner :=
  if s.depth = 0 && s.indents.head?.any Indent.ends then
    { s with indent := s.indent + 1, indents := ⟨s.indent, false⟩ :: s.indents }
  else s

/-- Passes over blanks, comments and line ends up to the next token; the number bounds them. A tab
may not stand where the indentation of a line is looked for. -/
def skipGap : Nat → Scanner → Option Scanner
  | 0, s => some s
  | bound + 1, s =>
    let c := s.cursor
    match c.peek with
    | some '\n' =>
      skipGap bound { s with cursor := c.next, keyAllowed := s.keyAllowed || s.depth == 0 }
    | some '#' => skipGap bound { s with cursor := c.skipWhile (· != '\n') }
    | some ' ' => skipGap bound (s.advance 1)
    | some '\t' =>
      if !s.indents.isEmpty && c.fresh && (c.column : Int) < s.indent then
        match s.skipLineGap with
        | some s => if isLineEnd s.cursor.rest then skipGap bound s else none
        | none => none
      else skipGap bound (s.advance 1)
    | _ => some s

def finish (s : Scanner) : Option Scanner :=
  if s.keys.any fun k => k.possible && k.required then none
  else some { s.unroll (-1) with keys := [.absent] }

def readDocumentMark (s : Scanner) (t : Token) : Option Scanner := do
  let s ← (s.unroll (-1)).forgetKey
  let s := ((s.allowKey false).advance 3).push t
  if t = .documentEnd then
    let s ← s.skipLineGap
    if isLineEnd s.cursor.rest then some s else none
  else some s

/-- A directive, whose text is passed over. -/
def readDirective (s : Scanner) : Option Scanner := do
  let s ← (s.unroll (-1)).forgetKey
  let s := (s.allowKey false).push .directive
  return { s with cursor := s.cursor.skipWhile (· != '\n') }

def openBracket (s : Scanner) (t : Token) : Option Scanner :=
  let s := s.saveKey
  let s := { s with keys := .absent :: s.keys, depth := s.depth + 1, keyAllowed := true }
  ((s.advance 1).push t).skipLineGap

def closeBracket (s : Scanner) (t : Token) : Option Scanner := do
  let s ← s.forgetKey
  let keys := if s.keys.length = 1 then s.keys else s.keys.drop 1
  let s := { s with keys := keys, depth := s.depth - 1, keyAllowed := false }
  let s ← ((s.advance 1).push t).skipLineGap
  return if 0 < s.depth then { s with adjacent := some s.cursor.offset } else s

def readComma (s : Scanner) : Option Scanner := do
  let s ← s.forgetKey
  (((s.allowKey true).advance 1).push .comma).skipLineGap

def readEntry (s : Scanner) : Option Scanner := do
  if 0 < s.depth || !s.keyAllowed then none
  let column := s.cursor.column
  let s := (s.advance 1).roll column s.tokens.size .listStart
  let (c, _, tab) ← s.cursor.skipLineGap true
  if tab && c.peek == some '-' && isBreak (c.rest.drop 1) then none
  let s := { s with cursor := c }
  let s := if c.peek.any fun x => x == '\n' || isFlowMark x then s.rollOne else s
  let s ← s.forgetKey
  return (s.allowKey true).push .entry

/-- The question mark of a key that may be of any kind. -/
def readKeyMark (s : Scanner) : Option Scanner := do
  if s.depth = 0 && !s.keyAllowed then none
  let s := if s.depth = 0 then s.roll s.cursor.column s.tokens.size .mapStart else s
  let s ← s.forgetKey
  let s := ((s.allowKey (s.depth == 0)).advance 1).push .key
  let (c, _) ← s.cursor.skipLineGap false
  if c.peek == some '\t' then none
  return { s with cursor := c }

/-- Whether the colon of a value is followed by tabs alone and then by what begins a block. -/
def followsTab (c : Cursor) : Bool :=
  match c.peek, c.skipLineGap true with
  | some '\t', some (after, space, _) => !space && after.peek.any fun x => x == '-' || x.isAlpha
  | _, _ => false

/-- The colon of a value. The key before it is announced where it began. -/
def readValueMark (s : Scanner) : Option Scanner := do
  let start := s.cursor
  let s := s.advance 1
  if followsTab s.cursor then none
  match s.keys with
  | k :: keys =>
    if k.possible then
      let s := (s.insert k.token .key).roll k.column k.token .mapStart
      let s := { s.rollOne with keys := { k with possible := false } :: keys, keyAllowed := false }
      return s.push .value
    else if s.depth = 0 then
      if !s.keyAllowed then none
      return ((s.roll start.column s.tokens.size .mapStart).rollOne.allowKey true).push .value
    else return (s.allowKey false).push .value
  | [] => none

def readAnchor (s : Scanner) (t : String → Token) : Option Scanner :=
  let s := s.saveKey.allowKey false
  let name := (s.cursor.rest.drop 1).takeWhile fun c => !isBlank c && c != '\n' && !isFlowMark c
  if name.isEmpty then none
  else some ((s.advance (name.length + 1)).push (t (String.ofList name)))

def readTag (s : Scanner) : Option Scanner :=
  let s := s.saveKey.allowKey false
  let inFlow := 0 < s.depth
  let text := s.cursor.rest.takeWhile fun c => !isBlank c && c != '\n' && !(inFlow && isFlowMark c)
  let common := (Text.after? ['!', '!'] text).map String.ofList
  some ((s.advance text.length).push (.tag common))

def readBlockScalar (s : Scanner) (literal : Bool) : Option Scanner := do
  let s := (s.saveKey.allowKey true).advance 1
  let s := s.dropSoft
  let (text, c) ← readBlock literal s.indent s.cursor
  return { s.push (.text (String.ofList text)) with cursor := c }

/-- Whether a character may follow a scalar in quotes that began on a line. -/
def mayFollow (s : Scanner) (line : Nat) : List Char → Bool
  | [] => true
  | c :: _ =>
    c == '\n' || (c == ':' && (0 < s.depth || line == s.cursor.line)) ||
      ((c == ',' || c == ']' || c == '\x7d') && 0 < s.depth)

def readQuotedScalar (s : Scanner) (quote : Char) : Option Scanner := do
  let s := s.saveKey.allowKey false
  let c := s.cursor.next
  let (text, c) ← readQuoted quote s.indent (c.rest.length + 1) [] c
  let line := s.cursor.line
  let s ← { s with cursor := c }.skipLineGap
  if !s.mayFollow line s.cursor.rest then none
  let s ← s.skipGap (s.cursor.rest.length + 1)
  return { s.push (.text (String.ofList text)) with adjacent := some s.cursor.offset }

def readPlainScalar (s : Scanner) : Option Scanner := do
  let s := (s.saveKey.allowKey false).dropSoft
  let indent := s.indent + 1
  let inFlow := 0 < s.depth
  if inFlow && (s.cursor.column : Int) < indent then none
  let (text, c) ← readPlain inFlow indent (s.cursor.rest.length + 1) [] [] s.cursor
  if text.isEmpty then none
  return { s.push (.plain (String.ofList text)) with cursor := c, keyAllowed := c.fresh }

/-- The next token, at a place where one begins. -/
def readToken (s : Scanner) (first : Char) (rest : List Char) : Option Scanner :=
  let block := s.depth == 0
  let colon := isBreak rest || (!block &&
    (rest.head?.any isFlowMark || s.adjacent == some s.cursor.offset))
  if first = '[' then s.openBracket .flowListStart
  else if first = '\x7b' then s.openBracket .flowMapStart
  else if first = ']' then s.closeBracket .flowListEnd
  else if first = '\x7d' then s.closeBracket .flowMapEnd
  else if first = ',' then s.readComma
  else if first = '-' && isBreak rest then s.readEntry
  else if first = '?' && isBreak rest then s.readKeyMark
  else if first = ':' && colon then s.readValueMark
  else if first = '*' then s.readAnchor .alias
  else if first = '&' then s.readAnchor .anchor
  else if first = '!' then s.readTag
  else if first = '|' && block then s.readBlockScalar true
  else if first = '>' && block then s.readBlockScalar false
  else if first = '\'' ∨ first = '"' then s.readQuotedScalar first
  else if first = '%' ∨ first = '@' ∨ first = '\x60' then none
  else s.readPlainScalar

/-- What stands at the place that has been reached: nothing, a mark at the start of a line, or a
token that is indented as it must be. -/
def readNext (s : Scanner) : Option (Bool × Scanner) := do
  let s ← (← s.skipGap (s.cursor.rest.length + 1)).forgetStale
  let s := s.unroll s.cursor.column
  let c := s.cursor
  match c.rest with
  | [] => (s.finish).map fun s => (true, s)
  | first :: rest =>
    if c.column == 0 && first == '%' then s.readDirective.map fun s => (false, s)
    else if c.atMark '-' then (s.readDocumentMark .documentStart).map fun s => (false, s)
    else if c.atMark '.' then (s.readDocumentMark .documentEnd).map fun s => (false, s)
    else if (c.column : Int) < s.indent then none
    else (s.readToken first rest).map fun s => (false, s)

/-- All tokens from a state on; the number bounds them. -/
def readAll : Nat → Scanner → Option (Array Token)
  | 0, _ => none
  | bound + 1, s =>
    match s.readNext with
    | none => none
    | some (true, s) => some s.tokens
    | some (false, s) => readAll bound s

end Scanner

/-- A text with single line feeds as its line ends. -/
def normalized : List Char → List Char
  | [] => []
  | '\r' :: '\n' :: rest => '\n' :: normalized rest
  | '\r' :: rest => '\n' :: normalized rest
  | c :: rest => c :: normalized rest

def Token.ofText? (text : String) : Option (List Token) :=
  let s := normalized text.toList
  (Scanner.readAll (s.length + 2) (.ofText s)).map Array.toList

end TraceSearch.Yaml
