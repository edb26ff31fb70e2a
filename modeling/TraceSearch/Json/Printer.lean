import TraceSearch.Decimal.Integer
import TraceSearch.Decimal.Layout
import TraceSearch.Json.Basic

/-!
# Writing values

A value is written compactly, without blanks, or spread over lines with two blanks of indentation
for every level. Members are written in the order of the list that holds them.

Source: `to_string` and `to_string_pretty` of serde_json.
-/

namespace TraceSearch.Json

/-- A character as it stands in a string: a quote, a backslash and the controls are escaped. -/
def escapedChar (c : Char) : List Char :=
  if c = '"' then ['\\', '"']
  else if c = '\\' then ['\\', '\\']
  else if c = '\x08' then ['\\', 'b']
  else if c = '\x0c' then ['\\', 'f']
  else if c = '\n' then ['\\', 'n']
  else if c = '\r' then ['\\', 'r']
  else if c = '\t' then ['\\', 't']
  else if c < ' ' then ['\\', 'u', '0', '0'] ++ (Nat.toDigits 16 c.toNat).leftpad 2 '0'
  else [c]

def stringText (s : String) : List Char := '"' :: s.toList.flatMap escapedChar ++ ['"']

def Number.text : Number → List Char
  | .integer n => Decimal.integerText n
  | .real x => Decimal.documentText x

/-- The texts of elements or members between brackets, without blanks. -/
def bracketed (opening closing : Char) (parts : List (List Char)) : List Char :=
  opening :: List.intercalate [','] parts ++ [closing]

mutual

/-- A value without blanks. -/
def compactText : Json → List Char
  | null => ['n', 'u', 'l', 'l']
  | bool true => ['t', 'r', 'u', 'e']
  | bool false => ['f', 'a', 'l', 's', 'e']
  | number n => n.text
  | string s => stringText s
  | array items => bracketed '[' ']' (compactItems items)
  | object members => bracketed '\x7b' '\x7d' (compactMembers members)

def compactItems : List Json → List (List Char)
  | [] => []
  | item :: rest => compactText item :: compactItems rest

def compactMembers : List (String × Json) → List (List Char)
  | [] => []
  | (name, value) :: rest => (stringText name ++ ':' :: compactText value) :: compactMembers rest

end

def compact (j : Json) : String := String.ofList (compactText j)

def newLine (level : Nat) : List Char := '\n' :: List.replicate (2 * level) ' '

/-- The texts of elements or members between brackets, each on a line of its own. -/
def spread (level : Nat) (opening closing : Char) (parts : List (List Char)) : List Char :=
  if parts.isEmpty then [opening, closing]
  else
    opening :: newLine (level + 1) ++ List.intercalate (',' :: newLine (level + 1)) parts ++
      newLine level ++ [closing]

mutual

def prettyText (level : Nat) : Json → List Char
  | array items => spread level '[' ']' (prettyItems (level + 1) items)
  | object members => spread level '\x7b' '\x7d' (prettyMembers (level + 1) members)
  | j => compactText j

def prettyItems (level : Nat) : List Json → List (List Char)
  | [] => []
  | item :: rest => prettyText level item :: prettyItems level rest

def prettyMembers (level : Nat) : List (String × Json) → List (List Char)
  | [] => []
  | (name, value) :: rest =>
    (stringText name ++ [':', ' '] ++ prettyText level value) :: prettyMembers level rest

end

def pretty (j : Json) : String := String.ofList (prettyText 0 j)

end TraceSearch.Json
