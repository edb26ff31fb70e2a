import TraceSearch.Text.Blank

/-!
# The block in a reply

A model often puts its answer between fences of three backticks, with the word `json` after the
first one. The first fence that is followed by a blank, with or without that word, and has a fence
somewhere after it opens the block; without one the whole reply counts. Either way blanks at the
ends are dropped.

Source: `fence` and `parse_json_block`; the leftmost match of its lazy pattern in regex.
-/

namespace TraceSearch.Model

/-- The backtick. -/
def tick : Char := '\x60'

/-- What follows a fence at the start of a text. -/
def afterFence? : List Char → Option (List Char)
  | a :: b :: c :: rest => if a = tick ∧ b = tick ∧ c = tick then some rest else none
  | _ => none

/-- The text before the first fence. -/
def beforeFence? : List Char → Option (List Char)
  | [] => none
  | c :: rest =>
    if (afterFence? (c :: rest)).isSome then some [] else (beforeFence? rest).map (c :: ·)

/-- A text without the word `json` at its start. -/
def dropTag : List Char → List Char
  | 'j' :: 's' :: 'o' :: 'n' :: rest => rest
  | s => s

/-- The body of the block that a fence opens, given what follows the fence. -/
def blockBody? (s : List Char) : Option (List Char) :=
  match dropTag s with
  | [] => none
  | c :: rest =>
    if Text.isBlank c then
      (beforeFence? ((c :: rest).dropWhile Text.isBlank)).map Text.trimEnd
    else none

/-- The body of the first block of a text. -/
def firstBlock? : List Char → Option (List Char)
  | [] => none
  | c :: rest =>
    match (afterFence? (c :: rest)).bind blockBody? with
    | some body => some body
    | none => firstBlock? rest

/-- The block in a reply, or else the whole reply, without blanks at either end. -/
def jsonBlock (reply : String) : String :=
  match firstBlock? reply.toList with
  | some body => String.ofList (Text.trimChars body)
  | none => Text.trim reply

end TraceSearch.Model
