import TraceSearch.Json.Literal

/-!
# Readers

A reader takes something from the start of a text and returns it with the rest, or nothing where the
text is not of its form. The formats of settings files share these.
-/

namespace TraceSearch.Text

/-- What is read from the start of a text, and the rest. -/
abbrev Reader (α : Type) := List Char → Option (α × List Char)

/-- What follows the end of a line, if the text starts with one. -/
def afterNewline? : List Char → Option (List Char)
  | '\n' :: rest => some rest
  | '\r' :: '\n' :: rest => some rest
  | _ => none

def after? (word : List Char) (s : List Char) : Option (List Char) :=
  if word.isPrefixOf s then some (s.drop word.length) else none

/-- The character of a code point, unless it is half of a pair or too large. -/
def charOfCode? (code : Nat) : Option Char :=
  if code < 0xD800 ∨ (0xDFFF < code ∧ code < 0x110000) then some (Char.ofNat code) else none

def hexNumber? (ds : List Char) : Option Nat :=
  ds.foldlM (fun n d => (Json.hexValue? d).map (16 * n + ·)) 0

def charOfHex? (ds : List Char) : Option Char := (hexNumber? ds).bind charOfCode?

/-- The character whose code point is spelled by the next `n` digits. -/
def readCode (n : Nat) : Reader Char := fun s =>
  if (s.take n).length < n then none else (charOfHex? (s.take n)).map fun c => (c, s.drop n)

/-- The value of digits in a base of at most sixteen. -/
def valueInBase (base : Nat) (ds : List Char) : Nat :=
  ds.foldl (fun n d => base * n + (Json.hexValue? d).getD 0) 0

/-- Whether a character is a digit in a base of at most sixteen. -/
def isDigitOf (base : Nat) (c : Char) : Bool := (Json.hexValue? c).any (· < base)

/-- A sign, true for a minus, and what it belongs to. -/
def splitSign : List Char → Bool × List Char
  | '-' :: rest => (true, rest)
  | '+' :: rest => (false, rest)
  | s => (false, s)

def signedInt (negative : Bool) (n : Nat) : Int := if negative then -n else n

/-- Items separated by commas up to a closing character; a comma may follow the last. What `skip`
passes over may stand around an item, and the number bounds the items. -/
def readItems {α : Type} (skip : List Char → List Char) (closing : Char) (item : Reader α) :
    Nat → Reader (List α)
  | 0, _ => none
  | bound + 1, s =>
    match after? [closing] (skip s) with
    | some rest => some ([], rest)
    | none =>
      match item (skip s) with
      | none => none
      | some (x, rest) =>
        match after? [','] (skip rest) with
        | some rest =>
          (readItems skip closing item bound rest).map fun (xs, rest) => (x :: xs, rest)
        | none => (after? [closing] (skip rest)).map fun rest => ([x], rest)

end TraceSearch.Text
