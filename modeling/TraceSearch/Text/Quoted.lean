import TraceSearch.Text.Hidden

/-!
# Quoted text in messages

A text quoted in a message stands between double quotes. A quote and a backslash are escaped with a
backslash, so are tab, line feed, carriage return and the null character, and every other character
that does not show is written by its code point.

Source: the standard library's debug strings.
-/

namespace TraceSearch.Text

def hexCode (c : Char) : List Char := Nat.toDigits 16 c.toNat

def quotedChar (c : Char) : List Char :=
  if c = '"' ∨ c = '\\' then ['\\', c]
  else if c = '\t' then ['\\', 't']
  else if c = '\n' then ['\\', 'n']
  else if c = '\r' then ['\\', 'r']
  else if c = '\x00' then ['\\', '0']
  else if isHidden c then ['\\', 'u', '\x7b'] ++ hexCode c ++ ['\x7d']
  else [c]

def quoted (s : String) : String := String.ofList ('"' :: s.toList.flatMap quotedChar ++ ['"'])

end TraceSearch.Text
