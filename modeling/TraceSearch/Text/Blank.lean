/-!
# Blank characters

The characters Unicode calls white space, and trimming by them. Replies of a language model are
trimmed with this class, which is wider than the four blanks a JSON document may hold.

Source: `SearchExtractor::complete`; the standard library's `trim`, `trim_end` and `is_whitespace`.
-/

namespace TraceSearch.Text

/-- The Unicode `White_Space` class. -/
def isBlank (c : Char) : Bool :=
  let n := c.toNat
  (0x09 ≤ n && n ≤ 0x0D) || n == 0x20 || n == 0x85 || n == 0xA0 || n == 0x1680 ||
    (0x2000 ≤ n && n ≤ 0x200A) || n == 0x2028 || n == 0x2029 || n == 0x202F || n == 0x205F ||
    n == 0x3000

/-- A text without the blanks at its end. -/
def trimEnd (s : List Char) : List Char := (s.reverse.dropWhile isBlank).reverse

/-- A text without the blanks at either end. -/
def trimChars (s : List Char) : List Char := trimEnd (s.dropWhile isBlank)

/-- A text without the blanks at either end. -/
def trim (s : String) : String := String.ofList (trimChars s.toList)

/-- A text of blanks only. -/
def isBlankText (s : String) : Bool := s.toList.all isBlank

end TraceSearch.Text
