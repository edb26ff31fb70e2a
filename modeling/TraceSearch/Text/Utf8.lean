/-!
# Text in bytes

Bytes are read as UTF-8 either strictly or with replacement. With replacement every maximal part of
a sequence that cannot be completed becomes one replacement character, and reading goes on at the
byte that broke it.

Source: the standard library's `from_utf8` and `from_utf8_lossy`.
-/

namespace TraceSearch.Text

/-- The text that bytes encode, if they are well formed. -/
def ofUtf8? (bytes : ByteArray) : Option String := String.fromUTF8? bytes

def utf8 (s : String) : ByteArray := s.toUTF8

/-- The number of bytes after a first byte, and the range of the second, if the byte may come first.
-/
def sequenceShape (first : Nat) : Option (Nat × Nat × Nat) :=
  if first < 0x80 then some (0, 0x80, 0xBF)
  else if 0xC2 ≤ first ∧ first ≤ 0xDF then some (1, 0x80, 0xBF)
  else if first = 0xE0 then some (2, 0xA0, 0xBF)
  else if first = 0xED then some (2, 0x80, 0x9F)
  else if 0xE1 ≤ first ∧ first ≤ 0xEF then some (2, 0x80, 0xBF)
  else if first = 0xF0 then some (3, 0x90, 0xBF)
  else if 0xF1 ≤ first ∧ first ≤ 0xF3 then some (3, 0x80, 0xBF)
  else if first = 0xF4 then some (3, 0x80, 0x8F)
  else none

/-- The bits a first byte gives to its character, by the number of bytes after it. -/
def leadingBits (tail first : Nat) : Nat :=
  if tail = 0 then first
  else if tail = 1 then first % 0x20
  else if tail = 2 then first % 0x10
  else first % 0x08

/-- The state between two bytes: what the sequence under way has given so far, how many bytes it
still needs and the range of the next one. -/
structure Utf8State where
  code : Nat
  missing : Nat
  least : Nat
  greatest : Nat

/-- The characters of a text that starts with a byte which begins a sequence, if it may. -/
def beginSequence (byte : Nat) : Utf8State × List Char :=
  match sequenceShape byte with
  | none => (⟨0, 0, 0, 0⟩, ['\ufffd'])
  | some (0, _, _) => (⟨0, 0, 0, 0⟩, [Char.ofNat byte])
  | some (tail, least, greatest) => (⟨leadingBits tail byte, tail, least, greatest⟩, [])

/-- One byte in a state, with the characters that it completes. -/
def stepUtf8 (state : Utf8State) (byte : Nat) : Utf8State × List Char :=
  if state.missing = 0 then beginSequence byte
  else if state.least ≤ byte ∧ byte ≤ state.greatest then
    let code := state.code * 64 + byte % 64
    if state.missing = 1 then (⟨0, 0, 0, 0⟩, [Char.ofNat code])
    else (⟨code, state.missing - 1, 0x80, 0xBF⟩, [])
  else
    let (next, chars) := beginSequence byte
    (next, '\ufffd' :: chars)

/-- The characters of bytes read with replacement; `before` is what has been read, last first. -/
def decodeLossy (state : Utf8State) (before : List Char) : List UInt8 → List Char
  | [] => if state.missing = 0 then before.reverse else ('\ufffd' :: before).reverse
  | byte :: rest =>
    let (next, chars) := stepUtf8 state byte.toNat
    decodeLossy next (chars.reverse ++ before) rest

def ofUtf8Lossy (bytes : ByteArray) : String :=
  String.ofList (decodeLossy ⟨0, 0, 0, 0⟩ [] bytes.data.toList)

end TraceSearch.Text
