import TraceSearch.Decimal.Layout
import TraceSearch.Decimal.Real
import TraceSearch.Settings.Basic
import TraceSearch.Settings.Layer

/-!
# Settings from values

A setting is of one type, and the scalars of other types that have a meaning there are converted:
truth values count as one and zero, and words for them and numbers in text are understood. A section
is an object, or an array with its settings in their order; what a section does not mention keeps
its default, and what it does not know is ignored.

Source: `Config`; config's conversions of values, and the decoders that serde derives.
-/

namespace TraceSearch.Settings

def wordValue? (text : String) : Option Bool :=
  let word := String.ofList (text.toList.map Char.toLower)
  if word = "true" ∨ word = "on" ∨ word = "yes" then some true
  else if word = "false" ∨ word = "off" ∨ word = "no" then some false
  else none

def toText? : Json → Option String
  | .string s => some s
  | .bool b => some (if b then "true" else "false")
  | .number n =>
    match n with
    | .integer n => some (Decimal.integer n)
    | .real x => some (String.ofList (Decimal.plainText x))
  | .null | .array _ | .object _ => none

/-- A setting as a natural number of 64 bits. A double is rounded, and kept within range. -/
def toNat? : Json → Option Nat
  | .string s =>
    match wordValue? s with
    | some b => some b.toNat
    | none => ((Decimal.Range.unsigned64.read s).toOption).map Int.toNat
  | .bool b => some b.toNat
  | .number n =>
    match n with
    | .integer n => if n < 0 then none else some n.toNat
    | .real x => some (Decimal.saturateUnsigned64 x)
  | .null | .array _ | .object _ => none

/-- A setting as a natural number of 32 bits. -/
def toNat32? (j : Json) : Option Nat :=
  (toNat? j).filter fun n => Decimal.Range.unsigned32.contains n

def toFloat? : Json → Option Float
  | .string s =>
    match wordValue? s with
    | some b => some (if b then 1 else 0)
    | none => Decimal.readFloat? s
  | .bool b => some (if b then 1 else 0)
  | .number n =>
    match n with
    | .integer n => some (Decimal.floatOfInt n)
    | .real x => some x
  | .null | .array _ | .object _ => none

/-- A setting of a section: its name and how its value changes the settings. -/
structure Entry where
  name : String
  set : Settings → Json → Option Settings

def Entry.of {α : Type} (name : String) (convert : Json → Option α)
    (put : Settings → α → Settings) : Entry :=
  ⟨name, fun s j => (convert j).map (put s)⟩

def onModel {α : Type} (put : Model.ModelSettings → α → Model.ModelSettings) (s : Settings)
    (x : α) : Settings :=
  { s with model := put s.model x }

/-- A section: its name and its settings in their order. -/
structure Section where
  name : String
  entries : List Entry

def sections : List Section :=
  [⟨"llm",
    [.of "provider" toText? (onModel fun m x => { m with provider := x }),
      .of "model" toText? (onModel fun m x => { m with model := x }),
      .of "endpoint" toText? (onModel fun m x => { m with endpoint := x }),
      .of "temperature" toFloat? (onModel fun m x => { m with temperature := x }),
      .of "max_tokens" toNat32? (onModel fun m x => { m with maxTokens := x }),
      .of "timeout_secs" toNat? (onModel fun m x => { m with timeout := x })]⟩,
    ⟨"corpus", [.of "path" toText? fun s x => { s with corpusPath := x }]⟩,
    ⟨"search", [.of "max_results" toNat? fun s x => { s with maxResults := x }]⟩]

/-- Settings with one of them set; `key` is its full name. -/
def setEntry (key : String) (entry : Entry) (s : Settings) (value : Json) :
    Except SettingsError Settings :=
  match entry.set s value with
  | some s => .ok s
  | none => .error (.wrongType key)

def setMembers (name : String) (ms : List (String × Json)) :
    List Entry → Settings → Except SettingsError Settings
  | [], s => .ok s
  | entry :: rest, s =>
    match Json.lookup entry.name ms with
    | none => setMembers name ms rest s
    | some value =>
      match setEntry (name ++ "." ++ entry.name) entry s value with
      | .error e => .error e
      | .ok s => setMembers name ms rest s

/-- Settings with those that the elements of a section give; `index` counts them. -/
def setElements (name : String) (index : Nat) :
    List Entry → List Json → Settings → Except SettingsError Settings
  | entry :: entries, item :: items, s =>
    match setEntry (name ++ "[" ++ Decimal.integer index ++ "]") entry s item with
    | .error e => .error e
    | .ok s => setElements name (index + 1) entries items s
  | _, _, s => .ok s

def setSection (ms : List (String × Json)) (s : Settings) (sec : Section) :
    Except SettingsError Settings :=
  match Json.lookup sec.name ms with
  | none => .ok s
  | some (.object inner) => setMembers sec.name inner sec.entries s
  | some (.array items) => setElements sec.name 0 sec.entries items s
  | some _ => .error (.wrongType sec.name)

def ofJson (j : Json) : Except SettingsError Settings :=
  sections.foldlM (setSection (members j)) defaults

end TraceSearch.Settings
