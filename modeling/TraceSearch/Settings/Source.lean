import TraceSearch.Host.File
import TraceSearch.Ini.Reader
import TraceSearch.Json.Reader
import TraceSearch.Json5.Reader
import TraceSearch.Ron.Reader
import TraceSearch.Settings.Conversion
import TraceSearch.Text.Utf8
import TraceSearch.Toml.Document
import TraceSearch.Yaml.Document

/-!
# Sources of settings

The defaults come first, then a file in a format that its name tells, and last the environment,
where a variable such as `TRAWL__SEARCH__MAX_RESULTS` names a setting in either case of letters. A
file that is named must exist; the one in the default place need not.

Source: `Config::load` and `config_path`; config's files by ending, and its environment.
-/

namespace TraceSearch.Settings

abbrev Environment := List (String × String)

/-- How the names of variables for settings begin, in lower case. -/
def variableStem : List Char := "trawl__".toList

/-- A name with every two underscores turned into a point. -/
def dotted : List Char → List Char
  | '_' :: '_' :: rest => '.' :: dotted rest
  | c :: rest => c :: dotted rest
  | [] => []

/-- A character in lower case. Of those beyond ASCII the Kelvin sign alone has a letter of ASCII as
its lower case, so no other matters to the name of a setting. -/
def lowerCase (c : Char) : Char := if c = '\u212a' then 'k' else c.toLower

/-- The key of the setting that a variable names. -/
def keyOfVariable? (name : String) : Option String :=
  let lower := name.toList.map lowerCase
  if variableStem.isPrefixOf lower then
    some (String.ofList (dotted (lower.drop variableStem.length)))
  else none

/-- The value of a variable: a truth value, an integer or a double if it reads as one. -/
def ofVariable (text : String) : Json :=
  let word := String.ofList (text.toList.map Char.toLower)
  if word = "true" then .bool true
  else if word = "false" then .bool false
  else
    match Decimal.Range.signed64.read text, Decimal.readFloat? text with
    | .ok n, _ => .int n
    | .error _, some x => .number (.real x)
    | .error _, none => .string text

def ofEnvironment (environment : Environment) : List (String × Json) :=
  environment.filterMap fun (name, text) =>
    (keyOfVariable? name).map fun key => (key, ofVariable text)

/-- The formats of files. -/
inductive Format where
  | toml | json | yaml | ini | ron | json5
deriving DecidableEq

def formats : List (String × Format) :=
  [("toml", .toml), ("json", .json), ("yaml", .yaml), ("yml", .yaml), ("ini", .ini), ("ron", .ron),
    ("json5", .json5)]

/-- The ending of a file's name, after its last point, which may not be the first character. -/
def ending? (path : String) : Option String :=
  let name := (path.toList.reverse.takeWhile (· != '/'))
  let last := name.takeWhile (· != '.')
  if last.length + 1 < name.length then some (String.ofList last.reverse) else none

def Format.ofPath? (path : String) : Option Format :=
  (ending? path).bind fun ending => formats.lookup ending

/-- The members of the object that a text spells in a format. -/
def Format.read (f : Format) (text : String) : Option (List (String × Json)) :=
  let document := match f with
    | toml => Toml.read text
    | json => (Json.read text).toOption
    | yaml => Yaml.read text
    | ini => Ini.read text
    | ron => Ron.read text
    | json5 => Json5.read text
  match document with
  | some (.object ms) => some ms
  | _ => none

/-- The text of a file, without the mark that may stand before UTF-8 text. -/
def textOf (bytes : ByteArray) : String :=
  match (Text.ofUtf8Lossy bytes).toList with
  | '\ufeff' :: rest => String.ofList rest
  | s => String.ofList s

/-- The settings of the layers over the defaults. -/
def ofLayers (file environment : List (String × Json)) : Except SettingsError Settings :=
  ofJson (layOver (layOver defaults.toJson file) environment)

/-- A path continued by a name. -/
def join (path name : String) : String :=
  if path = "" then name
  else if path.toList.getLast? = some '/' then path ++ name
  else path ++ "/" ++ name

/-- The default place of the file. -/
def defaultPath (environment : Environment) : String :=
  let base := match environment.lookup "XDG_CONFIG_HOME" with
    | some dir => dir
    | none => join ((environment.lookup "HOME").getD ".") ".config"
  join (join base "trawl") "config.toml"

/-- The places where the file of a path is looked for: as named, or else with the ending of a
format. -/
def candidates (path : String) : List (String × Option Format) :=
  (path, Format.ofPath? path) :: formats.map fun (ending, f) => (path ++ "." ++ ending, some f)

variable {m : Type → Type} [Monad m]

/-- The first candidate that exists. -/
def locate (contentOf : String → m (Except Host.FileError ByteArray)) :
    List (String × Option Format) → m (Option (Option Format × ByteArray))
  | [] => return none
  | (path, f) :: rest => do
    match ← contentOf path with
    | .ok bytes => return some (f, bytes)
    | .error _ => locate contentOf rest

/-- The layer of the file at a path, empty for a file that need not exist and does not. -/
def readLayer (contentOf : String → m (Except Host.FileError ByteArray)) (required : Bool)
    (path : String) : m (Except SettingsError (List (String × Json))) := do
  match ← locate contentOf (candidates path) with
  | some (some f, bytes) =>
    match f.read (textOf bytes) with
    | some layer => return .ok layer
    | none => return .error (.unreadable path)
  | _ => return if required then .error (.missingFile path) else .ok []

/-- The settings of the file at a path, or else of the one in the default place, and of the
environment. -/
def load (contentOf : String → m (Except Host.FileError ByteArray)) (environment : Environment)
    (path : Option String) : m (Except SettingsError Settings) := do
  match ← readLayer contentOf path.isSome (path.getD (defaultPath environment)) with
  | .error e => return .error e
  | .ok layer => return ofLayers layer (ofEnvironment environment)

end TraceSearch.Settings
